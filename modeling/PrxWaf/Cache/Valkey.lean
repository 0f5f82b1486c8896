import PrxWaf.Cache.MokaCopy
import PrxWaf.Lib.Glob
import PrxWaf.Lib.Keyspace
import PrxWaf.Lib.Utf8

/-!
# The store on a Valkey server

An entry is a text with a deadline.  For each tag the server has the set of the
keys that carry it, and for each key the set of its tags.  The names of the three
kinds begin differently, so the kinds are kept apart here.

Any command can fail.  The store does not report this: it answers as if there were
nothing, or goes on.
-/

namespace PrxWaf
namespace Cache

open Lib

/-- What becomes of a command.  Its answer can be lost after it was carried
out. -/
inductive Fate where
  | answered
  | unanswered
  | undone
  deriving DecidableEq

namespace Fate

def isDone : Fate -> Bool
  | answered => true
  | unanswered => true
  | undone => false

def isAnswered : Fate -> Bool
  | answered => true
  | _ => false

end Fate

inductive Command where
  | ping
  | get (key : Text)
  | set (key : Text)
  | saddTag (tag key : Text)
  | saddKeyTag (key tag : Text)
  | smembersTag (tag : Text)
  | smembersKeyTags (key : Text)
  | sremTag (tag key : Text)
  | sremKeyTag (key tag : Text)
  | del (key : Text)
  | delTag (tag : Text)
  | delBatch
  deriving DecidableEq

/-- The connection during one operation: the fate of each command, and the keys
that a scan comes across. -/
structure Link where
  fate : Command -> Fate
  seen : List Text

namespace Link

def done (link : Link) (command : Command) : Bool :=
  (link.fate command).isDone

def answered (link : Link) (command : Command) : Bool :=
  (link.fate command).isAnswered

end Link

structure ValkeyStore where
  entries : Keyspace Text CachedResponse
  tagKeys : Text -> List Text
  keyTags : Text -> List Text

namespace ValkeyStore

def empty : ValkeyStore :=
  { entries := Keyspace.empty
    tagKeys := fun _ => []
    keyTags := fun _ => [] }

def keyStart : Text := "prx:cache:".toList

def set (store : ValkeyStore) (key : Text) (value : CachedResponse)
    (deadline : Int) : ValkeyStore :=
  { store with
    entries := store.entries.set key
      (some { value := value, deadline := some deadline }) }

def sadd (store : ValkeyStore) (tag key : Text) : ValkeyStore :=
  { store with
    tagKeys := Function.update store.tagKeys tag ((store.tagKeys tag).insert key) }

def saddKeyTag (store : ValkeyStore) (key tag : Text) : ValkeyStore :=
  { store with
    keyTags := Function.update store.keyTags key ((store.keyTags key).insert tag) }

def srem (store : ValkeyStore) (tag key : Text) : ValkeyStore :=
  { store with
    tagKeys := Function.update store.tagKeys tag ((store.tagKeys tag).erase key) }

def sremKeyTag (store : ValkeyStore) (key tag : Text) : ValkeyStore :=
  { store with
    keyTags := Function.update store.keyTags key ((store.keyTags key).erase tag) }

def del (store : ValkeyStore) (key : Text) : ValkeyStore :=
  { store with entries := store.entries.del key }

def delKeyTags (store : ValkeyStore) (key : Text) : ValkeyStore :=
  { store with keyTags := Function.update store.keyTags key [] }

def delTag (store : ValkeyStore) (tag : Text) : ValkeyStore :=
  { store with tagKeys := Function.update store.tagKeys tag [] }

def attempt (link : Link) (command : Command)
    (run : ValkeyStore -> ValkeyStore) (store : ValkeyStore) : ValkeyStore :=
  if link.done command then run store else store

/-- The server matches the bytes of the name of a key with the bytes of the pattern. -/
def matchesPattern (pattern key : Text) : Bool :=
  Glob.isMatch (utf8 pattern) (utf8 (keyStart ++ key))

/-- The keys that the scan comes across, as far as they are there and match the
pattern. -/
def scanKeys (store : ValkeyStore) (link : Link) (now : Time) (pattern : Text) : List Text :=
  link.seen.filter (fun key =>
    (store.entries.get now key).isSome && matchesPattern pattern key)

variable (store : ValkeyStore) (link : Link) (now : Time)

def get (key : Text) : Option CachedResponse :=
  if link.answered (.get key) then store.entries.get now key else none

/-- The answers to the commands on tags are not looked at. -/
def addTag (key : Text) (store : ValkeyStore) (tag : Text) : ValkeyStore :=
  attempt link (.saddKeyTag key tag) (fun store => store.saddKeyTag key tag)
    (attempt link (.saddTag tag key) (fun store => store.sadd tag key) store)

def expiration (ttlSecs : Nat) : Int :=
  min (ttlSecs : Int) i64Max

/-- The server refuses a timeout that is not positive or ends beyond its clock,
which counts milliseconds. -/
def accepts (ttlSecs : Nat) : Bool :=
  0 < expiration ttlSecs && expiration ttlSecs ≤ i64Max / 1000 &&
    expiration ttlSecs * 1000 ≤ i64Max - (now / 10 ^ 6 : Nat)

def setFate (key : Text) (ttlSecs : Nat) : Fate :=
  if accepts now ttlSecs then link.fate (.set key) else .undone

def put (key : Text) (value : CachedResponse) (ttlSecs : Nat)
    (tags : List Text) : ValkeyStore × Bool :=
  let written := store.set key value
    (now + expiration ttlSecs * nanosPerSec)
  match setFate link now key ttlSecs with
  | .answered => (tags.foldl (addTag link key) written, true)
  | .unanswered => (written, false)
  | .undone => (store, false)

def remove (key : Text) : ValkeyStore :=
  let tags :=
    if link.answered (.smembersKeyTags key) then store.keyTags key else []
  let store := tags.foldl (fun store tag =>
    attempt link (.sremTag tag key) (fun store => store.srem tag key) store)
    store
  attempt link (.del key) (fun store => (store.del key).delKeyTags key) store

def purgeMember (tag : Text) (store : ValkeyStore) (key : Text) : ValkeyStore :=
  attempt link (.del key) (fun store => store.del key)
    (attempt link (.sremKeyTag key tag)
      (fun store => store.sremKeyTag key tag) store)

def purgeByTag (tag : Text) : ValkeyStore × Nat :=
  if link.answered (.smembersTag tag) then
    let members := store.tagKeys tag
    (attempt link (.delTag tag) (fun store => store.delTag tag)
        (members.foldl (purgeMember link tag) store),
      members.length)
  else (store, 0)

def purgeByRouteId (routeId : Text) : ValkeyStore × Nat :=
  store.purgeByTag link routeId

def delEach (keys : List Text) : ValkeyStore :=
  keys.foldl (fun store key =>
    attempt link (.del key) (fun store => store.del key) store) store

def hostPattern (host : Text) : Text :=
  keyStart ++ "*:".toList ++ host ++ ":*".toList

def purgeHost (host : Text) : ValkeyStore × Nat :=
  let keys := store.scanKeys link now (hostPattern host)
  (store.delEach link keys, keys.length)

def flush : ValkeyStore :=
  let keys := store.scanKeys link now (keyStart ++ "*".toList)
  if keys.isEmpty then store
  else
    attempt link .delBatch (fun store => keys.foldl del store) store

/-! ## What the operations leave -/

def view (store : ValkeyStore) (now : Time) : TaggedView Text Text CachedResponse :=
  { holds := store.entries.get now
    tagged := fun tag key => key ∈ store.tagKeys tag }

section View

variable {store : ValkeyStore} {link : Link} {now : Time} {key : Text}

theorem get_eq_some {value : CachedResponse} (h : store.get link now key = some value) :
    (store.view now).holds key = some value := by
  unfold get at h
  split at h
  · exact h
  · cases h

theorem view_later {later : Time} (hle : now ≤ later) (k : Text) :
    (store.view now).KeepsKey (store.view later) k := by
  intro v hv
  exact ⟨Keyspace.get_of_later (Int.ofNat_le.mpr hle) hv, fun _ ht => ht⟩

theorem attempt_cases (store : ValkeyStore) (link : Link) (command : Command)
    (run : ValkeyStore -> ValkeyStore) :
    link.done command = true ∧ attempt link command run store = run store ∨
      link.done command = false ∧ attempt link command run store = store := by
  unfold attempt
  cases link.done command with
  | true => exact Or.inl ⟨rfl, rfl⟩
  | false => exact Or.inr ⟨rfl, rfl⟩

theorem attempt_keeps {command : Command} {run : ValkeyStore -> ValkeyStore} {k : Text}
    (hrun : (store.view now).KeepsKey ((run store).view now) k) :
    (store.view now).KeepsKey ((attempt link command run store).view now)
      k := by
  rcases attempt_cases store link command run with ⟨-, h⟩ | ⟨-, h⟩
  · rw [h]
    exact hrun
  · rw [h]
    exact TaggedView.KeepsKey.refl _ k

theorem del_keeps (store : ValkeyStore) (now : Time) (key k : Text) :
    (store.view now).KeepsKey ((store.del key).view now) k := by
  rcases Decidable.em (k = key) with rfl | hne
  · exact TaggedView.keepsKey_of_none (Keyspace.get_del_self _ _ _)
  · intro v hv
    refine ⟨?_, fun _ ht => ht⟩
    exact (Keyspace.get_congr _ (store.entries.set_of_ne none hne)).symm.trans hv

theorem update_keeps (store : ValkeyStore) (now : Time) {tag k : Text}
    {keys : List Text} (h : k ∈ store.tagKeys tag -> k ∈ keys) :
    (store.view now).KeepsKey (view { store with
        tagKeys := Function.update store.tagKeys tag keys } now) k := by
  intro v hv
  refine ⟨hv, ?_⟩
  intro t ht
  unfold view
  dsimp only
  rcases Decidable.em (t = tag) with rfl | hne
  · rw [Function.update_self]
    exact h ht
  · rw [Function.update_of_ne hne]
    exact ht

theorem sadd_keeps (store : ValkeyStore) (now : Time) (tag key k : Text) :
    (store.view now).KeepsKey ((store.sadd tag key).view now) k :=
  update_keeps store now List.mem_insert_of_mem

theorem srem_keeps (store : ValkeyStore) (now : Time) {tag key k : Text} (hk : k ≠ key) :
    (store.view now).KeepsKey ((store.srem tag key).view now) k :=
  update_keeps store now (List.mem_erase_of_ne hk).mpr

theorem delTag_keeps (store : ValkeyStore) (now : Time) {tag k : Text}
    (hk : k ∉ store.tagKeys tag) :
    (store.view now).KeepsKey ((store.delTag tag).view now) k :=
  update_keeps store now (fun hmem => absurd hmem hk)

theorem attempt_gone {command : Command} {run : ValkeyStore -> ValkeyStore}
    {k : Text} (hdone : link.done command = true) (hrun : ((run store).view now).holds k = none) :
    ((attempt link command run store).view now).holds k = none := by
  unfold attempt
  rw [if_pos hdone]
  exact hrun

theorem del_gone (store : ValkeyStore) (now : Time) (key : Text) :
    ((store.del key).view now).holds key = none :=
  Keyspace.get_del_self _ _ _

theorem set_keeps (value : CachedResponse) (deadline : Int) {k : Text} (hk : k ≠ key) :
    (store.view now).KeepsKey ((store.set key value deadline).view now) k := by
  intro v hv
  refine ⟨?_, fun _ ht => ht⟩
  exact (Keyspace.get_congr _ (store.entries.set_of_ne _ hk)).symm.trans hv

theorem set_self {value w : CachedResponse} {deadline : Int}
    (h : ((store.set key value deadline).view now).holds key = some w) :
    w = value := by
  obtain ⟨cell, hlive, rfl⟩ := Option.map_eq_some_iff.mp h
  obtain ⟨hcell, -⟩ := Option.filter_eq_some_iff.mp hlive
  have hset := (store.entries.set_self key _).symm.trans hcell
  rw [← Option.some.inj hset]

theorem addTag_keeps (store : ValkeyStore) (link : Link) (now : Time) (key tag k : Text) :
    (store.view now).KeepsKey ((addTag link key store tag).view now) k := by
  have hadd : (store.view now).KeepsKey ((attempt link (.saddTag tag key)
      (fun store => store.sadd tag key) store).view now) k :=
    attempt_keeps (sadd_keeps store now tag key k)
  exact hadd.trans (attempt_keeps (TaggedView.KeepsKey.refl _ k))

theorem addTag_tagged {tag : Text} (store : ValkeyStore) (now : Time)
    (hdone : link.done (.saddTag tag key) = true) :
    ((addTag link key store tag).view now).tagged tag key := by
  have hadded : key ∈ (store.sadd tag key).tagKeys tag := by
    unfold sadd
    dsimp only
    rw [Function.update_self]
    exact List.mem_insert_self
  unfold addTag
  rw [attempt, attempt, if_pos hdone]
  split
  · exact hadded
  · exact hadded

section Put

variable {value : CachedResponse} {ttlSecs : Nat} {tags : List Text}

theorem put_undone (h : setFate link now key ttlSecs = .undone) :
    store.put link now key value ttlSecs tags = (store, false) := by
  unfold put
  rw [h]

theorem put_accepted_iff (store : ValkeyStore) (link : Link) (now : Time)
    (key : Text) (value : CachedResponse) (ttlSecs : Nat) (tags : List Text) :
    (store.put link now key value ttlSecs tags).2 = true <->
      setFate link now key ttlSecs = .answered := by
  unfold put
  cases setFate link now key ttlSecs with
  | answered => simp
  | unanswered => simp
  | undone => simp

theorem put_keeps {k : Text} (hk : k ≠ key) :
    (store.view now).KeepsKey ((store.put link now key value ttlSecs tags).1.view now) k := by
  unfold put
  cases setFate link now key ttlSecs with
  | answered =>
    have hfold (store : ValkeyStore) := TaggedView.foldl_keeps (fun store => view store now)
        (fun store tag (_ : tag ∈ tags) =>
          addTag_keeps store link now key tag k) store
    exact (set_keeps value _ hk).trans (hfold _)
  | unanswered => exact set_keeps value _ hk
  | undone => exact TaggedView.KeepsKey.refl _ k

theorem put_self {w : CachedResponse} (hdone : (setFate link now key ttlSecs).isDone = true)
    (htags : forall tag, tag ∈ tags -> setFate link now key ttlSecs = .answered ∧
        link.done (.saddTag tag key) = true)
    (h : ((store.put link now key value ttlSecs tags).1.view now).holds key = some w) :
    w = value ∧ forall tag, tag ∈ tags ->
      ((store.put link now key value ttlSecs tags).1.view now).tagged tag
        key := by
  unfold put at h ⊢
  cases hfate : setFate link now key ttlSecs with
  | answered =>
    rw [hfate] at h
    have hkeeps (store : ValkeyStore) (tag : Text) := addTag_keeps store link now key tag key
    constructor
    · have hfold := TaggedView.foldl_keeps (fun store => view store now)
        (fun store tag _ => hkeeps store tag) _ w h
      exact set_self hfold.1
    · intro tag htag
      exact TaggedView.foldl_tagged (fun store => view store now) hkeeps htag
        (fun store => addTag_tagged store now (htags tag htag).2) h
  | unanswered =>
    rw [hfate] at h
    refine ⟨set_self h, ?_⟩
    intro tag htag
    rw [hfate] at htags
    cases (htags tag htag).1
  | undone =>
    rw [hfate] at hdone
    cases hdone

end Put

def Clears (store : ValkeyStore) (now : Time) (covered deleted : Text -> Prop) : Prop :=
  forall k, covered k -> ((store.view now).holds k).isSome = true -> deleted k

theorem entries_foldl_srem (store : ValkeyStore) (link : Link) (key : Text) (tags : List Text) :
    (tags.foldl (fun store tag => attempt link (.sremTag tag key)
      (fun store => store.srem tag key) store) store).entries =
        store.entries := by
  induction tags generalizing store with
  | nil => rfl
  | cons tag rest ih =>
    rw [List.foldl_cons, ih]
    unfold attempt
    split
    · rfl
    · rfl

theorem remove_gone (hclears : store.Clears now (fun k => k = key)
      (fun k => link.done (.del k) = true)) :
    ((store.remove link key).view now).holds key = none := by
  cases hv : (store.view now).holds key with
  | some v =>
    have hdone := hclears key rfl (Option.isSome_of_eq_some hv)
    exact attempt_gone hdone (del_gone _ now key)
  | none =>
    have hforget := entries_foldl_srem store link key
      (if link.answered (.smembersKeyTags key) then store.keyTags key else [])
    unfold remove attempt
    dsimp only
    split
    · exact del_gone _ now key
    · unfold view at hv ⊢
      dsimp only at hv ⊢
      unfold attempt at hforget
      rw [hforget]
      exact hv

theorem remove_keeps (hclears : store.Clears now (fun k => k = key)
      (fun k => link.done (.del k) = true)) (k : Text) :
    (store.view now).KeepsKey ((store.remove link key).view now) k := by
  rcases Decidable.em (k = key) with rfl | hne
  · exact TaggedView.keepsKey_of_none (remove_gone hclears)
  · refine TaggedView.KeepsKey.trans ?_ (attempt_keeps (del_keeps _ now key k))
    exact TaggedView.foldl_keeps (fun store => view store now)
      (fun store tag _ => attempt_keeps (srem_keeps store now hne)) store

theorem purgeMember_keeps (store : ValkeyStore) (link : Link) (now : Time) (tag key k : Text) :
    (store.view now).KeepsKey ((purgeMember link tag store key).view now)
      k := by
  refine TaggedView.KeepsKey.trans ?_ (attempt_keeps (del_keeps _ now key k))
  exact attempt_keeps (TaggedView.KeepsKey.refl _ k)

theorem tagKeys_purgeMember (store : ValkeyStore) (link : Link) (tag key : Text) :
    (purgeMember link tag store key).tagKeys = store.tagKeys := by
  unfold purgeMember attempt
  split <;> split <;> rfl

theorem tagKeys_foldl_purgeMember (store : ValkeyStore) (link : Link)
    (tag : Text) (keys : List Text) :
    (keys.foldl (purgeMember link tag) store).tagKeys = store.tagKeys := by
  induction keys generalizing store with
  | nil => rfl
  | cons key rest ih =>
    rw [List.foldl_cons, ih, tagKeys_purgeMember]

section PurgeByTag

variable {tag : Text}
  (hclears : store.Clears now ((store.view now).tagged tag) (fun k =>
    link.answered (.smembersTag tag) = true ∧ link.done (.del k) = true))

include hclears

theorem foldl_purgeMember_gone {k : Text} (hk : (store.view now).tagged tag k) :
    (((store.tagKeys tag).foldl (purgeMember link tag) store).view now).holds k = none := by
  have hkeeps (store : ValkeyStore) (key : Text) := purgeMember_keeps store link now tag key k
  cases hv : (store.view now).holds k with
  | none =>
    exact (TaggedView.foldl_keeps (fun store => view store now)
      (fun store key _ => hkeeps store key) store).none hv
  | some v =>
    have hdone := (hclears k hk (Option.isSome_of_eq_some hv)).2
    exact TaggedView.foldl_gone (fun store => view store now) hkeeps hk
      (fun store => attempt_gone hdone (del_gone _ now k)) store

theorem purgeByTag_gone {k : Text} (hk : (store.view now).tagged tag k) :
    ((store.purgeByTag link tag).1.view now).holds k = none := by
  have hgone := foldl_purgeMember_gone hclears hk
  unfold purgeByTag
  split
  · unfold attempt
    dsimp only
    split
    · exact hgone
    · exact hgone
  · rename_i hasked
    cases hv : (store.view now).holds k with
    | none => rfl
    | some v =>
      exact absurd (hclears k hk (Option.isSome_of_eq_some hv)).1 hasked

theorem purgeByTag_keeps (k : Text) :
    (store.view now).KeepsKey ((store.purgeByTag link tag).1.view now) k := by
  rcases Decidable.em (k ∈ store.tagKeys tag) with hk | hk
  · exact TaggedView.keepsKey_of_none (purgeByTag_gone hclears hk)
  · unfold purgeByTag
    split
    · have hfold := TaggedView.foldl_keeps (fun store => view store now)
        (fun other key (_ : key ∈ store.tagKeys tag) =>
          purgeMember_keeps other link now tag key k) store
      refine hfold.trans (attempt_keeps (delTag_keeps _ now ?_))
      rw [tagKeys_foldl_purgeMember]
      exact hk
    · exact TaggedView.KeepsKey.refl _ k

end PurgeByTag

theorem plain_keyStart : Glob.IsPlain (utf8 keyStart) := by
  decide

theorem plain_colon : Glob.IsPlain [58] := by
  decide

theorem match_hostPattern {host : Text} (hplain : Glob.IsPlain (utf8 host))
    (h : coversHost host key = true) : matchesPattern (hostPattern host) key = true := by
  obtain ⟨method, rest, -, rfl⟩ := exists_of_coversHost h
  have hpattern : utf8 (hostPattern host) =
      utf8 keyStart ++ 42 :: ([58] ++ (utf8 host ++ ([58] ++ [42]))) := by
    unfold hostPattern
    rw [utf8_append, utf8_append, utf8_append, List.append_assoc, List.append_assoc]
    rfl
  have hparse : Glob.parse (utf8 (hostPattern host)) =
      (utf8 keyStart).map .one ++ .star :: ([58].map .one ++ ((utf8 host).map .one ++
        ([58].map .one ++ [.star]))) := by
    rw [hpattern, Glob.parse_plain_append plain_keyStart, Glob.parse_star_cons,
      Glob.parse_plain_append plain_colon, Glob.parse_plain_append hplain,
      Glob.parse_plain_append plain_colon]
    rfl
  have hkey : utf8 (keyStart ++ (method ++ ':' :: (host ++ ':' :: rest))) =
      utf8 keyStart ++ (utf8 method ++ ([58] ++ (utf8 host ++ ([58] ++ utf8 rest)))) := by
    rw [utf8_append, utf8_append, utf8_cons, utf8_append, utf8_cons]
    rfl
  unfold matchesPattern Glob.isMatch
  rw [hparse, hkey, Glob.matchTokens_one_append]
  refine Glob.matchTokens_star ?_ (utf8 method)
  rw [Glob.matchTokens_one_append, Glob.matchTokens_one_append, Glob.matchTokens_one_append]
  exact Glob.matchTokens_last_star (utf8 rest)

theorem match_flushPattern (key : Text) :
    matchesPattern (keyStart ++ "*".toList) key = true := by
  have hparse : Glob.parse (utf8 (keyStart ++ "*".toList)) =
      (utf8 keyStart).map .one ++ [.star] := by
    rw [utf8_append, Glob.parse_plain_append plain_keyStart]
    rfl
  unfold matchesPattern Glob.isMatch
  rw [hparse, utf8_append, Glob.matchTokens_one_append]
  exact Glob.matchTokens_last_star (utf8 key)

theorem mem_scanKeys {pattern : Text} {v : CachedResponse}
    (hseen : key ∈ link.seen) (hv : (store.view now).holds key = some v)
    (hmatch : matchesPattern pattern key = true) :
    key ∈ store.scanKeys link now pattern := by
  refine List.mem_filter.mpr ⟨hseen, ?_⟩
  rw [hmatch, Bool.and_true]
  exact Option.isSome_of_eq_some hv

theorem delEach_keeps (store : ValkeyStore) (link : Link) (now : Time)
    (keys : List Text) (k : Text) :
    (store.view now).KeepsKey ((store.delEach link keys).view now) k :=
  TaggedView.foldl_keeps (fun store => view store now)
    (fun store key _ => attempt_keeps (del_keeps store now key k)) store

theorem purgeHost_gone {host k : Text} (hplain : Glob.IsPlain (utf8 host))
    (hclears : store.Clears now (fun k => coversHost host k = true)
      (fun k => k ∈ link.seen ∧ link.done (.del k) = true)) (hk : coversHost host k = true) :
    ((store.purgeHost link now host).1.view now).holds k = none := by
  cases hv : (store.view now).holds k with
  | none => exact (delEach_keeps store link now _ k).none hv
  | some v =>
    obtain ⟨hseen, hdone⟩ := hclears k hk (Option.isSome_of_eq_some hv)
    have hmem := mem_scanKeys hseen hv (match_hostPattern hplain hk)
    exact TaggedView.foldl_gone (fun store => view store now)
      (fun store key => attempt_keeps (del_keeps store now key k)) hmem
      (fun store => attempt_gone hdone (del_gone store now k)) store

theorem flush_keeps (store : ValkeyStore) (link : Link) (now : Time) (k : Text) :
    (store.view now).KeepsKey ((store.flush link now).view now) k := by
  unfold flush
  dsimp only
  split
  · exact TaggedView.KeepsKey.refl _ k
  · refine attempt_keeps ?_
    exact TaggedView.foldl_keeps (fun store => view store now)
      (fun store key _ => del_keeps store now key k) store

theorem flush_gone (hclears : store.Clears now (fun _ => True)
      (fun k => k ∈ link.seen ∧ link.done .delBatch = true))
    (k : Text) : ((store.flush link now).view now).holds k = none := by
  cases hv : (store.view now).holds k with
  | none => exact (flush_keeps store link now k).none hv
  | some v =>
    obtain ⟨hseen, hdone⟩ := hclears k trivial (Option.isSome_of_eq_some hv)
    have hmem := mem_scanKeys hseen hv (match_flushPattern k)
    unfold flush
    dsimp only
    rw [if_neg (by rw [List.isEmpty_iff]; exact List.ne_nil_of_mem hmem)]
    refine attempt_gone hdone ?_
    exact TaggedView.foldl_gone (fun store => view store now)
      (fun store key => del_keeps store now key k) hmem (fun store => del_gone store now k) store

end View

end ValkeyStore

end Cache
end PrxWaf
