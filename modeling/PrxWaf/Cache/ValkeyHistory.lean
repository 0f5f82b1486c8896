import PrxWaf.Cache.MokaHistory

/-!
# The store on the server as a function of its history

When every command is answered, the operations so far say which keys are in the
set of a tag.  A put adds its key to the sets of its tags and leaves the sets of
earlier tags; purges by host and flushes leave all sets.
-/

namespace PrxWaf
namespace Cache

open Lib CircuitBreakerStore

def Link.Works (link : Link) : Prop :=
  forall command, link.fate command = .answered

theorem Link.Works.answered {link : Link} (h : link.Works)
    (command : Command) : link.answered command = true := by
  unfold Link.answered
  rw [h command]
  rfl

/-- The key was put with the tag, and neither the key was removed nor the tag
purged since. -/
def InTagSet (key tag : Text) : List BackendOp -> Prop
  | [] => False
  | .put k _ _ tags :: older => k = key ∧ tag ∈ tags ∨ InTagSet key tag older
  | .remove k :: older => k ≠ key ∧ InTagSet key tag older
  | .purgeByTag t :: older => t ≠ tag ∧ InTagSet key tag older
  | .purgeByRouteId t :: older => t ≠ tag ∧ InTagSet key tag older
  | _ :: older => InTagSet key tag older

instance InTagSet.decidable (key tag : Text) : forall history, Decidable (InTagSet key tag history)
  | [] => isFalse id
  | .get _ :: older => InTagSet.decidable key tag older
  | .put _ _ _ _ :: older =>
    have := InTagSet.decidable key tag older
    inferInstanceAs (Decidable (_ ∨ _))
  | .remove _ :: older =>
    have := InTagSet.decidable key tag older
    inferInstanceAs (Decidable (_ ∧ _))
  | .purgeByTag _ :: older =>
    have := InTagSet.decidable key tag older
    inferInstanceAs (Decidable (_ ∧ _))
  | .purgeByRouteId _ :: older =>
    have := InTagSet.decidable key tag older
    inferInstanceAs (Decidable (_ ∧ _))
  | .purgeHost _ :: older => InTagSet.decidable key tag older
  | .flush :: older => InTagSet.decidable key tag older

namespace ValkeyStore

theorem attempt_of_works {link : Link} (h : link.Works) (command : Command)
    (run : ValkeyStore -> ValkeyStore) (store : ValkeyStore) :
    attempt link command run store = run store := by
  unfold attempt Link.done
  rw [h command]
  rfl

structure Consistent (store : ValkeyStore) : Prop where
  tagKeys : Labelling.Distinct store.tagKeys
  keyTags : Labelling.Distinct store.keyTags
  mem_iff : forall k tag, k ∈ store.tagKeys tag <-> tag ∈ store.keyTags k

def Loses (lost : Text -> Prop) (s t : ValkeyStore) : Prop :=
  forall k, (lost k -> t.entries k = none) ∧ (¬ lost k -> t.entries k = s.entries k)

section Commands

variable {store s t u : ValkeyStore} {link : Link} {key : Text}

theorem Loses.trans {p q : Text -> Prop} (hst : Loses p s t)
    (htu : Loses q t u) : Loses (fun k => p k ∨ q k) s u := by
  intro k
  constructor
  · intro hk
    rcases Classical.em (q k) with hq | hq
    · exact (htu k).1 hq
    · rw [(htu k).2 hq]
      exact (hst k).1 (hk.resolve_right hq)
  · intro hk
    rw [(htu k).2 (fun hq => hk (Or.inr hq)), (hst k).2 (fun hp => hk (Or.inl hp))]

theorem Loses.congr {p q : Text -> Prop} (h : Loses p s t)
    (hpq : forall k, p k <-> q k) : Loses q s t := by
  intro k
  rw [← hpq k]
  exact h k

theorem loses_foldl {f : ValkeyStore -> Text -> ValkeyStore}
    (hf : forall s key, Loses (fun k => k = key) s (f s key)) (keys : List Text) (s : ValkeyStore) :
    Loses (fun k => k ∈ keys) s (keys.foldl f s) := by
  induction keys generalizing s with
  | nil => exact fun k => ⟨fun h => absurd h List.not_mem_nil, fun _ => rfl⟩
  | cons key rest ih =>
    have hrest := (hf s key).trans (ih (f s key))
    exact hrest.congr (fun k => List.mem_cons.symm)

theorem loses_del (s : ValkeyStore) (key : Text) :
    Loses (fun k => k = key) s (s.del key) := by
  intro k
  constructor
  · rintro rfl
    exact s.entries.set_self k none
  · intro hk
    exact s.entries.set_of_ne none hk

theorem addTag_of_works (h : link.Works) (key : Text) (store : ValkeyStore) (tag : Text) :
    addTag link key store tag = (store.sadd tag key).saddKeyTag key tag := by
  unfold addTag
  rw [attempt_of_works h, attempt_of_works h]

theorem Consistent.addTag (hstore : store.Consistent) (h : link.Works)
    (key tag : Text) : (addTag link key store tag).Consistent := by
  rw [addTag_of_works h]
  refine ⟨hstore.tagKeys.attach key tag, hstore.keyTags.attach tag key, ?_⟩
  intro k t
  have htag : k ∈ ((store.sadd tag key).saddKeyTag key tag).tagKeys t <->
      k ∈ store.tagKeys t ∨ k = key ∧ t = tag := Labelling.mem_attach
  have hkey : t ∈ ((store.sadd tag key).saddKeyTag key tag).keyTags k <->
      t ∈ store.keyTags k ∨ t = tag ∧ k = key := Labelling.mem_attach
  rw [htag, hkey, hstore.mem_iff, and_comm]

theorem foldl_addTag (hstore : store.Consistent) (h : link.Works) (key : Text) (tags : List Text) :
    (tags.foldl (addTag link key) store).Consistent ∧
      (tags.foldl (addTag link key) store).entries = store.entries ∧
      forall k t, k ∈ (tags.foldl (addTag link key) store).tagKeys t <->
        k ∈ store.tagKeys t ∨ k = key ∧ t ∈ tags := by
  induction tags generalizing store with
  | nil => exact ⟨hstore, rfl, fun k t => by simp⟩
  | cons tag rest ih =>
    rcases ih (hstore.addTag h key tag) with ⟨hcons, hentries, hmem⟩
    refine ⟨hcons, ?_, ?_⟩
    · rw [List.foldl_cons, hentries, addTag_of_works h]
      rfl
    · intro k t
      have hfirst : k ∈ (addTag link key store tag).tagKeys t <->
          k ∈ store.tagKeys t ∨ k = key ∧ t = tag := by
        rw [addTag_of_works h]
        exact Labelling.mem_attach
      rw [List.foldl_cons, hmem, hfirst, List.mem_cons, or_assoc, ← and_or_left]

theorem foldl_srem_of_works (h : link.Works) (key : Text) (tags : List Text) (store : ValkeyStore) :
    tags.foldl (fun store tag => attempt link (.sremTag tag key)
        (fun store => store.srem tag key) store) store = { store with
        tagKeys := tags.foldl (Labelling.detach key) store.tagKeys } := by
  induction tags generalizing store with
  | nil => rfl
  | cons tag rest ih =>
    rw [List.foldl_cons, attempt_of_works h, ih]
    rfl

theorem remove_of_works (h : link.Works) (key : Text) (store : ValkeyStore) :
    store.remove link key =
      { entries := store.entries.del key
        tagKeys := (store.keyTags key).foldl (Labelling.detach key)
          store.tagKeys
        keyTags := Function.update store.keyTags key [] } := by
  unfold remove
  rw [if_pos (h.answered _)]
  dsimp only
  rw [foldl_srem_of_works h, attempt_of_works h]
  rfl

theorem mem_tagKeys_remove (hstore : store.Consistent) (h : link.Works) (key k tag : Text) :
    k ∈ (store.remove link key).tagKeys tag <-> key ≠ k ∧ k ∈ store.tagKeys tag := by
  rw [remove_of_works h]
  dsimp only
  rw [Labelling.mem_foldl_detach hstore.tagKeys, ← hstore.mem_iff]
  constructor
  · rintro ⟨hmem, hnot⟩
    refine ⟨?_, hmem⟩
    rintro rfl
    exact hnot ⟨rfl, hmem⟩
  · rintro ⟨hne, hmem⟩
    exact ⟨hmem, fun hboth => hne hboth.1.symm⟩

theorem Consistent.remove (hstore : store.Consistent) (h : link.Works)
    (key : Text) : (store.remove link key).Consistent := by
  have hmem := mem_tagKeys_remove hstore h key
  rw [remove_of_works h] at hmem ⊢
  refine ⟨Labelling.distinct_foldl_detach hstore.tagKeys key _,
    hstore.keyTags.update List.nodup_nil key, ?_⟩
  intro k tag
  rw [hmem]
  dsimp only
  rcases Decidable.em (k = key) with rfl | hne
  · rw [Function.update_self]
    simp
  · rw [Function.update_of_ne hne, hstore.mem_iff]
    simp [Ne.symm hne]

theorem foldl_purgeMember_of_works (h : link.Works) (tag : Text)
    (keys : List Text) (store : ValkeyStore) :
    (keys.foldl (purgeMember link tag) store).tagKeys = store.tagKeys ∧
      (keys.foldl (purgeMember link tag) store).keyTags =
        keys.foldl (Labelling.detach tag) store.keyTags ∧ Loses (fun k => k ∈ keys) store
        (keys.foldl (purgeMember link tag) store) := by
  have hstep : forall (store : ValkeyStore) key,
      purgeMember link tag store key = (store.sremKeyTag key tag).del key := by
    intro store key
    unfold purgeMember
    rw [attempt_of_works h, attempt_of_works h]
  refine ⟨tagKeys_foldl_purgeMember store link tag keys, ?_, ?_⟩
  · refine (List.foldl_hom ValkeyStore.keyTags ?_).symm
    intro store key
    rw [hstep]
    rfl
  · refine loses_foldl (fun store key => ?_) keys store
    rw [hstep]
    exact loses_del _ key

theorem purgeByTag_of_works (h : link.Works) (tag : Text) (store : ValkeyStore) :
    (store.purgeByTag link tag).1 =
      ((store.tagKeys tag).foldl (purgeMember link tag) store).delTag tag := by
  unfold purgeByTag
  rw [if_pos (h.answered _)]
  dsimp only
  rw [attempt_of_works h]

theorem mem_tagKeys_purgeByTag (h : link.Works) (tag k t : Text) :
    k ∈ (store.purgeByTag link tag).1.tagKeys t <-> tag ≠ t ∧ k ∈ store.tagKeys t := by
  rw [purgeByTag_of_works h]
  unfold delTag
  dsimp only
  rw [(foldl_purgeMember_of_works h tag _ store).1]
  rcases Decidable.em (t = tag) with rfl | hne
  · rw [Function.update_self]
    simp
  · rw [Function.update_of_ne hne]
    simp [Ne.symm hne]

theorem loses_purgeByTag (h : link.Works) (tag : Text) :
    Loses (fun k => k ∈ store.tagKeys tag) store (store.purgeByTag link tag).1 := by
  rw [purgeByTag_of_works h]
  exact (foldl_purgeMember_of_works h tag _ store).2.2

theorem Consistent.purgeByTag (hstore : store.Consistent) (h : link.Works)
    (tag : Text) : (store.purgeByTag link tag).1.Consistent := by
  have hmem : forall k t, k ∈ (store.purgeByTag link tag).1.tagKeys t <->
      tag ≠ t ∧ k ∈ store.tagKeys t := mem_tagKeys_purgeByTag h tag
  rcases foldl_purgeMember_of_works h tag (store.tagKeys tag) store with ⟨htags, hkeys, _⟩
  rw [purgeByTag_of_works h] at hmem ⊢
  refine ⟨?_, ?_, ?_⟩
  · unfold delTag
    dsimp only
    rw [htags]
    exact hstore.tagKeys.update List.nodup_nil tag
  · unfold delTag
    dsimp only
    rw [hkeys]
    exact Labelling.distinct_foldl_detach hstore.keyTags tag _
  · intro k t
    rw [hmem]
    unfold delTag
    dsimp only
    rw [hkeys, Labelling.mem_foldl_detach hstore.keyTags, hstore.mem_iff, hstore.mem_iff]
    constructor
    · rintro ⟨hne, ht⟩
      exact ⟨ht, fun hboth => hne hboth.1.symm⟩
    · rintro ⟨ht, hnot⟩
      refine ⟨?_, ht⟩
      rintro rfl
      exact hnot ⟨rfl, ht⟩

theorem purgeHost_of_works (h : link.Works) (now : Time) (host : Text) (store : ValkeyStore) :
    (store.purgeHost link now host).1 =
      (store.scanKeys link now (hostPattern host)).foldl del store := by
  have hstep : (fun (store : ValkeyStore) key => attempt link (.del key)
      (fun store => store.del key) store) = del := by
    funext store key
    exact attempt_of_works h _ _ store
  unfold purgeHost delEach
  dsimp only
  rw [hstep]

theorem flush_of_works (h : link.Works) (now : Time) (store : ValkeyStore) :
    store.flush link now = (store.scanKeys link now (keyStart ++ "*".toList)).foldl del store := by
  unfold flush
  dsimp only
  split
  · rename_i hempty
    rw [List.isEmpty_iff.mp hempty]
    rfl
  · rw [attempt_of_works h]

theorem sets_foldl_del (keys : List Text) (store : ValkeyStore) :
    (keys.foldl del store).tagKeys = store.tagKeys ∧
      (keys.foldl del store).keyTags = store.keyTags := by
  induction keys generalizing store with
  | nil => exact ⟨rfl, rfl⟩
  | cons key rest ih => exact ih (store.del key)

end Commands

def perform (store : ValkeyStore) (link : Link) (now : Time) : BackendOp -> ValkeyStore
  | .get _ => store
  | .put key value ttlSecs tags =>
    (store.put link now key value ttlSecs tags).1
  | .remove key => store.remove link key
  | .purgeByTag tag => (store.purgeByTag link tag).1
  | .purgeByRouteId routeId => (store.purgeByRouteId link routeId).1
  | .purgeHost host => (store.purgeHost link now host).1
  | .flush => store.flush link now

structure Follows (store : ValkeyStore) (history : List BackendOp) : Prop where
  consistent : store.Consistent
  sets : forall k tag, k ∈ store.tagKeys tag <-> InTagSet k tag history

theorem follows_empty : Follows empty [] where
  consistent :=
    ⟨fun _ => List.nodup_nil, fun _ => List.nodup_nil,
      fun _ _ => iff_of_false List.not_mem_nil List.not_mem_nil⟩
  sets := fun _ _ => iff_of_false List.not_mem_nil id

section Follows

variable {store : ValkeyStore} {history : List BackendOp} {link : Link}
  {now : Time}

theorem put_of_works (h : link.Works) {ttlSecs : Nat}
    (haccepts : accepts now ttlSecs = true) (key : Text)
    (value : CachedResponse) (tags : List Text) :
    (store.put link now key value ttlSecs tags).1 =
      tags.foldl (addTag link key) (store.set key value
        (now + expiration ttlSecs * nanosPerSec)) := by
  unfold put setFate
  rw [if_pos haccepts, h]

theorem Consistent.set (h : store.Consistent) (key : Text)
    (value : CachedResponse) (deadline : Int) :
    (store.set key value deadline).Consistent :=
  ⟨h.tagKeys, h.keyTags, h.mem_iff⟩

theorem entries_put (hstore : store.Consistent) (h : link.Works)
    {ttlSecs : Nat} (haccepts : accepts now ttlSecs = true) (key : Text)
    (value : CachedResponse) (tags : List Text) :
    (store.put link now key value ttlSecs tags).1.entries = store.entries.set key (some {
        value := value
        deadline := some (now + expiration ttlSecs * nanosPerSec) }) := by
  rw [put_of_works h haccepts]
  exact (foldl_addTag (hstore.set key value _) h key tags).2.1

theorem follows_foldl_del (h : store.Follows history) (keys : List Text) :
    (keys.foldl del store).Follows history := by
  rcases sets_foldl_del keys store with ⟨htags, hkeys⟩
  refine ⟨⟨?_, ?_, ?_⟩, ?_⟩
  · rw [htags]
    exact h.consistent.tagKeys
  · rw [hkeys]
    exact h.consistent.keyTags
  · rw [htags, hkeys]
    exact h.consistent.mem_iff
  · rw [htags]
    exact h.sets

def Live (store : ValkeyStore) (now : Time) : Prop :=
  forall k cell, store.entries k = some cell -> cell.isLive now = true

def Accepted (now : Time) : BackendOp -> Prop
  | .put _ _ ttlSecs _ => accepts now ttlSecs = true
  | _ => True

theorem follows_perform (h : store.Follows history) (hlink : link.Works)
    {op : BackendOp} (haccepted : Accepted now op) :
    (store.perform link now op).Follows (op :: history) := by
  cases op with
  | get key => exact ⟨h.consistent, h.sets⟩
  | put key value ttlSecs tags =>
    rcases foldl_addTag (h.consistent.set key value
      (now + expiration ttlSecs * nanosPerSec)) hlink key tags with ⟨hcons, _, hmem⟩
    unfold perform
    dsimp only
    rw [put_of_works hlink haccepted]
    refine ⟨hcons, fun k tag => ?_⟩
    rw [hmem, InTagSet, ← h.sets, or_comm, eq_comm]
    rfl
  | remove key =>
    refine ⟨h.consistent.remove hlink key, fun k tag => ?_⟩
    rw [InTagSet, ← h.sets]
    exact mem_tagKeys_remove h.consistent hlink key k tag
  | purgeByTag tag =>
    refine ⟨h.consistent.purgeByTag hlink tag, fun k t => ?_⟩
    rw [InTagSet, ← h.sets]
    exact mem_tagKeys_purgeByTag hlink tag k t
  | purgeByRouteId tag =>
    refine ⟨h.consistent.purgeByTag hlink tag, fun k t => ?_⟩
    rw [InTagSet, ← h.sets]
    exact mem_tagKeys_purgeByTag hlink tag k t
  | purgeHost host =>
    unfold perform
    dsimp only
    rw [purgeHost_of_works hlink]
    have hdel := follows_foldl_del h (store.scanKeys link now (hostPattern host))
    exact ⟨hdel.consistent, hdel.sets⟩
  | flush =>
    unfold perform
    dsimp only
    rw [flush_of_works hlink]
    have hdel := follows_foldl_del h (store.scanKeys link now (keyStart ++ "*".toList))
    exact ⟨hdel.consistent, hdel.sets⟩

end Follows

end ValkeyStore
end Cache
end PrxWaf
