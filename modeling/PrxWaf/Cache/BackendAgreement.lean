import PrxWaf.Cache.ValkeyHistory

/-!
# The two backends side by side

The same operations on a store in memory and on a store on a server, while no
command fails and nothing expires.  Both answer alike as long as every operation
reaches the same keys in both.
-/

namespace PrxWaf
namespace Cache

open Lib CircuitBreakerStore

structure TwinCall where
  link : Link
  now : Time
  op : BackendOp

structure Twins where
  moka : MokaStore
  valkey : ValkeyStore
  clock : Time
  history : List BackendOp

namespace Twins

def start (maxTtlSecs : Nat) (clock : Time) : Twins :=
  { moka := .new maxTtlSecs
    valkey := .empty
    clock := clock
    history := [] }

def perform (s : Twins) (call : TwinCall) : Twins :=
  { moka := s.moka.perform call.now call.op
    valkey := s.valkey.perform call.link call.now call.op
    clock := call.now
    history := call.op :: s.history }

def step (s : Twins) (call : TwinCall) : Option Twins :=
  if s.clock ≤ call.now then some (s.perform call) else none

def Scanned (valkey : ValkeyStore) (link : Link) : BackendOp -> Prop
  | .purgeHost _ | .flush =>
    forall k, (valkey.entries k).isSome = true -> k ∈ link.seen
  | _ => True

/-- Calls come in order, every command is answered, nothing expires and scans are
complete. -/
structure Undisturbed (s : Twins) (call : TwinCall) : Prop where
  ordered : s.clock ≤ call.now
  works : call.link.Works
  accepted : ValkeyStore.Accepted call.now call.op
  unexpired : s.moka.Unexpired call.now
  live : s.valkey.Live call.now
  scanned : Scanned s.valkey call.link call.op

def Agree (s : Twins) : Prop :=
  forall link, link.Works -> forall k, s.moka.get s.clock k = s.valkey.get link s.clock k

def Matches (moka : MokaStore) (valkey : ValkeyStore) : Prop :=
  forall k, (moka.inner.lookup k).map StoredEntry.response = (valkey.entries k).map Cell.value

theorem get_of_live {valkey : ValkeyStore} {link : Link} {now : Time}
    (hlink : link.Works) (h : valkey.Live now) (k : Text) :
    valkey.get link now k = (valkey.entries k).map Cell.value := by
  unfold ValkeyStore.get
  rw [if_pos (hlink.answered _)]
  cases hcell : valkey.entries k with
  | none =>
    unfold Keyspace.get
    rw [Keyspace.live_of_none now hcell]
  | some cell => exact Keyspace.get_of_some hcell (h k cell hcell)

def workingLink (seen : List Text) : Link :=
  { fate := fun _ => .answered, seen := seen }

theorem workingLink_works (seen : List Text) : (workingLink seen).Works :=
  fun _ => rfl

variable {s : Twins} {call : TwinCall}

theorem agree_iff_matches (hmoka : s.moka.Unexpired s.clock) (hvalkey : s.valkey.Live s.clock) :
    s.Agree <-> Matches s.moka s.valkey := by
  constructor
  · intro h k
    have hk := h _ (workingLink_works []) k
    rw [MokaStore.get_of_unexpired hmoka, get_of_live (workingLink_works []) hvalkey] at hk
    exact hk
  · intro h link hlink k
    rw [MokaStore.get_of_unexpired hmoka, get_of_live hlink hvalkey]
    exact h k

section Lost

variable {moka moka' : MokaStore} {valkey valkey' : ValkeyStore} {now : Time}
  {p q : Text -> Prop}

theorem unexpired_of_drops (h : moka.Unexpired now)
    (hdrops : MokaStore.Drops p moka moka') : moka'.Unexpired now := by
  intro k entry hentry
  rcases Classical.em (p k) with hp | hp
  · rw [(hdrops.gone k hp).1] at hentry
    cases hentry
  · rw [(hdrops.kept k hp).1] at hentry
    unfold MokaStore.isExpired
    rw [hdrops.maxTtlSecs]
    exact h k entry hentry

theorem live_of_loses (h : valkey.Live now)
    (hloses : ValkeyStore.Loses q valkey valkey') : valkey'.Live now := by
  intro k cell hcell
  rcases Classical.em (q k) with hq | hq
  · rw [(hloses k).1 hq] at hcell
    cases hcell
  · rw [(hloses k).2 hq] at hcell
    exact h k cell hcell

theorem eq_iff_of_lost {value : Type} {held left right : Option value}
    {p q : Prop} (hp : p -> left = none) (hp' : ¬ p -> left = held)
    (hq : q -> right = none) (hq' : ¬ q -> right = held) :
    left = right <-> (held.isSome = true -> (p <-> q)) := by
  rcases Classical.em p with h | h
  · rw [hp h]
    rcases Classical.em q with h' | h'
    · rw [hq h']
      simp [h, h']
    · rw [hq' h']
      cases held with
      | none => simp
      | some v => simp [h, h']
  · rw [hp' h]
    rcases Classical.em q with h' | h'
    · rw [hq h']
      cases held with
      | none => simp
      | some v => simp [h, h']
    · rw [hq' h']
      simp [h, h']

theorem matches_iff_of_lost (h : Matches moka valkey) (hdrops : MokaStore.Drops p moka moka')
    (hloses : ValkeyStore.Loses q valkey valkey') :
    Matches moka' valkey' <-> forall k, (moka.inner.lookup k).isSome = true -> (p k <-> q k) := by
  refine forall_congr' (fun k => ?_)
  rw [← Option.isSome_map (f := StoredEntry.response)]
  refine eq_iff_of_lost (fun hp => ?_) (fun hp => ?_) (fun hq => ?_) (fun hq => ?_)
  · rw [(hdrops.gone k hp).1]
    rfl
  · rw [(hdrops.kept k hp).1]
  · rw [(hloses k).1 hq]
    rfl
  · rw [(hloses k).2 hq, h k]

end Lost

section Put

variable {moka : MokaStore} {valkey : ValkeyStore} {link : Link} {now : Time}
  {ttlSecs : Nat}

theorem lookup_put_eq (moka : MokaStore) (now : Time) (key : Text)
    (value : CachedResponse) (ttlSecs : Nat) (tags : List Text) (k : Text) :
    (moka.put now key value ttlSecs tags).1.inner.lookup k =
      if k = key then
        some {
          response := { value with maxAge := ttlSecs }
          insertedAt := now }
      else moka.inner.lookup k := by
  split
  · rename_i heq
    rw [heq]
    exact AList.lookup_insert _
  · rename_i hne
    exact AList.lookup_insert_ne hne

theorem unexpired_put (h : moka.Unexpired now) (hpos : 0 < moka.maxTtlSecs)
    (key : Text) (value : CachedResponse) (ttlSecs : Nat) (tags : List Text) :
    (moka.put now key value ttlSecs tags).1.Unexpired now := by
  intro k entry hentry
  rw [lookup_put_eq] at hentry
  split at hentry
  · cases hentry
    change ¬ now + moka.maxTtlSecs * nanosPerSec ≤ now
    unfold nanosPerSec
    lia
  · exact h k entry hentry

theorem entries_put_eq (hvalkey : valkey.Consistent) (hlink : link.Works)
    (haccepts : ValkeyStore.accepts now ttlSecs = true) (key : Text)
    (value : CachedResponse) (tags : List Text) (k : Text) :
    (valkey.put link now key value ttlSecs tags).1.entries k =
      if k = key then
        some {
          value := value
          deadline := some
            (now + ValkeyStore.expiration ttlSecs * nanosPerSec) }
      else valkey.entries k := by
  rw [ValkeyStore.entries_put hvalkey hlink haccepts]
  rfl

theorem live_put (h : valkey.Live now) (hvalkey : valkey.Consistent)
    (hlink : link.Works) (haccepts : ValkeyStore.accepts now ttlSecs = true)
    (key : Text) (value : CachedResponse) (tags : List Text) :
    (valkey.put link now key value ttlSecs tags).1.Live now := by
  intro k cell hcell
  rw [entries_put_eq hvalkey hlink haccepts] at hcell
  split at hcell
  · cases hcell
    unfold ValkeyStore.accepts at haccepts
    simp only [Bool.and_eq_true, decide_eq_true_eq] at haccepts
    have hpos := haccepts.1.1
    refine decide_eq_true ?_
    unfold nanosPerSec
    lia
  · exact h k cell hcell

theorem matches_put_iff (h : Matches moka valkey) (hvalkey : valkey.Consistent) (hlink : link.Works)
    (haccepts : ValkeyStore.accepts now ttlSecs = true) (key : Text)
    (value : CachedResponse) (tags : List Text) :
    Matches (moka.put now key value ttlSecs tags).1
        (valkey.put link now key value ttlSecs tags).1 <-> value.maxAge = ttlSecs := by
  constructor
  · intro hput
    have hkey := hput key
    rw [lookup_put_eq, entries_put_eq hvalkey hlink haccepts, if_pos rfl, if_pos rfl] at hkey
    exact (congrArg CachedResponse.maxAge (Option.some.inj hkey)).symm
  · intro hage k
    rw [lookup_put_eq, entries_put_eq hvalkey hlink haccepts]
    split
    · rw [← hage]
      rfl
    · exact h k

end Put

/-- Both stores treat the operation alike, after the history: the response of a
put has the age it is stored for, the tag of a purge leads to the keys that are in
its set, and the pattern of a host matches its keys and no others. -/
def Alike (history : List BackendOp) : BackendOp -> Prop
  | .put _ value ttlSecs _ => value.maxAge = ttlSecs
  | .purgeByTag tag =>
    forall k, Held k history -> (TagLeads k tag history <-> InTagSet k tag history)
  | .purgeByRouteId routeId =>
    forall k, Held k history -> (TagLeads k routeId history <-> InTagSet k routeId history)
  | .purgeHost host =>
    forall k, Held k history ->
      (MokaStore.keyHost k = some host <->
        ValkeyStore.matchesPattern (ValkeyStore.hostPattern host) k = true)
  | _ => True

structure InStep (s : Twins) : Prop where
  maxTtlSecs : 0 < s.moka.maxTtlSecs
  moka : s.moka.Follows s.history
  valkey : s.valkey.Follows s.history
  same : Matches s.moka s.valkey

structure Result (s : Twins) (call : TwinCall) : Prop where
  maxTtlSecs : (s.perform call).moka.maxTtlSecs = s.moka.maxTtlSecs
  unexpired : (s.perform call).moka.Unexpired call.now
  live : (s.perform call).valkey.Live call.now
  same_iff : Matches (s.perform call).moka (s.perform call).valkey <-> Alike s.history call.op

section Step

variable {link : Link} {now : Time}

theorem result_of_lost {op : BackendOp} {p q : Text -> Prop} (hs : s.InStep)
    (hcall : s.Undisturbed { link := link, now := now, op := op })
    (hdrops : MokaStore.Drops p s.moka (s.moka.perform now op))
    (hloses : ValkeyStore.Loses q s.valkey (s.valkey.perform link now op))
    (hsame : (forall k, Held k s.history -> (p k <-> q k)) <-> Alike s.history op) :
    s.Result { link := link, now := now, op := op } where
  maxTtlSecs := hdrops.maxTtlSecs
  unexpired := unexpired_of_drops hcall.unexpired hdrops
  live := live_of_loses hcall.live hloses
  same_iff := by
    rw [← hsame]
    refine (matches_iff_of_lost hs.same hdrops hloses).trans ?_
    simp only [hs.moka.held]

theorem mem_scanKeys_iff (hs : s.InStep) (hlive : s.valkey.Live now)
    (hscanned : forall k, (s.valkey.entries k).isSome = true -> k ∈ link.seen)
    (pattern : Text) {k : Text} (hk : Held k s.history) :
    k ∈ s.valkey.scanKeys link now pattern <->
      ValkeyStore.matchesPattern pattern k = true := by
  have hsome : (s.valkey.entries k).isSome = true := by
    rw [← Option.isSome_map (f := Cell.value), ← hs.same k, Option.isSome_map]
    exact (hs.moka.held k).mpr hk
  obtain ⟨cell, hcell⟩ := Option.isSome_iff_exists.mp hsome
  have hget : s.valkey.entries.get now k = some cell.value :=
    Keyspace.get_of_some hcell (hlive k cell hcell)
  unfold ValkeyStore.scanKeys
  rw [List.mem_filter, hget]
  constructor
  · rintro ⟨_, hmatch⟩
    exact hmatch
  · intro hmatch
    exact ⟨hscanned k hsome, hmatch⟩

theorem result_put (hs : s.InStep) {key : Text} {value : CachedResponse}
    {ttlSecs : Nat} {tags : List Text} (hcall : s.Undisturbed
      { link := link, now := now, op := .put key value ttlSecs tags }) :
    s.Result { link := link, now := now, op := .put key value ttlSecs tags } where
  maxTtlSecs := rfl
  unexpired := unexpired_put hcall.unexpired hs.maxTtlSecs key value ttlSecs tags
  live := live_put hcall.live hs.valkey.consistent hcall.works hcall.accepted key value tags
  same_iff := matches_put_iff hs.same hs.valkey.consistent hcall.works hcall.accepted key value tags

theorem result (hs : s.InStep) {op : BackendOp}
    (hcall : s.Undisturbed { link := link, now := now, op := op }) :
    s.Result { link := link, now := now, op := op } := by
  cases op with
  | get key =>
    have hdrops : MokaStore.Drops (fun _ => False) s.moka s.moka :=
      ⟨rfl, hs.moka.sound.index, fun _ h => h.elim, fun _ _ => ⟨rfl, rfl⟩⟩
    have hloses : ValkeyStore.Loses (fun _ => False) s.valkey s.valkey :=
      fun _ => ⟨fun h => h.elim, fun _ => rfl⟩
    exact result_of_lost hs hcall hdrops hloses (iff_of_true (fun _ _ => Iff.rfl) trivial)
  | put key value ttlSecs tags => exact result_put hs hcall
  | remove key =>
    have hloses : ValkeyStore.Loses (fun k => k = key) s.valkey (s.valkey.remove link key) := by
      rw [ValkeyStore.remove_of_works hcall.works]
      exact ValkeyStore.loses_del s.valkey key
    exact result_of_lost hs hcall (MokaStore.drops_evict hs.moka.sound key)
      hloses (iff_of_true (fun _ _ => Iff.rfl) trivial)
  | purgeByTag tag =>
    refine result_of_lost hs hcall (MokaStore.drops_purgeByTag hs.moka.sound now tag)
      (ValkeyStore.loses_purgeByTag hcall.works tag) ?_
    simp only [hs.moka.tags, hs.valkey.sets]
    rfl
  | purgeByRouteId tag =>
    refine result_of_lost hs hcall (MokaStore.drops_purgeByTag hs.moka.sound now tag)
      (ValkeyStore.loses_purgeByTag hcall.works tag) ?_
    simp only [hs.moka.tags, hs.valkey.sets]
    rfl
  | purgeHost host =>
    have hloses : ValkeyStore.Loses (fun k => k ∈ s.valkey.scanKeys link now
          (ValkeyStore.hostPattern host)) s.valkey (s.valkey.purgeHost link now host).1 := by
      rw [ValkeyStore.purgeHost_of_works hcall.works]
      exact ValkeyStore.loses_foldl ValkeyStore.loses_del _ s.valkey
    refine result_of_lost hs hcall
      (MokaStore.drops_purgeHost hs.moka.sound hcall.unexpired host) hloses
      (forall₂_congr (fun k hk => ?_))
    rw [mem_scanKeys_iff hs hcall.live hcall.scanned _ hk, and_iff_right ((hs.moka.held k).mpr hk)]
  | flush =>
    have hloses : ValkeyStore.Loses (fun k => k ∈ s.valkey.scanKeys link now
          (ValkeyStore.keyStart ++ "*".toList)) s.valkey (s.valkey.flush link now) := by
      rw [ValkeyStore.flush_of_works hcall.works]
      exact ValkeyStore.loses_foldl ValkeyStore.loses_del _ s.valkey
    refine result_of_lost hs hcall (MokaStore.drops_flush s.moka now) hloses
      (iff_of_true (fun k hk => ?_) trivial)
    rw [mem_scanKeys_iff hs hcall.live hcall.scanned _ hk]
    exact iff_of_true trivial (ValkeyStore.match_flushPattern k)

end Step

def AgreesAfter (s : Twins) (call : TwinCall) : Prop :=
  forall s', s.step call = some s' -> s'.Agree

theorem inStep_start {maxTtlSecs : Nat} (h : 0 < maxTtlSecs) (clock : Time) :
    (start maxTtlSecs clock).InStep where
  maxTtlSecs := h
  moka := MokaStore.follows_new maxTtlSecs
  valkey := ValkeyStore.follows_empty
  same := fun _ => rfl

theorem step_inStep {s' : Twins} (hs : s.InStep)
    (hcall : s.Undisturbed call) (hstep : s.step call = some s') :
    (s'.Agree <-> Alike s.history call.op) ∧ (Alike s.history call.op -> s'.InStep) := by
  have hresult : s.Result call := result hs hcall
  unfold step at hstep
  split at hstep
  · cases hstep
    refine ⟨?_, fun halike => ?_⟩
    · exact (agree_iff_matches hresult.unexpired hresult.live).trans hresult.same_iff
    · refine ⟨?_, ?_, ?_, hresult.same_iff.mpr halike⟩
      · rw [hresult.maxTtlSecs]
        exact hs.maxTtlSecs
      · exact MokaStore.follows_perform hs.moka hcall.unexpired call.op
      · exact ValkeyStore.follows_perform hs.valkey hcall.works hcall.accepted
  · cases hstep

theorem undisturbed_next (hs : s.InStep)
    (hcall : s.Undisturbed call) (op : BackendOp) (haccepted : ValkeyStore.Accepted call.now op)
    (hscanned : Scanned (s.perform call).valkey call.link op) :
    (s.perform call).Undisturbed { call with op := op } := by
  have hresult : s.Result call := result hs hcall
  exact ⟨Nat.le_refl _, hcall.works, haccepted, hresult.unexpired, hresult.live, hscanned⟩

theorem agreesAfter_iff (hs : s.InStep) (hcall : s.Undisturbed call) :
    s.AgreesAfter call <-> Alike s.history call.op := by
  have hstep : s.step call = some (s.perform call) := if_pos hcall.ordered
  have hagree := (step_inStep hs hcall hstep).left
  constructor
  · intro hafter
    exact hagree.mp (hafter _ hstep)
  · intro halike s' hs'
    rw [hstep] at hs'
    cases hs'
    exact hagree.mpr halike

/-- From empty stores, and while nothing disturbs them, both backends give the same
answers after every call exactly when each call is treated alike. -/
theorem backends_agree_iff {maxTtlSecs : Nat} (httl : 0 < maxTtlSecs)
    {clock : Time} {calls : List TwinCall}
    (hcalls : StepsMeet step Undisturbed (start maxTtlSecs clock) calls) :
    StepsMeet step AgreesAfter (start maxTtlSecs clock) calls <->
      StepsMeet step (fun s call => Alike s.history call.op) (start maxTtlSecs clock) calls :=
  stepsMeet_iff_of_invariant agreesAfter_iff
    (fun hs hcall halike hstep => (step_inStep hs hcall hstep).right halike)
    (inStep_start httl clock) hcalls

def callOf (op : BackendOp) : TwinCall :=
  { link := workingLink [], now := 0, op := op }

def putPage (key tag : String) : BackendOp :=
  .put key.toList { status := 200, headers := [], body := [], maxAge := 60 } 60 [tag.toList]

def twoPages (first firstTag second secondTag tag : String) : List TwinCall :=
  [callOf (putPage first firstTag), callOf (putPage second secondTag),
    callOf (.purgeByTag tag.toList)]

theorem undisturbed_twoPages (first firstTag second secondTag tag : String) :
    StepsMeet step Undisturbed (start 3600 0) (twoPages first firstTag second secondTag tag) := by
  have hstart := inStep_start (show 0 < 3600 by decide) 0
  have hfirst : (start 3600 0).Undisturbed (callOf (putPage first firstTag)) :=
    ⟨Nat.le_refl _, workingLink_works [], (by decide : ValkeyStore.accepts 0 60 = true),
      (fun _ _ h => nomatch h), (fun _ _ h => nomatch h), trivial⟩
  have hnext := (step_inStep hstart hfirst rfl).2 rfl
  have hsecond := undisturbed_next hstart hfirst (putPage second secondTag)
    (by decide : ValkeyStore.accepts 0 60 = true) trivial
  have hthird := undisturbed_next hnext hsecond (.purgeByTag tag.toList)
    trivial trivial
  exact stepsMeet_cons hfirst rfl (stepsMeet_cons hsecond rfl (stepsMeet_cons hthird rfl trivial))

theorem purged_news_agree :
    StepsMeet step AgreesAfter (start 3600 0)
      (twoPages "GET:a.example:/news" "news" "GET:a.example:/shop" "shop" "news") := by
  refine (backends_agree_iff (by decide) (undisturbed_twoPages _ _ _ _ _)).mpr ?_
  refine stepsMeet_cons rfl rfl (stepsMeet_cons rfl rfl (stepsMeet_cons ?_ rfl trivial))
  rintro k (rfl | rfl | hnever)
  · decide
  · decide
  · exact hnever.elim

/-- A page is put again with another tag, and the first tag is purged: the page
stays in memory, while the server still has it in the set of the first tag. -/
theorem retagged_page_differs :
    StepsMeet step Undisturbed (start 3600 0)
        (twoPages "GET:a.example:/" "news" "GET:a.example:/" "shop" "news") ∧
      exists t, runFrom step (start 3600 0)
          (twoPages "GET:a.example:/" "news" "GET:a.example:/" "shop" "news") = some t ∧
        (t.moka.get t.clock "GET:a.example:/".toList).isSome = true ∧
        t.valkey.get (workingLink []) t.clock "GET:a.example:/".toList =
          none :=
  ⟨undisturbed_twoPages _ _ _ _ _, _, rfl, by decide, by decide⟩

end Twins
end Cache
end PrxWaf
