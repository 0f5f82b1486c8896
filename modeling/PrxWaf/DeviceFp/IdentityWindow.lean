import PrxWaf.DeviceFp.IdentityAgreement

/-!
# What the store in memory counts

As long as the times do not decrease, the queue of a fingerprint has what was
observed in the window before the last call.  Calls for other fingerprints may come
in between.
-/

namespace PrxWaf
namespace DeviceFp

open Lib

theorem filter_fresh {item : Type} {time : item -> Int} {cut : Int -> Int} {cutoff : Int}
    {items : List item} (h : forall x, x ∈ items -> cut (time x) ≤ cutoff) :
    (fresh time cut items).filter (fun x => cutoff ≤ time x) =
      items.filter (fun x => cutoff ≤ time x) := by
  induction items with
  | nil => rfl
  | cons last older ih =>
    have hlast := h last List.mem_cons_self
    have hrest := ih (fun x hx => h x (List.mem_cons_of_mem last hx))
    have hsame : forall x, (decide (cutoff ≤ time x) && decide (cut (time last) ≤ time x)) =
        decide (cutoff ≤ time x) := by
      intro x
      rw [← Bool.decide_and, decide_eq_decide]
      lia
    unfold fresh
    rw [List.filter_filter, funext hsame, List.filter_cons, List.filter_cons, hrest]

theorem lastSeenOf_of_sorted {call : Call} {past : List Call}
    (h : (call :: past).Pairwise (fun x y => y.ts ≤ x.ts)) :
    lastSeenOf (call :: past) = some call.ts := by
  induction past generalizing call with
  | nil => rfl
  | cons last older ih =>
    have hle := (List.pairwise_cons.mp h).1 last List.mem_cons_self
    have hrest : seenOf _ (last :: older) = _ := ih h.of_cons
    unfold lastSeenOf
    rw [seenOf, hrest, seenAfter]
    split
    · rfl
    · -- the older call is kept only if its time is the same
      rename_i hkept
      rw [decide_eq_true_eq, Int.not_lt] at hkept
      rw [Int.le_antisymm hle hkept]

theorem firstSeenOf_of_sorted {call : Call} {past : List Call}
    (h : (call :: past).Pairwise (fun x y => y.ts ≤ x.ts)) :
    firstSeenOf (call :: past) = some (past.getLast?.getD call).ts := by
  induction past generalizing call with
  | nil => rfl
  | cons last older ih =>
    have hmem : older.getLast?.getD last ∈ last :: older := List.mem_of_getLast? List.getLast?_cons
    have hle := (List.pairwise_cons.mp h).1 _ hmem
    have hrest : seenOf _ (last :: older) = _ := ih h.of_cons
    unfold firstSeenOf
    rw [seenOf, hrest, seenAfter, if_neg (by simpa using hle), List.getLast?_cons]
    rfl

namespace MemoryIdentityStore

def observeAll (store : MemoryIdentityStore) (calls : List (FpKey × Call)) : MemoryIdentityStore :=
  calls.foldl (fun store c => (store.observe c.1 c.2.ip c.2.ua c.2.ts).1) store

def callsOf (key : FpKey) (calls : List (FpKey × Call)) : List Call :=
  (calls.filter (fun c => c.1 = key)).map Prod.snd

theorem callsOf_concat (key : FpKey) (calls : List (FpKey × Call)) (c : FpKey × Call) :
    callsOf key (calls ++ [c]) = callsOf key calls ++ if c.1 = key then [c.2] else [] := by
  unfold callsOf
  rw [List.filter_append, List.map_append, List.filter_singleton]
  split
  · simp [*]
  · simp [*]

def FitsIn (cfg : MemoryConfig) (calls : List (FpKey × Call)) : Prop :=
  (calls.map Prod.fst).toFinset.card ≤ cfg.maxEntries

variable {calls : List (FpKey × Call)}

theorem FitsIn.of_concat {cfg : MemoryConfig} {c : FpKey × Call}
    (h : FitsIn cfg (calls ++ [c])) : FitsIn cfg calls := by
  refine Nat.le_trans (Finset.card_le_card ?_) h
  intro key hkey
  rw [List.map_append, List.toFinset_append]
  exact Finset.mem_union_left _ hkey

def Tracks (store : MemoryIdentityStore) (calls : List (FpKey × Call)) : Prop :=
  forall key, store.map.lookup key = store.entryOf (callsOf key calls).reverse

theorem Tracks.size_eq {store : MemoryIdentityStore}
    (h : store.Tracks calls) : store.map.size = (calls.map Prod.fst).toFinset.card := by
  refine Table.size_eq_card ?_
  intro key
  have hsome : forall past, (store.entryOf past).isSome = true <-> past ≠ [] := by
    intro past
    cases past <;> simp [entryOf]
  rw [h key, hsome, List.mem_toFinset, List.mem_map]
  unfold callsOf
  simp

theorem Tracks.observe {store : MemoryIdentityStore}
    (h : store.Tracks calls) {key : FpKey} {call : Call}
    (hroom : FitsIn store.cfg (calls ++ [(key, call)])) :
    exists map, store.observe key call.ip call.ua call.ts =
        ({ store with map := map }, store.answerOf call (callsOf key calls).reverse) ∧
      Tracks { store with map := map } (calls ++ [(key, call)]) := by
  have hentry := store.observed_entryOf (callsOf key calls).reverse call
  have htracks : Tracks { store with map := store.map.insert key (Entry.observed
      (store.entryOf (callsOf key calls).reverse) call.ip (store.hashUa call.ua) call.ts
      (store.cutoff call.ts)) } (calls ++ [(key, call)]) := by
    intro other
    rw [callsOf_concat, List.reverse_append]
    rcases eq_or_ne key other with rfl | hne
    · rw [if_pos rfl]
      exact Table.lookup_insert_self.trans hentry
    · rw [if_neg hne]
      exact (Table.lookup_insert_of_ne hne.symm).trans (h other)
  refine ⟨_, ?_, htracks⟩
  unfold MemoryIdentityStore.observe
  dsimp only
  rw [h key, if_neg (Nat.not_lt.mpr (htracks.size_eq.trans_le hroom)), Option.some.inj hentry]
  rfl

theorem observeAll_tracks (cfg : MemoryConfig) (hashUa : Text -> UInt64)
    {calls : List (FpKey × Call)} (hroom : FitsIn cfg calls) :
    exists map, observeAll (withConfig cfg hashUa) calls =
        { map := map, cfg := cfg, hashUa := hashUa } ∧
      Tracks { map := map, cfg := cfg, hashUa := hashUa } calls := by
  induction calls using List.reverseRecOn with
  | nil => exact ⟨_, rfl, fun key => Table.lookup_empty key⟩
  | append_singleton calls c ih =>
    obtain ⟨before, hbefore, htracks⟩ := ih hroom.of_concat
    obtain ⟨map, hobserve, hafter⟩ := htracks.observe hroom
    refine ⟨map, ?_, hafter⟩
    rw [observeAll, List.foldl_concat, ← observeAll, hbefore, hobserve]

/-- The calls from the length of the window before the given time up to it. -/
def inWindow (cfg : MemoryConfig) (ts : Int) (calls : List Call) : List Call :=
  calls.filter (fun call => ts - cfg.windowSecs ≤ call.ts ∧ call.ts ≤ ts)

def windowObservation (cfg : MemoryConfig) (past : List Call) (call : Call) : Observation :=
  { distinctIpsInWindow :=
      min ((inWindow cfg call.ts (past ++ [call])).map Call.ip).toFinset.card 65535
    distinctUasInWindow :=
      min ((inWindow cfg call.ts (past ++ [call])).map Call.ua).toFinset.card 65535
    firstSeenUnix := (past.head?.getD call).ts
    lastSeenUnix := call.ts }

structure InOrder (calls : List Call) : Prop where
  sorted : calls.Pairwise (fun a b => a.ts ≤ b.ts)
  range : forall call, call ∈ calls -> InI64 call.ts

theorem InOrder.sublist {calls some : List Call} (h : InOrder calls)
    (hsub : some.Sublist calls) : InOrder some :=
  ⟨h.sorted.sublist hsub, fun call hcall => h.range call (hsub.subset hcall)⟩

section Answer

variable {store : MemoryIdentityStore} {call : Call} {past : List Call}

theorem fresh_of_inOrder (h : InOrder (past ++ [call])) :
    fresh Call.ts store.cutoff (call :: past.reverse) =
      (inWindow store.cfg call.ts (past ++ [call])).reverse := by
  have hle : forall x, x ∈ past ++ [call] -> x.ts ≤ call.ts := by
    intro x hx
    rcases List.mem_append.mp hx with hold | hlast
    · exact (List.pairwise_append.mp h.sorted).2.2 x hold call (List.mem_singleton_self call)
    · rw [List.mem_singleton.mp hlast]
  have hcut : forall x, x ∈ past.reverse -> store.cutoff x.ts ≤ store.cutoff call.ts := by
    intro x hx
    have hx := hle x (List.mem_append_left _ (List.mem_reverse.mp hx))
    unfold cutoff saturatingSub clampI64
    lia
  -- the earlier cutoffs are below the last one, so that only this one matters
  have hfilter : fresh Call.ts store.cutoff (call :: past.reverse) =
      (past ++ [call]).reverse.filter (fun x => store.cutoff call.ts ≤ x.ts) := by
    rw [fresh, List.reverse_concat, List.filter_cons, List.filter_cons, filter_fresh hcut]
  rw [hfilter, List.filter_reverse]
  refine congrArg List.reverse (List.filter_congr ?_)
  intro x hx
  have hx' := hle x hx
  have hrange := h.range x hx
  have hlast := h.range call (List.mem_append_right _ (List.mem_singleton_self call))
  unfold InI64 at hrange hlast
  rw [decide_eq_decide]
  unfold cutoff saturatingSub clampI64
  lia

theorem answerOf_exact (h : InOrder (past ++ [call]))
    (hfree : CollisionFree store.hashUa (past ++ [call])) :
    store.answerOf call past.reverse = windowObservation store.cfg past call := by
  have hreverse : call :: past.reverse = (past ++ [call]).reverse := List.reverse_concat.symm
  have hsorted : (call :: past.reverse).Pairwise (fun x y => y.ts ≤ x.ts) := by
    rw [hreverse]
    exact List.pairwise_reverse.mpr h.sorted
  have horder : Orderly Call.ts store.cutoff (call :: past.reverse) := orderly_of_sorted hsorted
  have hcard : forall {who : Type} [DecidableEq who] (f : Call -> who),
      ((fresh Call.ts store.cutoff (call :: past.reverse)).map f).toFinset.card =
        ((inWindow store.cfg call.ts (past ++ [call])).map f).toFinset.card := by
    intro who _ f
    rw [fresh_of_inOrder h, List.map_reverse, List.toFinset_reverse]
  have huas : ((fresh Call.ts store.cutoff (call :: past.reverse)).map
      (fun call => store.hashUa call.ua)).toFinset.card =
        ((fresh Call.ts store.cutoff (call :: past.reverse)).map Call.ua).toFinset.card := by
    refine card_uas Function.injective_id (hfree.mono ?_) store.cutoff
    rw [hreverse]
    exact List.reverse_subset.mpr (List.Subset.refl _)
  have hfirst := firstSeenOf_of_sorted hsorted
  rw [List.getLast?_reverse] at hfirst
  unfold answerOf windowObservation ipsAfter uasAfter clampU16
  rw [Window.card_after horder, Window.card_after horder, huas, hcard, hcard]
  exact congrArg₂ (Observation.mk _ _) (Option.some.inj hfirst)
    (Option.some.inj (lastSeenOf_of_sorted hsorted))

end Answer

/-- Among any calls that do not decrease in time, one for a fingerprint is answered
with what its window has. -/
theorem observation_exact {cfg : MemoryConfig} {hashUa : Text -> UInt64}
    {calls : List (FpKey × Call)} {key : FpKey} {call : Call}
    (hroom : FitsIn cfg (calls ++ [(key, call)]))
    (horder : InOrder ((calls ++ [(key, call)]).map Prod.snd))
    (hfree : CollisionFree hashUa (callsOf key calls ++ [call])) :
    ((observeAll (withConfig cfg hashUa) calls).observe key call.ip call.ua call.ts).2 =
      windowObservation cfg (callsOf key calls) call := by
  have hless : FitsIn cfg calls := hroom.of_concat
  obtain ⟨before, hbefore, htracks⟩ := observeAll_tracks cfg hashUa hless
  obtain ⟨map, hobserve, -⟩ := htracks.observe hroom
  have hown : InOrder (callsOf key calls ++ [call]) := by
    refine horder.sublist ?_
    rw [List.map_append]
    exact (List.filter_sublist.map Prod.snd).append (List.Sublist.refl _)
  rw [hbefore, hobserve]
  exact answerOf_exact hown hfree

def callFrom (octet : UInt8) (ts : Int) : Call :=
  { nowMs := 0, ip := .v4 (Net.Ipv4Addr.new 10 0 0 octet), ua := [], ts := ts }

def mixedCalls : List (FpKey × Call) :=
  [(RedisIdentityStore.someDevice, callFrom 1 100),
    (RedisIdentityStore.someDevice, callFrom 2 104),
    ({ ja3 := none, ja4 := none, h2Akamai := none }, callFrom 3 108)]

theorem mixedCalls_exact :
    windowObservation smallMemory.cfg [callFrom 1 100, callFrom 2 104] (callFrom 1 112) =
        { distinctIpsInWindow := 2
          distinctUasInWindow := 1
          firstSeenUnix := 100
          lastSeenUnix := 112 } ∧
      ((observeAll (withConfig smallMemory.cfg smallMemory.hashUa) mixedCalls).observe
        RedisIdentityStore.someDevice (callFrom 1 112).ip [] 112).2 =
          windowObservation smallMemory.cfg [callFrom 1 100, callFrom 2 104] (callFrom 1 112) := by
  have hagents : forall call, call ∈ [callFrom 1 100, callFrom 2 104, callFrom 1 112] ->
      call.ua = [] := by decide
  refine ⟨by decide, ?_⟩
  exact @observation_exact smallMemory.cfg smallMemory.hashUa mixedCalls
    RedisIdentityStore.someDevice (callFrom 1 112) (by unfold FitsIn; decide) ⟨by decide, by decide⟩
    (fun a ha b hb _ => (hagents a ha).trans (hagents b hb).symm)

end MemoryIdentityStore

end DeviceFp
end PrxWaf
