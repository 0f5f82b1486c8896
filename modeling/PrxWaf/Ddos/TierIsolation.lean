import PrxWaf.Ddos.ExactMedian
import PrxWaf.Lib.Observation

/-!
# Isolation of tiers

Each tier has a counter of its own, and all tiers record their requests in one
baseline.  The verdicts for a tier depend on the others by the baseline and by
nothing else: a tier is judged alike in two runs unless, at one of its requests, the
traffic of the last minute is heavy against its count in one of them only.
-/

namespace PrxWaf
namespace Ddos

open Lib

structure TierRequest where
  tier : Tier
  cfg : DdosTierCfg
  nowMs : Int
  deriving DecidableEq

namespace PerTierDetector

def verdictsFor (tier : Tier) : PerTierDetector -> MemoryCounterStore ->
    List TierRequest -> List DetectorVerdict
  | _, _, [] => []
  | detector, store, req :: rest =>
    let result := detector.evaluateAt store req.tier req.cfg req.nowMs
    (if req.tier = tier then [result.2.2] else []) ++ verdictsFor tier result.1 result.2.1 rest

def ofTier (tier : Tier) (reqs : List TierRequest) : List TierRequest :=
  reqs.filter (fun req => req.tier = tier)

/-- The requests of a tier from the newest, each with the end of its window. -/
def tierArrivals (tier : Tier) (reqs : List TierRequest) : List Arrival :=
  (ofTier tier reqs).reverse.map (fun req => arrival (windowMs req.cfg) req.nowMs)

/-- The requests of the tier up to this one that followed each other within their
windows. -/
def streakCount (tier : Tier) (before : List TierRequest) (req : TierRequest) : Nat :=
  (streak req.nowMs (tierArrivals tier before)).length + 1

def timesOf (reqs : List TierRequest) : List Int :=
  reqs.map TierRequest.nowMs

/-- Of the sixty seconds that end with the request, those with fewer requests than a
third of the count, of whatever tier. -/
def lightSeconds (count : Nat) (before : List TierRequest) (req : TierRequest) : Nat :=
  (minuteCounts (secondOf req.nowMs) (timesOf before ++ [req.nowMs])).countP
    (fun n => 3 * n < count)

def InOrder (reqs : List TierRequest) : Prop :=
  (timesOf reqs).Pairwise (· ≤ ·) ∧
    forall nowMs, nowMs ∈ timesOf reqs -> 0 ≤ nowMs ∧ nowMs ≤ i64Max

instance (reqs : List TierRequest) : Decidable (InOrder reqs) :=
  inferInstanceAs (Decidable (_ ∧ _))

/-!
## One request

Its count is that of a streak of its own tier.  Its threshold is that of all requests
so far, whatever their tiers.
-/

def after (floor : UInt32) (reqs : List TierRequest) : PerTierDetector :=
  { baseline := MovingMedian.recordAll (timesOf reqs), absoluteCapFloor := floor }

def verdictAt (tier : Tier) (floor : UInt32) (before : List TierRequest) (req : TierRequest) :
    DetectorVerdict :=
  verdictOf (streakCount tier before req) (after floor (before ++ [req])).computeThreshold

variable {tier : Tier} {floor : UInt32} {before before' : List TierRequest} {req : TierRequest}

theorem buildKey_injective {other : Tier} (h : buildKey tier = buildKey other) : tier = other := by
  revert h
  cases tier <;> cases other <;> decide

theorem timesOf_append_singleton (before : List TierRequest) (req : TierRequest) :
    timesOf (before ++ [req]) = timesOf before ++ [req.nowMs] :=
  List.map_append

theorem record_after (floor : UInt32) (before : List TierRequest) (req : TierRequest) :
    (after floor before).record req.nowMs = after floor (before ++ [req]) := by
  unfold record after
  rw [timesOf_append_singleton]
  unfold MovingMedian.recordAll
  rw [List.foldl_append]
  rfl

theorem tierArrivals_append_of_eq (h : req.tier = tier) :
    tierArrivals tier (before ++ [req]) =
      arrival (windowMs req.cfg) req.nowMs :: tierArrivals tier before := by
  unfold tierArrivals ofTier
  rw [List.filter_append, List.filter_cons_of_pos (by simpa using h), List.filter_nil,
    List.reverse_append]
  rfl

theorem tierArrivals_append_of_ne (h : req.tier ≠ tier) :
    tierArrivals tier (before ++ [req]) = tierArrivals tier before := by
  unfold tierArrivals ofTier
  rw [List.filter_append, List.filter_cons_of_neg (by simpa using h), List.filter_nil,
    List.append_nil]

theorem verdictsFor_eq_observe {store : MemoryCounterStore}
    (hstore : store.map.lookup (buildKey tier) = entryOf (tierArrivals tier before))
    (reqs : List TierRequest) :
    verdictsFor tier (after floor before) store reqs =
      observe (fun req => req.tier = tier) (verdictAt tier floor) before reqs := by
  induction reqs generalizing before store with
  | nil => rfl
  | cons req rest ih =>
    rw [verdictsFor]
    unfold evaluateAt
    dsimp only
    rw [record_after]
    rcases Decidable.em (req.tier = tier) with htier | htier
    · have hnext := incrGet_entryOf hstore (windowMs req.cfg) req.nowMs
      rw [← tierArrivals_append_of_eq htier] at hnext
      rw [observe_cons_of_pos (by simpa using htier), if_pos htier, htier, ih hnext,
        incrGet_count hstore]
      rfl
    · have hkey : buildKey tier ≠ buildKey req.tier := fun h => htier (buildKey_injective h).symm
      have hnext := incrGet_map_of_ne store hkey (windowMs req.cfg) req.nowMs
      rw [hstore, ← tierArrivals_append_of_ne htier] at hnext
      rw [observe_cons_of_neg (by simpa using htier), if_neg htier, ih hnext]
      rfl

/-! The threshold is below a count if the floor is and most seconds were light. -/

theorem computeThreshold_after_lt_iff (horder : InOrder (before ++ [req])) (count : Nat) :
    (after floor (before ++ [req])).computeThreshold < count <->
      floor.toNat < count ∧ 31 ≤ lightSeconds count before req := by
  unfold InOrder at horder
  rw [timesOf_append_singleton] at horder
  have hmedian := ((MovingMedian.median_exact horder.1 horder.2).1 _).mp rfl
  have hlight := hmedian.downward_iff (p := fun n => 3 * n < count) (by
    intro x y hle hy
    rw [decide_eq_true_eq] at hy ⊢
    lia)
  rw [decide_eq_true_eq] at hlight
  unfold computeThreshold after
  rw [timesOf_append_singleton, Nat.max_lt, hlight]
  rfl

theorem verdictOf_eq_iff (count a b : Nat) :
    verdictOf count a = verdictOf count b <-> (a < count <-> b < count) := by
  unfold verdictOf
  rcases Decidable.em (a < count) with ha | ha
  · rw [if_pos ha]
    split <;> simp [*]
  · rw [if_neg ha]
    split <;> simp [*]

theorem streakCount_congr (h : ofTier tier before = ofTier tier before') (req : TierRequest) :
    streakCount tier before req = streakCount tier before' req := by
  unfold streakCount tierArrivals
  rw [h]

theorem verdictAt_eq_iff (h : ofTier tier before = ofTier tier before')
    (horder : InOrder (before ++ [req])) (horder' : InOrder (before' ++ [req])) :
    verdictAt tier floor before req = verdictAt tier floor before' req <->
      (floor.toNat < streakCount tier before req ->
        (31 ≤ lightSeconds (streakCount tier before req) before req <->
          31 ≤ lightSeconds (streakCount tier before req) before' req)) := by
  unfold verdictAt
  rw [← streakCount_congr h req, verdictOf_eq_iff, computeThreshold_after_lt_iff horder,
    computeThreshold_after_lt_iff horder', and_congr_right_iff]

theorem InOrder.until {reqs rest : List TierRequest} (h : InOrder reqs)
    (hsplit : reqs = before ++ req :: rest) : InOrder (before ++ [req]) := by
  have hfront : (timesOf (before ++ [req])).Sublist (timesOf reqs) := by
    rw [hsplit, show req :: rest = [req] ++ rest from rfl, ← List.append_assoc]
    exact (List.sublist_append_left _ _).map _
  exact ⟨h.1.sublist hfront, fun nowMs hmem => h.2 nowMs (hfront.subset hmem)⟩

/-- Two runs on fresh detectors with the same requests of a tier give it the same
verdicts exactly if, at each of them that is beyond the floor, either both or neither
of the runs had 31 of the last sixty seconds below a third of its count. -/
theorem verdictsFor_eq_iff (tier : Tier) (floor : UInt32) (maxKeys : Nat)
    {left right : List TierRequest} (hleft : InOrder left) (hright : InOrder right)
    (h : ofTier tier left = ofTier tier right) :
    verdictsFor tier (new floor) (MemoryCounterStore.new maxKeys) left =
        verdictsFor tier (new floor) (MemoryCounterStore.new maxKeys) right <->
      forall before req rest before' rest', left = before ++ req :: rest ->
        right = before' ++ req :: rest' -> req.tier = tier ->
        ofTier tier before = ofTier tier before' ->
        floor.toNat < streakCount tier before req ->
        (31 ≤ lightSeconds (streakCount tier before req) before req <->
          31 ≤ lightSeconds (streakCount tier before req) before' req) := by
  have hfresh : (MemoryCounterStore.new maxKeys).map.lookup (buildKey tier) =
      entryOf (tierArrivals tier []) := Table.lookup_empty _
  have hobserve (reqs : List TierRequest) :
      verdictsFor tier (new floor) (MemoryCounterStore.new maxKeys) reqs =
        observe (fun req => req.tier = tier) (verdictAt tier floor) [] reqs :=
    verdictsFor_eq_observe hfresh reqs
  rw [hobserve, hobserve, observe_eq_iff h]
  constructor
  · intro hsame before req rest before' rest' hl hr htier hbefore
    exact (verdictAt_eq_iff hbefore (hleft.until hl) (hright.until hr)).mp
      (hsame before req rest before' rest' hl hr (decide_eq_true htier) hbefore)
  · intro hsame before req rest before' rest' hl hr htier hbefore
    exact (verdictAt_eq_iff hbefore (hleft.until hl) (hright.until hr)).mpr
      (hsame before req rest before' rest' hl hr (of_decide_eq_true htier) hbefore)

theorem streakCount_le (tier : Tier) (before : List TierRequest) (req : TierRequest) :
    streakCount tier before req ≤ (ofTier tier before).length + 1 := by
  have hle := (streak_isPrefix req.nowMs (tierArrivals tier before)).length_le
  unfold tierArrivals at hle
  rw [List.length_map, List.length_reverse] at hle
  exact Nat.succ_le_succ hle

def request (tier : Tier) (nowMs : Int) : TierRequest :=
  { tier := tier, cfg := minuteCfg 1000, nowMs := nowMs }

def loginsAfter (others : List TierRequest) : List TierRequest :=
  others ++ [request .critical 31000, request .critical 31500]

def pageViews (seconds : Nat) : List TierRequest :=
  (List.range seconds).map (fun second => request .catchAll (1000 * second))

theorem logins_allowed_after_pageViews :
    ofTier .critical (loginsAfter (pageViews 31)) = ofTier .critical (loginsAfter []) ∧
      verdictsFor .critical (new 2) (MemoryCounterStore.new 1000) (loginsAfter (pageViews 31)) =
        verdictsFor .critical (new 2) (MemoryCounterStore.new 1000) (loginsAfter []) := by
  have hsame : ofTier .critical (loginsAfter (pageViews 31)) =
      ofTier .critical (loginsAfter []) := by decide
  refine ⟨hsame, (verdictsFor_eq_iff .critical 2 1000 (by decide) (by decide) hsame).mpr ?_⟩
  intro before req rest before' rest' hl _ htier _ hbeyond
  -- There are two logins, so that no count is beyond the floor.
  have hcount := streakCount_le .critical before req
  have hlength := congrArg (fun reqs => (ofTier .critical reqs).length) hl
  have hlogins : (ofTier .critical (loginsAfter (pageViews 31))).length = 2 := by decide
  unfold ofTier at hlength hcount hlogins
  rw [List.filter_append, List.filter_cons_of_pos (by simpa using htier), List.length_append,
    List.length_cons, hlogins] at hlength
  have hfloor : (2 : UInt32).toNat = 2 := rfl
  lia

/-- With a floor of one, the second login is a burst when there is no other
traffic, and is allowed when there is. -/
theorem login_verdict_leaks_pageViews :
    (loginsAfter (pageViews 31)).Pairwise (fun a b => a.nowMs ≤ b.nowMs) ∧
      ofTier .critical (loginsAfter (pageViews 31)) = ofTier .critical (loginsAfter []) ∧
      verdictsFor .critical (new 1) (MemoryCounterStore.new 1000)
          (loginsAfter (pageViews 31)) = [.allow, .allow] ∧
      verdictsFor .critical (new 1) (MemoryCounterStore.new 1000) (loginsAfter []) =
        [.allow, .hardBurst "tier_burst".toList "per_tier".toList] := by
  decide +kernel

end PerTierDetector
end Ddos
end PrxWaf
