import PrxWaf.Common.Tier
import PrxWaf.Ddos.Counter
import PrxWaf.Lib.Run

/-!
# Burst detectors

Two detectors count the requests of a fingerprint and of a tier.  Each compares
the count with a threshold; that of a tier follows the median of the requests
per second.
-/

namespace PrxWaf
namespace Ddos

open Lib

structure DdosTierCfg where
  perFpThreshold : UInt32
  perFpWindowS : UInt32
  perTierThreshold : UInt32
  perTierWindowS : UInt32
  deriving DecidableEq

inductive DetectorVerdict where
  | allow
  | softAnomaly (score : UInt8)
  | hardBurst (reason detector : Text)
  deriving DecidableEq

def DetectorVerdict.isHardBurst : DetectorVerdict -> Bool
  | .hardBurst _ _ => true
  | _ => false

def tierStr : Tier -> Text
  | .critical => "critical".toList
  | .high => "high".toList
  | .medium => "medium".toList
  | .catchAll => "catch_all".toList

/-- Requests per second in the last sixty seconds, by the second modulo sixty. -/
structure MovingMedian where
  buckets : Fin 60 -> Nat
  lastEpochS : Int

namespace MovingMedian

def new : MovingMedian :=
  { buckets := fun _ => 0, lastEpochS := -1 }

def bucketOf (epochS : Int) : Fin 60 :=
  ⟨(epochS % 60).toNat, by lia⟩

/-- Clear the buckets of the seconds after `prevS`. -/
def clearStaleBuckets (median : MovingMedian) (prevS nowS : Int) : MovingMedian :=
  let advance := saturatingSub nowS prevS
  if 60 ≤ advance then { median with buckets := fun _ => 0 }
  else if 0 ≤ prevS then
    { median with
      buckets := fun i =>
        if (List.range advance.toNat).any (fun offset =>
          bucketOf (prevS + (offset + 1)) = i) then 0
        else median.buckets i }
  else median

/-- The baseline when a request comes, before it is counted. -/
def advanceTo (median : MovingMedian) (epochS : Int) : MovingMedian :=
  if median.lastEpochS < epochS then
    { median.clearStaleBuckets median.lastEpochS epochS with
      lastEpochS := epochS }
  else median

def record (median : MovingMedian) (nowMs : Int) : MovingMedian :=
  let epochS := nowMs.tdiv 1000
  let median := median.advanceTo epochS
  { median with
    buckets := fun i =>
      if i = bucketOf epochS then median.buckets i + 1 else median.buckets i }

def median (median : MovingMedian) : Nat :=
  (((List.ofFn median.buckets).insertionSort (· ≤ ·))[30]?).getD 0

def total (median : MovingMedian) : Nat :=
  (List.ofFn median.buckets).sum

end MovingMedian

/-! ## The detectors -/

namespace PerFpDetector

def buildKey (tier : Tier) (fpHash : Text) : Text :=
  "ddos:fp:".toList ++ tierStr tier ++ ':' :: fpHash

def windowMs (cfg : DdosTierCfg) : Int :=
  cfg.perFpWindowS.toNat * 1000

/-- A request without a fingerprint is not counted. -/
def evaluateWithFp (store : MemoryCounterStore) (fpHash : Option Text)
    (tier : Tier) (cfg : DdosTierCfg) (nowMs : Int) :
    MemoryCounterStore × DetectorVerdict :=
  match fpHash.filter (fun fp => !fp.isEmpty) with
  | none => (store, .allow)
  | some fp =>
    let result := store.incrGet (buildKey tier fp) (windowMs cfg) nowMs
    (result.1,
      if cfg.perFpThreshold.toNat < result.2 then
        .hardBurst "fp_burst".toList "per_fp".toList
      else .allow)

end PerFpDetector

structure PerTierDetector where
  baseline : MovingMedian
  absoluteCapFloor : UInt32

namespace PerTierDetector

def new (absoluteCapFloor : UInt32) : PerTierDetector :=
  { baseline := MovingMedian.new, absoluteCapFloor := absoluteCapFloor }

def buildKey (tier : Tier) : Text :=
  "ddos:tier:".toList ++ tierStr tier

def windowMs (cfg : DdosTierCfg) : Int :=
  cfg.perTierWindowS.toNat * 1000

def computeThreshold (detector : PerTierDetector) : Nat :=
  max detector.absoluteCapFloor.toNat (3 * detector.baseline.median)

def record (detector : PerTierDetector) (nowMs : Int) : PerTierDetector :=
  { detector with baseline := detector.baseline.record nowMs }

def verdictOf (count threshold : Nat) : DetectorVerdict :=
  if threshold < count then
    .hardBurst "tier_burst".toList "per_tier".toList
  else .allow

def evaluateAt (detector : PerTierDetector) (store : MemoryCounterStore)
    (tier : Tier) (cfg : DdosTierCfg) (nowMs : Int) :
    PerTierDetector × MemoryCounterStore × DetectorVerdict :=
  let result := store.incrGet (buildKey tier) (windowMs cfg) nowMs
  let detector := detector.record nowMs
  (detector, result.1, verdictOf result.2 detector.computeThreshold)

/-- The evaluation over the store in Redis.  When the store fails, the request is
allowed and not recorded. -/
def evaluateAtRedis (detector : PerTierDetector) (store : RedisCounterStore)
    (server : RedisServer) (tier : Tier) (cfg : DdosTierCfg) (nowMs : Int) :
    PerTierDetector × RedisServer × DetectorVerdict :=
  match store.incrGet server (buildKey tier) (windowMs cfg) nowMs with
  | (server, none) => (detector, server, .allow)
  | (server, some count) =>
    let detector := detector.record nowMs
    (detector, server, verdictOf count detector.computeThreshold)

end PerTierDetector

/-- A request that was counted, with what it was compared with. -/
structure Evaluated where
  key : Text
  atMs : Int
  windowMs : Int
  threshold : Nat
  verdict : DetectorVerdict
  deriving DecidableEq

/-- The detectors over one store, and what they counted so far, from the newest
request. -/
structure Detectors where
  store : MemoryCounterStore
  perTier : PerTierDetector
  clockMs : Int
  log : List Evaluated

inductive Event where
  | perFp (fpHash : Option Text) (tier : Tier) (cfg : DdosTierCfg) (nowMs : Int)
  | perTier (tier : Tier) (cfg : DdosTierCfg) (nowMs : Int)
  | gc (nowMs : Int)

def Event.nowMs : Event -> Int
  | .perFp _ _ _ nowMs => nowMs
  | .perTier _ _ nowMs => nowMs
  | .gc nowMs => nowMs

namespace Detectors

def start (maxKeys : Nat) (absoluteCapFloor : UInt32) (clockMs : Int) : Detectors :=
  { store := MemoryCounterStore.new maxKeys
    perTier := PerTierDetector.new absoluteCapFloor
    clockMs := clockMs
    log := [] }

def counted (s : Detectors) : Event -> Option (Text × Int × Nat)
  | .perFp fpHash tier cfg _ =>
    (fpHash.filter (fun fp => !fp.isEmpty)).map (fun fp =>
      (PerFpDetector.buildKey tier fp, PerFpDetector.windowMs cfg, cfg.perFpThreshold.toNat))
  | .perTier tier cfg nowMs =>
    some (PerTierDetector.buildKey tier, PerTierDetector.windowMs cfg,
      (s.perTier.record nowMs).computeThreshold)
  | .gc _ => none

def logged (s : Detectors) (event : Event) (verdict : DetectorVerdict) : List Evaluated :=
  match s.counted event with
  | none => s.log
  | some (key, windowMs, threshold) =>
    { key := key
      atMs := event.nowMs
      windowMs := windowMs
      threshold := threshold
      verdict := verdict } :: s.log

def run (s : Detectors) (event : Event) : Detectors :=
  match event with
  | .perFp fpHash tier cfg nowMs =>
    let result := PerFpDetector.evaluateWithFp s.store fpHash tier cfg nowMs
    { s with
      store := result.1
      clockMs := nowMs
      log := s.logged event result.2 }
  | .perTier tier cfg nowMs =>
    let result := s.perTier.evaluateAt s.store tier cfg nowMs
    { store := result.2.1
      perTier := result.1
      clockMs := nowMs
      log := s.logged event result.2.2 }
  | .gc nowMs => { s with store := s.store.gc nowMs, clockMs := nowMs }

def step (s : Detectors) (event : Event) : Option Detectors :=
  if s.clockMs ≤ event.nowMs then some (s.run event) else none

end Detectors

def since (key : Text) (fromMs : Int) (log : List Evaluated) : Nat :=
  log.countP (fun e => e.key = key ∧ fromMs ≤ e.atMs)

/-- A burst has more requests than the threshold in the last two windows, and no
request is a burst whose last window stays within the threshold. -/
def Evaluated.Sound (e : Evaluated) (older : List Evaluated) : Prop :=
  (e.verdict.isHardBurst = true ->
    e.threshold < since e.key (e.atMs - 2 * e.windowMs) (e :: older)) ∧
  (since e.key (e.atMs - e.windowMs) (e :: older) ≤ e.threshold -> e.verdict.isHardBurst = false)

def SoundLog : List Evaluated -> Prop
  | [] => True
  | e :: older => e.Sound older ∧ SoundLog older

instance SoundLog.decidable : forall log, Decidable (SoundLog log)
  | [] => isTrue trivial
  | _ :: older =>
    have := SoundLog.decidable older
    inferInstanceAs (Decidable ((_ ∧ _) ∧ _))

def arrivals (key : Text) (log : List Evaluated) : List Arrival :=
  (log.filter (fun e => e.key = key)).map (fun e => arrival e.windowMs e.atMs)

/-- The streak that a request continues began within its window. -/
def Detectors.Confined (s : Detectors) (event : Event) : Prop :=
  match s.counted event with
  | none => True
  | some (key, windowMs, _) =>
    forall a, a ∈ streak event.nowMs (arrivals key s.log) -> event.nowMs - windowMs ≤ a.atMs

instance (s : Detectors) (event : Event) : Decidable (s.Confined event) :=
  match hcounted : s.counted event with
  | none => isTrue (by unfold Detectors.Confined; rw [hcounted]; trivial)
  | some (key, windowMs, _) =>
    decidable_of_iff
      (forall a, a ∈ streak event.nowMs (arrivals key s.log) -> event.nowMs - windowMs ≤ a.atMs)
      (by unfold Detectors.Confined; rw [hcounted])

section Step

variable {s : Detectors} {event : Event} {key : Text} {windowMs : Int}
  {threshold : Nat}

theorem run_of_counted
    (h : s.counted event = some (key, windowMs, threshold)) :
    (s.run event).store = (s.store.incrGet key windowMs event.nowMs).1 ∧
      exists verdict,
        (s.run event).log =
          { key := key
            atMs := event.nowMs
            windowMs := windowMs
            threshold := threshold
            verdict := verdict } :: s.log ∧
        (verdict.isHardBurst = true ->
          threshold < (s.store.incrGet key windowMs event.nowMs).2) := by
  have hlog : forall verdict, s.logged event verdict =
      { key := key
        atMs := event.nowMs
        windowMs := windowMs
        threshold := threshold
        verdict := verdict } :: s.log := by
    intro verdict
    unfold Detectors.logged
    rw [h]
  cases event with
  | perFp fpHash tier cfg nowMs =>
    rcases Option.map_eq_some_iff.mp h with ⟨fp, hfp, heq⟩
    cases heq
    unfold Detectors.run PerFpDetector.evaluateWithFp
    dsimp only
    rw [hfp]
    refine ⟨rfl, _, hlog _, ?_⟩
    intro hburst
    dsimp only at hburst
    split at hburst
    · assumption
    · cases hburst
  | perTier tier cfg nowMs =>
    cases h
    refine ⟨rfl, _, hlog _, ?_⟩
    intro hburst
    unfold PerTierDetector.evaluateAt PerTierDetector.verdictOf at hburst
    dsimp only at hburst
    split at hburst
    · assumption
    · cases hburst
  | gc nowMs => cases h

theorem run_of_not_counted (h : s.counted event = none) :
    (s.run event).log = s.log ∧ forall k entry, (s.run event).store.map.lookup k = some entry ->
        s.store.map.lookup k = some entry := by
  have hlog : forall verdict, s.logged event verdict = s.log := by
    intro verdict
    unfold Detectors.logged
    rw [h]
  cases event with
  | perFp fpHash tier cfg nowMs =>
    have hfp := Option.map_eq_none_iff.mp h
    unfold Detectors.run PerFpDetector.evaluateWithFp
    dsimp only
    rw [hfp]
    exact ⟨hlog _, fun _ _ hentry => hentry⟩
  | perTier tier cfg nowMs => cases h
  | gc nowMs =>
    exact ⟨rfl, fun _ _ hentry =>
      Table.lookup_of_retain (Table.lookup_of_cutTo hentry)⟩

end Step

/-! A counter never shows more than the streak of its key. -/

def Tracked (s : Detectors) : Prop :=
  forall key entry, s.store.map.lookup key = some entry ->
    exists shown, entryOf (arrivals key s.log) = some shown ∧
      entry.expiresMs = shown.expiresMs ∧ entry.count ≤ shown.count

variable {e : Evaluated} {key : Text} {s : Detectors}

theorem arrivals_cons_of_eq (hkey : key = e.key) (log : List Evaluated) :
    arrivals key (e :: log) = arrival e.windowMs e.atMs :: arrivals key log := by
  unfold arrivals
  rw [List.filter_cons_of_pos (by simpa using hkey.symm), List.map_cons]

theorem arrivals_cons_of_ne (hne : key ≠ e.key)
    (log : List Evaluated) : arrivals key (e :: log) = arrivals key log := by
  unfold arrivals
  rw [List.filter_cons_of_neg (by simpa using hne.symm)]

theorem incrGet_le_streak (h : Tracked s) (key : Text) (windowMs nowMs : Int) :
    (s.store.incrGet key windowMs nowMs).2 ≤ (streak nowMs (arrivals key s.log)).length + 1 := by
  unfold MemoryCounterStore.incrGet
  dsimp only
  cases hentry : s.store.map.lookup key with
  | none => exact Nat.le_add_left 1 _
  | some entry =>
    dsimp only
    split
    · rename_i hlive
      rcases h key entry hentry with ⟨shown, hshown, hexpires, hcount⟩
      cases harrivals : arrivals key s.log with
      | nil =>
        rw [harrivals] at hshown
        cases hshown
      | cons last older =>
        rw [harrivals] at hshown
        cases hshown
        rw [hexpires] at hlive
        rw [streak_cons_of_lt hlive]
        exact Nat.add_le_add_right hcount 1
    · exact Nat.le_add_left 1 _

theorem tracked_run (h : Tracked s) (event : Event) :
    Tracked (s.run event) := by
  intro k entry hentry
  cases hcounted : s.counted event with
  | none =>
    rcases run_of_not_counted hcounted with ⟨hlog, hkept⟩
    rw [hlog]
    exact h k entry (hkept k entry hentry)
  | some found =>
    rcases found with ⟨key, windowMs, threshold⟩
    rcases run_of_counted hcounted with ⟨hstore, verdict, hlog, _⟩
    rw [hstore] at hentry
    rw [hlog]
    rcases eq_or_ne k key with hkey | hkey
    · rw [hkey, incrGet_map] at hentry
      cases hentry
      rw [arrivals_cons_of_eq hkey, hkey]
      exact ⟨_, rfl, rfl, incrGet_le_streak h key windowMs event.nowMs⟩
    · rw [arrivals_cons_of_ne hkey]
      exact h k entry ((Table.lookup_insert_of_ne hkey).symm.trans hentry)

theorem streak_length_le_since {nowMs fromMs : Int} {log : List Evaluated}
    (h : forall a, a ∈ streak nowMs (arrivals key log) -> fromMs ≤ a.atMs) :
    (streak nowMs (arrivals key log)).length ≤ since key fromMs log := by
  have hcount : (streak nowMs (arrivals key log)).length =
      (streak nowMs (arrivals key log)).countP (fun a => fromMs ≤ a.atMs) := by
    rw [List.countP_eq_length.mpr]
    intro a ha
    exact decide_eq_true (h a ha)
  rw [hcount]
  refine ((streak_isPrefix nowMs _).sublist.countP_le).trans ?_
  unfold arrivals since
  rw [List.countP_map, List.countP_filter]
  refine Nat.le_of_eq (List.countP_congr ?_)
  intro e _
  simp [arrival, and_comm]

theorem since_mono (key : Text) {fromMs laterMs : Int} (h : fromMs ≤ laterMs)
    (log : List Evaluated) : since key laterMs log ≤ since key fromMs log := by
  refine List.countP_mono_left ?_
  intro e _ he
  simp only [decide_eq_true_eq] at he ⊢
  exact ⟨he.1, le_trans h he.2⟩

theorem since_cons_of_eq {fromMs : Int}
    (hkey : key = e.key) (h : fromMs ≤ e.atMs) (log : List Evaluated) :
    since key fromMs (e :: log) = since key fromMs log + 1 := by
  unfold since
  rw [List.countP_cons_of_pos (by simpa [hkey] using h)]

theorem windowMs_nonneg {event : Event} {windowMs : Int} {threshold : Nat}
    (h : s.counted event = some (key, windowMs, threshold)) : 0 ≤ windowMs := by
  cases event with
  | perFp fpHash tier cfg nowMs =>
    rcases Option.map_eq_some_iff.mp h with ⟨fp, _, heq⟩
    cases heq
    unfold PerFpDetector.windowMs
    lia
  | perTier tier cfg nowMs =>
    cases h
    unfold PerTierDetector.windowMs
    lia
  | gc nowMs => cases h

theorem soundLog_run {event : Event} (htracked : Tracked s)
    (hsound : SoundLog s.log) (hconfined : s.Confined event) :
    SoundLog (s.run event).log := by
  unfold Detectors.Confined at hconfined
  cases hcounted : s.counted event with
  | none =>
    rw [(run_of_not_counted hcounted).1]
    exact hsound
  | some found =>
    rcases found with ⟨key, windowMs, threshold⟩
    rcases run_of_counted hcounted with ⟨_, verdict, hlog, hburst⟩
    rw [hcounted] at hconfined
    have hwindow := windowMs_nonneg hcounted
    have hcount := incrGet_le_streak htracked key windowMs event.nowMs
    have hstreak := streak_length_le_since hconfined
    have hmono := since_mono key
      (show event.nowMs - 2 * windowMs ≤ event.nowMs - windowMs by lia) s.log
    rw [hlog]
    refine ⟨⟨fun h => ?_, fun h => ?_⟩, hsound⟩
    · have hexceeds := hburst h
      rw [since_cons_of_eq rfl (by dsimp only; lia)]
      dsimp only
      lia
    · rw [since_cons_of_eq rfl (by dsimp only; lia)] at h
      dsimp only at h ⊢
      refine Bool.eq_false_iff.mpr (fun h' => ?_)
      have hexceeds := hburst h'
      lia

/-- In a run whose streaks all began within a window, every burst has more
requests than the threshold in the last two windows, and traffic that stays
within the threshold in every window is never a burst. -/
theorem verdicts_sound {maxKeys : Nat} {floor : UInt32} {clockMs : Int}
    {events : List Event} {t : Detectors} (hmeet : StepsMeet Detectors.step Detectors.Confined
      (Detectors.start maxKeys floor clockMs) events)
    (hrun : runFrom Detectors.step (Detectors.start maxKeys floor clockMs) events = some t) :
    SoundLog t.log := by
  have hstart : Tracked (Detectors.start maxKeys floor clockMs) ∧
      SoundLog (Detectors.start maxKeys floor clockMs).log := by
    refine ⟨fun key entry hentry => ?_, trivial⟩
    rw [show (Detectors.start maxKeys floor clockMs).store.map.lookup key =
      none from Table.lookup_empty key] at hentry
    cases hentry
  have hpreserve : forall {s event s'}, Tracked s ∧ SoundLog s.log -> s.Confined event ->
        s.step event = some s' -> Tracked s' ∧ SoundLog s'.log := by
    intro s event s' hs hconfined hstep
    unfold Detectors.step at hstep
    split at hstep
    · cases hstep
      exact ⟨tracked_run hs.1 event, soundLog_run hs.1 hs.2 hconfined⟩
    · cases hstep
  exact (runFrom_invariant hpreserve hstart hmeet hrun).2

def minuteCfg (threshold : UInt32) : DdosTierCfg :=
  { perFpThreshold := threshold
    perFpWindowS := 60
    perTierThreshold := 1000
    perTierWindowS := 60 }

def sameFp (threshold : UInt32) (times : List Int) : List Event :=
  times.map (fun nowMs =>
    .perFp (some "ja4".toList) .catchAll (minuteCfg threshold) nowMs)

def quietStart : Detectors :=
  Detectors.start 1000 1000 0

theorem burst_sound :
    exists t, runFrom Detectors.step quietStart (sameFp 2 [0, 1000, 2000, 70000]) = some t ∧
      t.log.map (fun e => e.verdict.isHardBurst) = [false, true, false, false] ∧ SoundLog t.log :=
  ⟨_, rfl, by decide, verdicts_sound
    (by decide : StepsMeet Detectors.step Detectors.Confined quietStart
      (sameFp 2 [0, 1000, 2000, 70000])) rfl⟩

def sameTier (times : List Int) : List Event :=
  times.map (fun nowMs => .perTier .catchAll (minuteCfg 1000) nowMs)

/-- One request every 59 seconds, with a threshold of three in sixty: the fourth
is a burst, with three requests in the last two minutes and two in the last
one.  Both detectors count so. -/
theorem steady_traffic_unsound :
    (exists t, runFrom Detectors.step quietStart (sameFp 3 [0, 59000, 118000, 177000]) = some t ∧
      t.log.map (fun e => e.verdict.isHardBurst) = [true, false, false, false] ∧
      t.log.head?.map (fun e =>
        (since e.key (e.atMs - 2 * e.windowMs) t.log,
          since e.key (e.atMs - e.windowMs) t.log)) = some (3, 2) ∧ ¬ SoundLog t.log) ∧
    (exists t, runFrom Detectors.step (Detectors.start 1000 3 0)
        (sameTier [0, 59000, 118000, 177000]) = some t ∧
      t.log.map (fun e => (e.threshold, e.verdict.isHardBurst)) =
        [(3, true), (3, false), (3, false), (3, false)] ∧
      t.log.head?.map (fun e =>
        (since e.key (e.atMs - 2 * e.windowMs) t.log,
          since e.key (e.atMs - e.windowMs) t.log)) = some (3, 2) ∧ ¬ SoundLog t.log) :=
  ⟨⟨_, rfl, by decide, by decide, by decide⟩,
    ⟨_, rfl, by decide +kernel, by decide +kernel, by decide +kernel⟩⟩

end Ddos
end PrxWaf
