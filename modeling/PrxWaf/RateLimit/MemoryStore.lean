import PrxWaf.Lib.Run
import PrxWaf.Lib.Table
import PrxWaf.RateLimit.Config

/-!
# The rate-limit store in memory

The store keeps one entry for each key.  A background task removes entries that
have been idle, and the oldest ones when there are too many.  The bounds on the
grants of a key are followed through whole runs of calls and cleanups.
-/

namespace PrxWaf
namespace RateLimit

open Lib

abbrev MemoryStore : Type :=
  Table Text Entry

def maxEntries : Nat := 100000

def entryTtlMs : Int := 600000

namespace MemoryStore

def empty : MemoryStore :=
  Table.empty

/-- Remove the idle entries, then those touched longest ago above the maximum. -/
def cleanup (nowMs : Int) (map : MemoryStore) : MemoryStore :=
  (map.retain (fun entry => nowMs - entry.lastTouchMs < entryTtlMs)).cutTo
    maxEntries Entry.lastTouchMs

def checkAndConsume (key : Text) (cfg : LimitCfg) (nowMs : Int)
    (map : MemoryStore) : MemoryStore × Decision :=
  let entry := (map.lookup key).getD (Entry.fresh cfg nowMs)
  let result := entry.consume cfg nowMs
  (map.insert key result.1, result.2)

theorem lookup_cleanup (nowMs : Int) (key : Text) (map : MemoryStore) :
    (map.cleanup nowMs).lookup key = map.lookup key ∨ (map.cleanup nowMs).lookup key = none := by
  cases hkept : (map.cleanup nowMs).lookup key with
  | none => exact Or.inr rfl
  | some entry =>
    exact Or.inl (Table.lookup_of_retain (Table.lookup_of_cutTo hkept)).symm

theorem idle_of_lookup_cleanup {nowMs : Int} {key : Text} {map : MemoryStore}
    {entry : Entry} (hfew : map.size ≤ maxEntries)
    (hentry : map.lookup key = some entry) (hgone : (map.cleanup nowMs).lookup key = none) :
    entryTtlMs ≤ nowMs - entry.lastTouchMs := by
  unfold cleanup at hgone
  rw [Table.cutTo_of_size_le ((Table.size_retain_le _ _).trans hfew), Table.lookup_retain, hentry,
    Option.filter_some] at hgone
  split at hgone
  · cases hgone
  · rename_i hidle
    simpa using hidle

theorem lookup_checkAndConsume_self (key : Text) (cfg : LimitCfg) (nowMs : Int)
    (map : MemoryStore) :
    (map.checkAndConsume key cfg nowMs).1.lookup key =
      some (((map.lookup key).getD (Entry.fresh cfg nowMs)).consume cfg nowMs).1 :=
  Table.lookup_insert_self

theorem lookup_checkAndConsume_of_ne {key other : Text} (hother : other ≠ key)
    (cfg : LimitCfg) (nowMs : Int) (map : MemoryStore) :
    (map.checkAndConsume key cfg nowMs).1.lookup other = map.lookup other :=
  Table.lookup_insert_of_ne hother

end MemoryStore

inductive Event where
  | call (key : Text) (cfg : LimitCfg) (nowMs : Int)
  | cleanup (nowMs : Int)

/-- A store with the grants of one key.  The entry of that key that a cleanup
removed last and the latest time of a cleanup are remembered beside it. -/
structure RunState where
  store : MemoryStore
  clockMs : Int
  cleanedMs : Int
  lost : Option Entry
  allowed : List Int

namespace RunState

def start (clockMs : Int) : RunState :=
  { store := MemoryStore.empty
    clockMs := clockMs
    cleanedMs := clockMs
    lost := none
    allowed := [] }

/-- The entry of the key, or the one it had before a cleanup removed it. -/
def lastEntry (key : Text) (s : RunState) : Option Entry :=
  (s.store.lookup key).or s.lost

end RunState

section Run

variable (key : Text) (cfg : LimitCfg)

/-- Calls are in the order of their times, and those of the key have its
limit. -/
def step (s : RunState) : Event -> Option RunState
  | .call called calledCfg nowMs =>
    if s.clockMs ≤ nowMs ∧ (called = key -> calledCfg = cfg) then
      let result := s.store.checkAndConsume called calledCfg nowMs
      some { s with
        store := result.1
        clockMs := nowMs
        allowed :=
          if called = key then logged nowMs result.2 s.allowed
          else s.allowed }
    else none
  | .cleanup nowMs =>
    let store := s.store.cleanup nowMs
    some { s with
      store := store
      cleanedMs := max s.cleanedMs nowMs
      lost :=
        if store.lookup key = none then s.lastEntry key else s.lost }

/-- A removed entry that would be full again, with nothing in the present
window. -/
def Regained (entry : Entry) (nowMs : Int) : Prop :=
  cfg.capacity ≤ entry.tb.tokens +
      cfg.refillPerMs * (msClock nowMs - msClock entry.tb.lastCheckMs) ∧
    (entry.sw.currCount = 0 ∨ entry.sw.currWindowStartMs < alignFloor nowMs cfg.winMs)

/-- A call of the key that finds no entry comes when the removed one is
regained. -/
def EvictionRegained (s : RunState) : Event -> Prop
  | .call called _ nowMs =>
    called = key -> s.store.lookup key = none ->
      forall entry, entry ∈ s.lost -> Regained cfg entry nowMs
  | .cleanup _ => True

instance (entry : Entry) (nowMs : Int) : Decidable (Regained cfg entry nowMs) :=
  inferInstanceAs (Decidable (_ ∧ _))

instance (s : RunState) (event : Event) : Decidable (EvictionRegained key cfg s event) :=
  match event with
  | .call _ _ _ => inferInstanceAs (Decidable (_ -> _))
  | .cleanup _ => inferInstanceAs (Decidable True)

/-- The grants of any interval and of any aligned window are bounded. -/
def RateBounded (allowed : List Int) : Prop :=
  (forall s t : Rat, s ≤ t ->
    (Quota.grantsIn msClock allowed s t : Rat) ≤
      cfg.capacity + cfg.burstRefillPerS * ((t - s) / 1000)) ∧
  forall w : Int,
    allowed.countP (fun a => w * cfg.winMs ≤ a ∧ a < (w + 1) * cfg.winMs) ≤ cfg.windowLimit.toNat

end Run

section Step

variable {key : Text} {cfg : LimitCfg} {s s' : RunState}

theorem step_call {called : Text} {calledCfg : LimitCfg} {nowMs : Int}
    (h : step key cfg s (.call called calledCfg nowMs) = some s') :
    s.clockMs ≤ nowMs ∧ (called = key -> calledCfg = cfg) ∧ s' = { s with
        store := (s.store.checkAndConsume called calledCfg nowMs).1
        clockMs := nowMs
        allowed :=
          if called = key then
            logged nowMs (s.store.checkAndConsume called calledCfg nowMs).2
              s.allowed
          else s.allowed } := by
  rw [step] at h
  split at h
  · rename_i hcall
    injection h with h
    exact ⟨hcall.1, hcall.2, h.symm⟩
  · cases h

theorem step_cleanup {nowMs : Int} (h : step key cfg s (.cleanup nowMs) = some s') :
    s'.lastEntry key = s.lastEntry key ∧ s'.allowed = s.allowed ∧ s'.clockMs = s.clockMs := by
  injection h with h
  rw [← h]
  refine ⟨?_, rfl, rfl⟩
  unfold RunState.lastEntry
  dsimp only
  rcases s.store.lookup_cleanup nowMs key with hkept | hgone
  · rw [hkept]
    cases s.store.lookup key with
    | none => rw [if_pos rfl]; rfl
    | some entry => rfl
  · rw [hgone, if_pos rfl, Option.none_or]

end Step

/-!
## Whole runs

The grants of a key stay accounted for by its last entry, if that had regained its tokens
when it was evicted.
-/

section Bounds

variable {key : Text} {cfg : LimitCfg}

structure RunAccounted (key : Text) (cfg : LimitCfg) (s : RunState) : Prop where
  unused : s.lastEntry key = none -> s.allowed = []
  used : forall entry, s.lastEntry key = some entry ->
    Accounted cfg s.allowed entry ∧ entry.tb.lastCheckMs ≤ s.clockMs ∧
      entry.lastTouchMs = entry.tb.lastCheckMs

theorem accounted_fresh_of_regained (hvalid : cfg.Validated) {log : List Int}
    {entry : Entry} {nowMs : Int} (h : Accounted cfg log entry)
    (hnow : entry.tb.lastCheckMs ≤ nowMs) (hregained : Regained cfg entry nowMs) :
    Accounted cfg log (Entry.fresh cfg nowMs) := by
  have hwin := hvalid.winMs_pos
  have hlater : msClock entry.tb.lastCheckMs ≤ msClock nowMs := Int.cast_le.mpr hnow
  have hcovers := Quota.Covers.wait h.covers cfg.capacity_nonneg hvalid.refillPerMs_nonneg hlater
  rw [min_eq_left hregained.1] at hcovers
  refine accounted_fresh hvalid hcovers ?_
  have hstarted := h.started.trans (windowOf_mono hwin hnow)
  rcases hstarted.eq_or_lt with hsame | hlt
  · rcases hregained.2 with hzero | hover
    · have hcounted := h.counts.counted
      rw [hsame, hzero] at hcounted
      exact hcounted
    · rw [h.counts.aligned, hsame] at hover
      exact absurd hover (lt_irrefl _)
  · exact h.counts.counted.roll hlt

theorem accounted_fresh_nil (hvalid : cfg.Validated) (nowMs : Int) :
    Accounted cfg [] (Entry.fresh cfg nowMs) :=
  accounted_fresh hvalid (Quota.covers_nil cfg.capacity_nonneg hvalid.refillPerMs_nonneg)
    Quota.counted_nil

theorem accounted_at_call (hvalid : cfg.Validated) {s : RunState}
    {nowMs : Int} (h : RunAccounted key cfg s) (hnow : s.clockMs ≤ nowMs)
    (hregained : EvictionRegained key cfg s (.call key cfg nowMs)) :
    Accounted cfg s.allowed ((s.store.lookup key).getD (Entry.fresh cfg nowMs)) ∧
      ((s.store.lookup key).getD (Entry.fresh cfg nowMs)).tb.lastCheckMs ≤
        nowMs := by
  cases hlookup : s.store.lookup key with
  | some entry =>
    have hlast : s.lastEntry key = some entry := by
      unfold RunState.lastEntry
      rw [hlookup, Option.some_or]
    rcases h.used entry hlast with ⟨haccounted, htime, _⟩
    exact ⟨haccounted, htime.trans hnow⟩
  | none =>
    have hlast : s.lastEntry key = s.lost := by
      unfold RunState.lastEntry
      rw [hlookup, Option.none_or]
    refine ⟨?_, le_refl nowMs⟩
    cases hlost : s.lost with
    | none =>
      rw [hlost] at hlast
      rw [h.unused hlast]
      exact accounted_fresh_nil hvalid nowMs
    | some entry =>
      rw [hlost] at hlast
      rcases h.used entry hlast with ⟨haccounted, htime, _⟩
      exact accounted_fresh_of_regained hvalid haccounted
        (htime.trans hnow) (hregained rfl hlookup entry hlost)

theorem RunAccounted.of_same {s s' : RunState} (h : RunAccounted key cfg s)
    (hlast : s'.lastEntry key = s.lastEntry key)
    (hallowed : s'.allowed = s.allowed) (hclock : s.clockMs ≤ s'.clockMs) :
    RunAccounted key cfg s' := by
  refine ⟨?_, ?_⟩
  · rw [hlast, hallowed]
    exact h.unused
  · rw [hlast, hallowed]
    intro entry hentry
    rcases h.used entry hentry with ⟨haccounted, htime, htouch⟩
    exact ⟨haccounted, htime.trans hclock, htouch⟩

theorem runAccounted_call (hvalid : cfg.Validated) {s s' : RunState}
    {nowMs : Int} (h : RunAccounted key cfg s)
    (hregained : EvictionRegained key cfg s (.call key cfg nowMs))
    (hstep : step key cfg s (.call key cfg nowMs) = some s') :
    RunAccounted key cfg s' := by
  rcases step_call hstep with ⟨hnow, _, hs'⟩
  rcases accounted_at_call hvalid h hnow hregained with ⟨haccounted, htime⟩
  have hlast : s'.lastEntry key = some (((s.store.lookup key).getD
        (Entry.fresh cfg nowMs)).consume cfg nowMs).1 := by
    unfold RunState.lastEntry
    rw [hs', MemoryStore.lookup_checkAndConsume_self, Option.some_or]
  refine ⟨?_, ?_⟩
  · intro hnone
    rw [hlast] at hnone
    cases hnone
  · intro entry hentry
    rw [hlast] at hentry
    injection hentry with hentry
    have htimes := consume_times cfg nowMs ((s.store.lookup key).getD (Entry.fresh cfg nowMs))
    rw [hs', ← hentry, if_pos rfl]
    exact ⟨accounted_consume hvalid haccounted htime, htimes.1.le, htimes.2.trans htimes.1.symm⟩

theorem runAccounted_step (hvalid : cfg.Validated) {s s' : RunState}
    {event : Event} (h : RunAccounted key cfg s) (hregained : EvictionRegained key cfg s event)
    (hstep : step key cfg s event = some s') : RunAccounted key cfg s' := by
  cases event with
  | cleanup nowMs =>
    rcases step_cleanup hstep with ⟨hlast, hallowed, hclock⟩
    exact h.of_same hlast hallowed hclock.ge
  | call called calledCfg nowMs =>
    rcases step_call hstep with ⟨hnow, hcfg, hs'⟩
    rcases eq_or_ne called key with hkey | hkey
    · subst hkey
      rw [hcfg rfl] at hregained hstep
      exact runAccounted_call hvalid h hregained hstep
    · refine h.of_same ?_ ?_ ?_
      · unfold RunState.lastEntry
        rw [hs', MemoryStore.lookup_checkAndConsume_of_ne (Ne.symm hkey)]
      · rw [hs', if_neg hkey]
      · rw [hs']
        exact hnow

theorem runAccounted_start (key : Text) (cfg : LimitCfg) (clockMs : Int) :
    RunAccounted key cfg (RunState.start clockMs) := by
  refine ⟨fun _ => rfl, ?_⟩
  intro entry hentry
  cases hentry

theorem grantsOf_windowOf (hwin : 0 < cfg.winMs) (log : List Int) (w : Int) :
    Quota.grantsOf cfg.windowOf log w =
      log.countP (fun a => w * cfg.winMs ≤ a ∧ a < (w + 1) * cfg.winMs) := by
  refine List.countP_congr ?_
  intro a _
  rw [decide_eq_true_iff, decide_eq_true_iff]
  unfold LimitCfg.windowOf
  rw [Int.ediv_eq_iff_of_pos hwin]
  rw [Int.add_mul, Int.one_mul]

theorem rateBounded_of_accounted (hvalid : cfg.Validated) {log : List Int}
    {entry : Entry} (h : Accounted cfg log entry) : RateBounded cfg log := by
  refine ⟨?_, ?_⟩
  · intro s t hst
    have hconforms := h.covers.conforms s t hst
    have hrate : cfg.refillPerMs * (t - s) = cfg.burstRefillPerS * ((t - s) / 1000) := by
      unfold LimitCfg.refillPerMs
      ring
    rw [← hrate]
    exact hconforms
  · intro w
    rw [← grantsOf_windowOf hvalid.winMs_pos]
    exact h.counts.counted.within w

theorem rateBounded_of_runAccounted (hvalid : cfg.Validated) {s : RunState}
    (h : RunAccounted key cfg s) : RateBounded cfg s.allowed := by
  cases hlast : s.lastEntry key with
  | none =>
    rw [h.unused hlast]
    exact rateBounded_of_accounted hvalid (accounted_fresh_nil hvalid 0)
  | some entry =>
    exact rateBounded_of_accounted hvalid (h.used entry hlast).1

/-- In every run of calls and cleanups in which a key is recreated only when what
was removed is regained, its grants are bounded. -/
theorem run_rateBounded (hvalid : cfg.Validated) {clockMs : Int}
    {events : List Event} {final : RunState}
    (hmeet : StepsMeet (step key cfg) (EvictionRegained key cfg) (RunState.start clockMs) events)
    (hrun : runFrom (step key cfg) (RunState.start clockMs) events = some final) :
    RateBounded cfg final.allowed :=
  rateBounded_of_runAccounted hvalid
    (runFrom_invariant (fun h hok hstep => runAccounted_step hvalid h hok hstep)
      (runAccounted_start key cfg clockMs) hmeet hrun)

def oneToken (refill : Rat) : LimitCfg :=
  { burstCapacity := 1
    burstRefillPerS := refill
    windowSecs := 60
    windowLimit := 10 }

/-- Two calls of one key with a cleanup between them, ten minutes later. -/
def idleRun (cfg : LimitCfg) : List Event :=
  [.call "k".toList cfg 0, .cleanup 600000, .call "k".toList cfg 600000]

theorem idleRun_rateBounded :
    exists final, runFrom (step "k".toList (oneToken 1)) (RunState.start 0)
        (idleRun (oneToken 1)) = some final ∧ final.allowed = [600000, 0] ∧
      RateBounded (oneToken 1) final.allowed := by
  refine ⟨_, rfl, by decide +kernel, ?_⟩
  have hvalid : (oneToken 1).Validated := by decide +kernel
  have hmeet : StepsMeet (step "k".toList (oneToken 1))
      (EvictionRegained "k".toList (oneToken 1)) (RunState.start 0) (idleRun (oneToken 1)) := by
    decide +kernel
  exact run_rateBounded hvalid hmeet rfl

/-- One request in an hour, with a bucket that idle time fills. -/
def hourly : LimitCfg :=
  { burstCapacity := 10
    burstRefillPerS := 1
    windowSecs := 3600
    windowLimit := 1 }

/-- A bucket without refill grants its one token again after ten idle minutes, and a
window of an hour its one grant. -/
theorem idleRun_not_rateBounded :
    ((oneToken 0).SetByFile ∧
      exists final, runFrom (step "k".toList (oneToken 0)) (RunState.start 0)
          (idleRun (oneToken 0)) = some final ∧ final.allowed = [600000, 0] ∧
        ¬ RateBounded (oneToken 0) final.allowed) ∧
    (hourly.SetByFile ∧
      exists final, runFrom (step "k".toList hourly) (RunState.start 0)
          (idleRun hourly) = some final ∧ final.allowed = [600000, 0] ∧
        ¬ RateBounded hourly final.allowed) := by
  have hslow : (oneToken 0).Validated := by decide +kernel
  have hhourly : hourly.Validated := by decide +kernel
  refine ⟨⟨LimitCfg.setByFile_iff.mpr hslow, _, rfl, by decide +kernel, ?_⟩,
    ⟨LimitCfg.setByFile_iff.mpr hhourly, _, rfl, by decide +kernel, ?_⟩⟩
  · intro h
    have hbound := h.1 0 600000 (by norm_num)
    revert hbound
    decide +kernel
  · intro h
    have hbound := h.2 0
    revert hbound
    decide +kernel

/-!
## Limits that idle time restores

With one clock for calls and cleanups and few keys, only entries that have been
idle for the whole time to live are removed.
-/

/-- Calls do not come before an earlier cleanup, and cleanups find few keys. -/
def Orderly (s : RunState) : Event -> Prop
  | .call _ _ nowMs => s.cleanedMs ≤ nowMs
  | .cleanup _ => s.store.size ≤ maxEntries

/-- The limit is restored by the time after which entries are removed. -/
def RestoredByIdling (cfg : LimitCfg) : Prop :=
  cfg.capacity ≤ 600 * cfg.burstRefillPerS ∧ cfg.windowSecs.toNat ≤ 600

theorem regained_of_idle (hvalid : cfg.Validated) (hcfg : RestoredByIdling cfg)
    {log : List Int} {entry : Entry} {nowMs : Int} (h : Accounted cfg log entry)
    (hidle : entryTtlMs ≤ nowMs - entry.tb.lastCheckMs) :
    Regained cfg entry nowMs := by
  have hwin := hvalid.winMs_pos
  refine ⟨?_, Or.inr ?_⟩
  · have htokens := h.covers.nonneg
    have hrefill := hvalid.2.1
    have helapsed : (600000 : Rat) ≤ msClock nowMs - msClock entry.tb.lastCheckMs := by
      unfold msClock
      rw [← Int.cast_sub]
      exact Int.cast_le.mpr hidle
    have hgain := mul_le_mul_of_nonneg_left helapsed hvalid.refillPerMs_nonneg
    have htotal : cfg.refillPerMs * 600000 = 600 * cfg.burstRefillPerS := by
      unfold LimitCfg.refillPerMs
      ring
    have hcapacity := hcfg.1
    linarith
  · have hlast : cfg.windowOf entry.tb.lastCheckMs + 1 ≤ cfg.windowOf nowMs := by
      have hshort : cfg.winMs ≤ entryTtlMs := by
        have hsecs := hcfg.2
        unfold LimitCfg.winMs entryTtlMs
        lia
      have hle : entry.tb.lastCheckMs + cfg.winMs ≤ nowMs := by lia
      have hmono := windowOf_mono hwin hle
      unfold LimitCfg.windowOf at hmono ⊢
      rw [Int.add_ediv_of_dvd_right (dvd_refl _), Int.ediv_self hwin.ne'] at hmono
      exact hmono
    have hbefore : cfg.windowOf entry.sw.currWindowStartMs < cfg.windowOf nowMs :=
      lt_of_le_of_lt h.started hlast
    rw [h.counts.aligned]
    exact mul_lt_mul_of_pos_right hbefore hwin

/-- Beside being accounted for, a removed entry has been idle. -/
structure RunIdle (key : Text) (cfg : LimitCfg) (s : RunState) : Prop where
  accounted : RunAccounted key cfg s
  idle : s.store.lookup key = none -> forall entry, entry ∈ s.lost ->
    entryTtlMs ≤ s.cleanedMs - entry.lastTouchMs

theorem runIdle_regained (hvalid : cfg.Validated) (hcfg : RestoredByIdling cfg)
    {s : RunState} {event : Event} (h : RunIdle key cfg s)
    (horderly : Orderly s event) : EvictionRegained key cfg s event := by
  cases event with
  | cleanup nowMs => trivial
  | call called calledCfg nowMs =>
    intro hcalled hnone entry hlost
    have hlast : s.lastEntry key = some entry := by
      unfold RunState.lastEntry
      rw [hnone, Option.none_or]
      exact hlost
    rcases h.accounted.used entry hlast with ⟨haccounted, _, htouch⟩
    have hidle := h.idle hnone entry hlost
    have hnow : s.cleanedMs ≤ nowMs := horderly
    rw [htouch] at hidle
    exact regained_of_idle hvalid hcfg haccounted (by lia)

theorem runIdle_step (hvalid : cfg.Validated) (hcfg : RestoredByIdling cfg)
    {s s' : RunState} {event : Event} (h : RunIdle key cfg s) (horderly : Orderly s event)
    (hstep : step key cfg s event = some s') : RunIdle key cfg s' := by
  refine ⟨runAccounted_step hvalid h.accounted (runIdle_regained hvalid hcfg h horderly) hstep, ?_⟩
  cases event with
  | cleanup nowMs =>
    injection hstep with hs'
    rw [← hs']
    dsimp only
    intro hgone entry hlost
    rw [if_pos hgone] at hlost
    cases hlookup : s.store.lookup key with
    | some kept =>
      unfold RunState.lastEntry at hlost
      rw [hlookup, Option.some_or] at hlost
      injection hlost with hkept
      have hidle := MemoryStore.idle_of_lookup_cleanup horderly hlookup hgone
      rw [← hkept]
      lia
    | none =>
      unfold RunState.lastEntry at hlost
      rw [hlookup, Option.none_or] at hlost
      have hidle := h.idle hlookup entry hlost
      lia
  | call called calledCfg nowMs =>
    rcases step_call hstep with ⟨_, _, hs'⟩
    rw [hs']
    dsimp only
    intro hnone
    rcases eq_or_ne called key with hkey | hkey
    · rw [hkey, MemoryStore.lookup_checkAndConsume_self] at hnone
      cases hnone
    · rw [MemoryStore.lookup_checkAndConsume_of_ne (Ne.symm hkey)] at hnone
      exact h.idle hnone

theorem run_rateBounded_of_restored (hvalid : cfg.Validated)
    (hcfg : RestoredByIdling cfg) {clockMs : Int} {events : List Event} {final : RunState}
    (hmeet : StepsMeet (step key cfg) Orderly (RunState.start clockMs) events)
    (hrun : runFrom (step key cfg) (RunState.start clockMs) events = some final) :
    RateBounded cfg final.allowed := by
  have hstart : RunIdle key cfg (RunState.start clockMs) := by
    refine ⟨runAccounted_start key cfg clockMs, ?_⟩
    intro _ entry hlost
    cases hlost
  have hidle := runFrom_invariant
    (fun h hok hstep => runIdle_step hvalid hcfg h hok hstep) hstart hmeet hrun
  exact rateBounded_of_runAccounted hvalid hidle.accounted

/-- Ten idle minutes restore a bucket that refills. -/
theorem idleRun_restored :
    exists final, runFrom (step "k".toList (oneToken 1)) (RunState.start 0)
      (idleRun (oneToken 1)) = some final ∧ RateBounded (oneToken 1) final.allowed := by
  have hmeet : StepsMeet (step "k".toList (oneToken 1)) Orderly (RunState.start 0)
      (idleRun (oneToken 1)) := by
    refine stepsMeet_cons ?_ rfl (stepsMeet_cons ?_ rfl (stepsMeet_cons ?_ rfl trivial))
    all_goals unfold Orderly; decide +kernel
  have hvalid : (oneToken 1).Validated := by decide +kernel
  exact ⟨_, rfl, run_rateBounded_of_restored hvalid ⟨by decide +kernel, by decide⟩ hmeet rfl⟩

end Bounds

end RateLimit
end PrxWaf
