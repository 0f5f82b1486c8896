import PrxWaf.Lib.Run
import PrxWaf.RateLimit.Algo

/-!
# The bucket under clock skew

A bucket is asked at times that may run backwards.  A step back adds no tokens, but
the bucket then counts from the earlier time on: what the clock makes up for after
a step back is refilled once more.  The tokens of a run are therefore bounded by
all forward movement of the clock, and not by the time that has passed.
-/

namespace PrxWaf
namespace RateLimit

open Lib

structure BucketRun where
  bucket : TokenBucketState
  granted : Nat
  earliestMs : Int
  latestMs : Int
  forwardMs : Int
  deriving DecidableEq

namespace BucketRun

def start (cfg : LimitCfg) (createdMs : Int) : BucketRun :=
  { bucket := TokenBucketState.newFull cfg createdMs
    granted := 0
    earliestMs := createdMs
    latestMs := createdMs
    forwardMs := 0 }

def movedBy (s : BucketRun) (nowMs : Int) : Int :=
  s.forwardMs + max (nowMs - s.bucket.lastCheckMs) 0

def step (cfg : LimitCfg) (s : BucketRun) (nowMs : Int) : Option BucketRun :=
  let call := s.bucket.tryConsume cfg nowMs
  some
    { bucket := call.1
      granted := if call.2 then s.granted + 1 else s.granted
      earliestMs := min s.earliestMs nowMs
      latestMs := max s.latestMs nowMs
      forwardMs := s.movedBy nowMs }

/-- The clock has not moved forward by more than the span of its times. -/
def MovesWithinSpan (cfg : LimitCfg) (s : BucketRun) (nowMs : Int) : Prop :=
  0 ≤ cfg.burstRefillPerS ∧ s.movedBy nowMs ≤ max s.latestMs nowMs - min s.earliestMs nowMs

instance (cfg : LimitCfg) (s : BucketRun) (nowMs : Int) : Decidable (s.MovesWithinSpan cfg nowMs) :=
  inferInstanceAs (Decidable (_ ∧ _))

/-- Grants and tokens are paid by the capacity and the refill. -/
structure Paid (cfg : LimitCfg) (s : BucketRun) : Prop where
  tokens_nonneg : 0 ≤ s.bucket.tokens
  granted_le : s.granted + s.bucket.tokens ≤ cfg.capacity + cfg.refillPerMs * s.forwardMs
  within : cfg.refillPerMs * s.forwardMs ≤ cfg.refillPerMs * (s.latestMs - s.earliestMs)

variable {cfg : LimitCfg} {s t : BucketRun} {nowMs : Int}

theorem paid_start (cfg : LimitCfg) (createdMs : Int) :
    (start cfg createdMs).Paid cfg where
  tokens_nonneg := cfg.capacity_nonneg
  granted_le := by
    unfold start TokenBucketState.newFull
    simp
  within := by
    unfold start
    simp

theorem refilled_nonneg {b : TokenBucketState}
    (hrate : 0 ≤ cfg.burstRefillPerS) (htokens : 0 ≤ b.tokens) (nowMs : Int) :
    0 ≤ b.refilled cfg nowMs := by
  have hdelta : (0 : Rat) ≤ (max (nowMs - b.lastCheckMs) 0 : Int) :=
    Int.cast_nonneg (le_max_right _ _)
  unfold TokenBucketState.refilled
  exact le_min (add_nonneg htokens (mul_nonneg (div_nonneg hdelta (by norm_num)) hrate))
    cfg.capacity_nonneg

theorem refilled_le (b : TokenBucketState) (nowMs : Int) :
    b.refilled cfg nowMs ≤ b.tokens + cfg.refillPerMs * (max (nowMs - b.lastCheckMs) 0 : Int) := by
  unfold TokenBucketState.refilled LimitCfg.refillPerMs
  refine (min_le_left _ _).trans (le_of_eq ?_)
  ring

theorem paid_step (h : s.Paid cfg) (hok : s.MovesWithinSpan cfg nowMs)
    (hstep : step cfg s nowMs = some t) : t.Paid cfg := by
  obtain ⟨hrate, hspan⟩ := hok
  have hnonneg := refilled_nonneg hrate h.tokens_nonneg nowMs
  have hrefill := @refilled_le cfg s.bucket nowMs
  have hgranted := h.granted_le
  have hmoved : cfg.refillPerMs * (s.movedBy nowMs : Int) = cfg.refillPerMs * s.forwardMs +
        cfg.refillPerMs * (max (nowMs - s.bucket.lastCheckMs) 0 : Int) := by
    unfold movedBy
    rw [Int.cast_add, mul_add]
  have hwithin : cfg.refillPerMs * (s.movedBy nowMs : Int) ≤ cfg.refillPerMs *
        ((max s.latestMs nowMs : Int) - (min s.earliestMs nowMs : Int)) := by
    refine mul_le_mul_of_nonneg_left ?_ (div_nonneg hrate (by norm_num))
    rw [← Int.cast_sub]
    exact Int.cast_le.mpr hspan
  injection hstep with hstep
  rw [← hstep]
  unfold TokenBucketState.tryConsume
  dsimp only
  split
  · rename_i htoken
    refine ⟨sub_nonneg.mpr htoken, ?_, hwithin⟩
    dsimp only
    rw [if_pos rfl, Nat.cast_add, Nat.cast_one, hmoved]
    linarith
  · refine ⟨hnonneg, ?_, hwithin⟩
    dsimp only
    rw [if_neg Bool.false_ne_true, hmoved]
    linarith

/-- A bucket whose clock never makes up for more than the span of its times grants
no more than its capacity and the refill of that span. -/
theorem granted_le_of_movesWithinSpan {createdMs : Int} {times : List Int}
    (hmeet : StepsMeet (step cfg) (MovesWithinSpan cfg) (start cfg createdMs) times)
    (hrun : runFrom (step cfg) (start cfg createdMs) times = some t) :
    (t.granted : Rat) ≤ cfg.burstCapacity.toNat +
      cfg.burstRefillPerS * (((t.latestMs - t.earliestMs : Int) : Rat) / 1000) := by
  have hpaid := runFrom_invariant (fun h hok hstep => paid_step h hok hstep)
    (paid_start cfg createdMs) hmeet hrun
  have hgranted := hpaid.granted_le
  have htokens := hpaid.tokens_nonneg
  have hwithin := hpaid.within
  unfold LimitCfg.refillPerMs at hgranted hwithin
  unfold LimitCfg.capacity at hgranted
  rw [Int.cast_sub]
  linarith

def oneEachSecond : LimitCfg :=
  { burstCapacity := 1
    burstRefillPerS := 1
    windowSecs := 60
    windowLimit := 100 }

theorem granted_le_with_one_step_back :
    exists t, runFrom (step oneEachSecond) (start oneEachSecond 0)
        [0, 1000, 3000, 2500] = some t ∧ (t.granted : Rat) ≤ oneEachSecond.burstCapacity.toNat +
        oneEachSecond.burstRefillPerS * (((t.latestMs - t.earliestMs : Int) : Rat) / 1000) := by
  obtain ⟨t, hrun⟩ : exists t, runFrom (step oneEachSecond)
      (start oneEachSecond 0) [0, 1000, 3000, 2500] = some t := ⟨_, rfl⟩
  refine ⟨t, hrun, granted_le_of_movesWithinSpan ?_ hrun⟩
  decide +kernel

/-- The second from 0 to 1000 is refilled twice: three requests are granted where
the capacity and the refill of one second are two. -/
theorem repeated_second_inflates :
    (runFrom (step oneEachSecond) (start oneEachSecond 0) [0, 1000, 0, 1000]).all (fun t =>
        t.granted = 3 ∧ t.earliestMs = 0 ∧ t.latestMs = 1000 ∧
          ¬ (t.granted : Rat) ≤ oneEachSecond.burstCapacity.toNat + oneEachSecond.burstRefillPerS *
              (((t.latestMs - t.earliestMs : Int) : Rat) / 1000)) = true ∧
      (runFrom (step oneEachSecond) (start oneEachSecond 0) [0, 1000, 0, 1000]).isSome = true := by
  decide +kernel

end BucketRun
end RateLimit
end PrxWaf
