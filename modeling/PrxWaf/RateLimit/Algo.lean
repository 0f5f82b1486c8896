import PrxWaf.Lib.Quota

/-!
# Token bucket and sliding window

The state of one rate-limited key.  Times are in milliseconds, and fractions of
tokens are exact.
-/

namespace PrxWaf
namespace RateLimit

open Lib

structure LimitCfg where
  burstCapacity : UInt32
  burstRefillPerS : Rat
  windowSecs : UInt32
  windowLimit : UInt32
  deriving DecidableEq

inductive Decision where
  | allow
  | burstExceeded
  | sustainedExceeded
  deriving DecidableEq

namespace LimitCfg

/-- What the validation of a configuration file asks of a limit. -/
def Validated (cfg : LimitCfg) : Prop :=
  0 < cfg.burstCapacity.toNat ∧ 0 ≤ cfg.burstRefillPerS ∧
    0 < cfg.windowSecs.toNat ∧ 0 < cfg.windowLimit.toNat

instance (cfg : LimitCfg) : Decidable cfg.Validated :=
  inferInstanceAs (Decidable (_ ∧ _))

def capacity (cfg : LimitCfg) : Rat :=
  cfg.burstCapacity.toNat

def winMs (cfg : LimitCfg) : Int :=
  cfg.windowSecs.toNat * 1000

end LimitCfg

structure TokenBucketState where
  tokens : Rat
  lastCheckMs : Int
  deriving DecidableEq

namespace TokenBucketState

def newFull (cfg : LimitCfg) (nowMs : Int) : TokenBucketState :=
  { tokens := cfg.capacity, lastCheckMs := nowMs }

/-- The tokens after the refill; a clock that runs backwards adds none. -/
def refilled (cfg : LimitCfg) (nowMs : Int) (s : TokenBucketState) : Rat :=
  let deltaMs := max (nowMs - s.lastCheckMs) 0
  let seconds : Rat := deltaMs / 1000
  min (s.tokens + seconds * cfg.burstRefillPerS) cfg.capacity

def tryConsume (cfg : LimitCfg) (nowMs : Int) (s : TokenBucketState) : TokenBucketState × Bool :=
  let tokens := s.refilled cfg nowMs
  if 1 ≤ tokens then ({ tokens := tokens - 1, lastCheckMs := nowMs }, true)
  else ({ tokens := tokens, lastCheckMs := nowMs }, false)

end TokenBucketState

structure SlidingWindowState where
  currCount : Nat
  prevCount : Nat
  currWindowStartMs : Int
  deriving DecidableEq

def alignFloor (t grid : Int) : Int :=
  t / grid * grid

namespace SlidingWindowState

def new (nowMs : Int) (cfg : LimitCfg) : SlidingWindowState :=
  { currCount := 0
    prevCount := 0
    currWindowStartMs := alignFloor nowMs cfg.winMs }

/-- Roll the window forward if the time is past its end. -/
def roll (cfg : LimitCfg) (nowMs : Int) (s : SlidingWindowState) : SlidingWindowState :=
  let bucketNow := alignFloor nowMs cfg.winMs
  let advance := max ((bucketNow - s.currWindowStartMs).tdiv cfg.winMs) 0
  if advance = 0 then s
  else if advance = 1 then
    { currCount := 0
      prevCount := s.currCount
      currWindowStartMs := bucketNow }
  else
    { currCount := 0
      prevCount := 0
      currWindowStartMs := bucketNow }

def weightPrev (cfg : LimitCfg) (nowMs : Int) (s : SlidingWindowState) : Rat :=
  let elapsedInCurr := max (nowMs - s.currWindowStartMs) 0
  1 - min (max (elapsedInCurr / cfg.winMs : Rat) 0) 1

def estimated (cfg : LimitCfg) (nowMs : Int) (s : SlidingWindowState) : Rat :=
  s.prevCount * s.weightPrev cfg nowMs + s.currCount

def tryConsume (cfg : LimitCfg) (nowMs : Int) (s : SlidingWindowState) :
    SlidingWindowState × Bool :=
  let s := s.roll cfg nowMs
  if cfg.windowLimit.toNat < s.estimated cfg nowMs + 1 then (s, false)
  else
    -- the counter saturates
    ({ s with currCount := min (s.currCount + 1) (2 ^ 32 - 1) }, true)

end SlidingWindowState

structure Entry where
  tb : TokenBucketState
  sw : SlidingWindowState
  lastTouchMs : Int
  deriving DecidableEq

namespace Entry

def fresh (cfg : LimitCfg) (nowMs : Int) : Entry :=
  { tb := TokenBucketState.newFull cfg nowMs
    sw := SlidingWindowState.new nowMs cfg
    lastTouchMs := nowMs }

/-- The bucket is asked first; a token that the window refuses stays spent. -/
def consume (cfg : LimitCfg) (nowMs : Int) (entry : Entry) : Entry × Decision :=
  let tb := entry.tb.tryConsume cfg nowMs
  if tb.2 then
    let sw := entry.sw.tryConsume cfg nowMs
    ({ tb := tb.1, sw := sw.1, lastTouchMs := nowMs },
      if sw.2 then .allow else .sustainedExceeded)
  else
    ({ entry with tb := tb.1, lastTouchMs := nowMs }, .burstExceeded)

end Entry

def msClock (t : Int) : Rat :=
  t

namespace LimitCfg

def refillPerMs (cfg : LimitCfg) : Rat :=
  cfg.burstRefillPerS / 1000

def windowOf (cfg : LimitCfg) (t : Int) : Int :=
  t / cfg.winMs

theorem capacity_nonneg (cfg : LimitCfg) :
    0 ≤ cfg.capacity :=
  Nat.cast_nonneg _

theorem Validated.refillPerMs_nonneg {cfg : LimitCfg} (h : cfg.Validated) :
    0 ≤ cfg.refillPerMs :=
  div_nonneg h.2.1 (by norm_num)

theorem Validated.winMs_pos {cfg : LimitCfg} (h : cfg.Validated) :
    0 < cfg.winMs := by
  have hsecs := h.2.2.1
  unfold winMs
  lia

end LimitCfg

variable {cfg : LimitCfg} {log : List Int} {nowMs : Int}

def BucketCovers (cfg : LimitCfg) (log : List Int) (s : TokenBucketState) : Prop :=
  Quota.Covers msClock cfg.capacity cfg.refillPerMs log (msClock s.lastCheckMs) s.tokens

structure WindowCounts (cfg : LimitCfg) (log : List Int) (s : SlidingWindowState) : Prop where
  counted : Quota.Counted cfg.windowOf cfg.windowLimit.toNat log
    (cfg.windowOf s.currWindowStartMs) s.currCount
  aligned : s.currWindowStartMs = cfg.windowOf s.currWindowStartMs * cfg.winMs

/-- The log of a key is within both bounds, and its state accounts for it. -/
structure Accounted (cfg : LimitCfg) (log : List Int) (entry : Entry) : Prop where
  covers : BucketCovers cfg log entry.tb
  counts : WindowCounts cfg log entry.sw
  started : cfg.windowOf entry.sw.currWindowStartMs ≤ cfg.windowOf entry.tb.lastCheckMs

theorem refilled_eq {s : TokenBucketState} (hnow : s.lastCheckMs ≤ nowMs) :
    s.refilled cfg nowMs = min cfg.capacity (s.tokens + cfg.refillPerMs *
        (msClock nowMs - msClock s.lastCheckMs)) := by
  have hdelta : max (nowMs - s.lastCheckMs) 0 = nowMs - s.lastCheckMs := by lia
  unfold TokenBucketState.refilled LimitCfg.refillPerMs msClock
  rw [hdelta, min_comm, Int.cast_sub]
  ring_nf

theorem tryConsume_lastCheckMs (cfg : LimitCfg) (nowMs : Int) (s : TokenBucketState) :
    (s.tryConsume cfg nowMs).1.lastCheckMs = nowMs := by
  unfold TokenBucketState.tryConsume
  dsimp only
  split
  · rfl
  · rfl

theorem bucketCovers_tryConsume (hvalid : cfg.Validated)
    {s : TokenBucketState} (h : BucketCovers cfg log s) (hnow : s.lastCheckMs ≤ nowMs) :
    BucketCovers cfg log (s.tryConsume cfg nowMs).1 ∧ ((s.tryConsume cfg nowMs).2 = true ->
        BucketCovers cfg (nowMs :: log) (s.tryConsume cfg nowMs).1) := by
  have hrate := hvalid.refillPerMs_nonneg
  have hlater : msClock s.lastCheckMs ≤ msClock nowMs := Int.cast_le.mpr hnow
  have hwait := Quota.Covers.wait h cfg.capacity_nonneg hrate hlater
  rw [← refilled_eq hnow] at hwait
  unfold TokenBucketState.tryConsume
  dsimp only
  split
  · rename_i htoken
    exact ⟨hwait.spend (sub_nonneg.mpr htoken) (sub_le_self _ zero_le_one),
      fun _ => hwait.grant hrate htoken⟩
  · exact ⟨hwait, fun h => absurd h Bool.false_ne_true⟩

theorem windowOf_mono (hwin : 0 < cfg.winMs) {s t : Int} (h : s ≤ t) :
    cfg.windowOf s ≤ cfg.windowOf t :=
  Int.ediv_le_ediv hwin h

theorem windowOf_alignFloor (hwin : 0 < cfg.winMs) (t : Int) :
    cfg.windowOf (alignFloor t cfg.winMs) = cfg.windowOf t :=
  Int.mul_ediv_cancel _ hwin.ne'

theorem weightPrev_nonneg (cfg : LimitCfg) (nowMs : Int)
    (s : SlidingWindowState) : 0 ≤ s.weightPrev cfg nowMs := by
  unfold SlidingWindowState.weightPrev
  rw [sub_nonneg]
  exact min_le_right _ 1

theorem currCount_le_of_admitted {s : SlidingWindowState}
    (h : ¬ (cfg.windowLimit.toNat : Rat) < s.estimated cfg nowMs + 1) :
    s.currCount + 1 ≤ cfg.windowLimit.toNat := by
  unfold SlidingWindowState.estimated at h
  have hprev := mul_nonneg (Nat.cast_nonneg (α := Rat) s.prevCount) (weightPrev_nonneg cfg nowMs s)
  have hle : ((s.currCount + 1 : Nat) : Rat) ≤ cfg.windowLimit.toNat := by
    rw [Nat.cast_add, Nat.cast_one]
    linarith
  exact Nat.cast_le.mp hle

theorem min_currCount_of_admitted {s : SlidingWindowState}
    (h : ¬ (cfg.windowLimit.toNat : Rat) < s.estimated cfg nowMs + 1) :
    min (s.currCount + 1) (2 ^ 32 - 1) = s.currCount + 1 := by
  have hle := currCount_le_of_admitted h
  have hlimit := cfg.windowLimit.toNat_lt
  lia

theorem windowCounts_of_aligned (hwin : 0 < cfg.winMs) {s : SlidingWindowState}
    (hstart : s.currWindowStartMs = alignFloor nowMs cfg.winMs)
    (hcounted : Quota.Counted cfg.windowOf cfg.windowLimit.toNat log
      (cfg.windowOf nowMs) s.currCount) :
    WindowCounts cfg log s ∧ cfg.windowOf s.currWindowStartMs = cfg.windowOf nowMs := by
  have hwindow : cfg.windowOf s.currWindowStartMs = cfg.windowOf nowMs := by
    rw [hstart, windowOf_alignFloor hwin]
  refine ⟨⟨?_, ?_⟩, hwindow⟩
  · rw [hwindow]
    exact hcounted
  · rw [hwindow, hstart]
    rfl

theorem tdiv_advance (hwin : 0 < cfg.winMs) {s : SlidingWindowState}
    (haligned : s.currWindowStartMs = cfg.windowOf s.currWindowStartMs * cfg.winMs) :
    (alignFloor nowMs cfg.winMs - s.currWindowStartMs).tdiv cfg.winMs =
      cfg.windowOf nowMs - cfg.windowOf s.currWindowStartMs := by
  have hdiff : alignFloor nowMs cfg.winMs - s.currWindowStartMs =
      (cfg.windowOf nowMs - cfg.windowOf s.currWindowStartMs) * cfg.winMs := by
    rw [sub_mul, ← haligned]
    rfl
  rw [hdiff]
  exact Int.mul_tdiv_cancel _ hwin.ne'

theorem counted_roll (hwin : 0 < cfg.winMs) {s : SlidingWindowState} (h : WindowCounts cfg log s)
    (hstart : cfg.windowOf s.currWindowStartMs ≤ cfg.windowOf nowMs) :
    (s.roll cfg nowMs).currWindowStartMs = alignFloor nowMs cfg.winMs ∧
      Quota.Counted cfg.windowOf cfg.windowLimit.toNat log
        (cfg.windowOf nowMs) (s.roll cfg nowMs).currCount := by
  unfold SlidingWindowState.roll
  dsimp only
  rw [tdiv_advance hwin h.aligned]
  split
  · rename_i hzero
    have heq : cfg.windowOf s.currWindowStartMs = cfg.windowOf nowMs := by lia
    have hcounted := h.counted
    rw [heq] at hcounted
    refine ⟨?_, hcounted⟩
    rw [h.aligned, heq]
    rfl
  · have hlt : cfg.windowOf s.currWindowStartMs < cfg.windowOf nowMs := by lia
    split
    · exact ⟨rfl, h.counted.roll hlt⟩
    · exact ⟨rfl, h.counted.roll hlt⟩

theorem windowCounts_tryConsume (hwin : 0 < cfg.winMs)
    {s : SlidingWindowState} (h : WindowCounts cfg log s)
    (hstart : cfg.windowOf s.currWindowStartMs ≤ cfg.windowOf nowMs) :
    WindowCounts cfg (if (s.tryConsume cfg nowMs).2 then nowMs :: log else log)
        (s.tryConsume cfg nowMs).1 ∧ cfg.windowOf (s.tryConsume cfg nowMs).1.currWindowStartMs =
        cfg.windowOf nowMs := by
  rcases counted_roll hwin h hstart with ⟨haligned, hcounted⟩
  unfold SlidingWindowState.tryConsume
  dsimp only
  split
  · exact windowCounts_of_aligned hwin haligned hcounted
  · rename_i hadmitted
    refine windowCounts_of_aligned hwin haligned ?_
    dsimp only
    rw [min_currCount_of_admitted hadmitted]
    exact hcounted.grant rfl (currCount_le_of_admitted hadmitted)

theorem consume_times (cfg : LimitCfg) (nowMs : Int) (entry : Entry) :
    (entry.consume cfg nowMs).1.tb.lastCheckMs = nowMs ∧
      (entry.consume cfg nowMs).1.lastTouchMs = nowMs := by
  have hlast := tryConsume_lastCheckMs cfg nowMs entry.tb
  unfold Entry.consume
  dsimp only
  split
  · exact ⟨hlast, rfl⟩
  · exact ⟨hlast, rfl⟩

def logged (nowMs : Int) (decision : Decision) (log : List Int) : List Int :=
  if decision = .allow then nowMs :: log else log

theorem accounted_fresh (hvalid : cfg.Validated)
    (hcovers : Quota.Covers msClock cfg.capacity cfg.refillPerMs log (msClock nowMs) cfg.capacity)
    (hcounted : Quota.Counted cfg.windowOf cfg.windowLimit.toNat log (cfg.windowOf nowMs) 0) :
    Accounted cfg log (Entry.fresh cfg nowMs) := by
  have hcounts : WindowCounts cfg log (SlidingWindowState.new nowMs cfg) ∧ _ :=
    windowCounts_of_aligned hvalid.winMs_pos rfl hcounted
  exact ⟨hcovers, hcounts.1, hcounts.2.le⟩

theorem accounted_consume (hvalid : cfg.Validated) {entry : Entry}
    (h : Accounted cfg log entry) (hnow : entry.tb.lastCheckMs ≤ nowMs) :
    Accounted cfg (logged nowMs (entry.consume cfg nowMs).2 log) (entry.consume cfg nowMs).1 := by
  have hwin := hvalid.winMs_pos
  have hstarted := h.started.trans (windowOf_mono hwin hnow)
  have hbucket := bucketCovers_tryConsume hvalid h.covers hnow
  have hlast := tryConsume_lastCheckMs cfg nowMs entry.tb
  unfold Entry.consume
  dsimp only
  split
  · rename_i htoken
    rcases windowCounts_tryConsume hwin h.counts hstarted with ⟨hcounts, hwindow⟩
    have hstart : cfg.windowOf (entry.sw.tryConsume cfg nowMs).1.currWindowStartMs ≤
        cfg.windowOf (entry.tb.tryConsume cfg nowMs).1.lastCheckMs := by
      rw [hwindow, hlast]
    cases hsw : (entry.sw.tryConsume cfg nowMs).2 with
    | true =>
      rw [hsw, if_pos rfl] at hcounts
      exact ⟨hbucket.2 htoken, hcounts, hstart⟩
    | false =>
      rw [hsw, if_neg Bool.false_ne_true] at hcounts
      exact ⟨hbucket.1, hcounts, hstart⟩
  · refine ⟨hbucket.1, h.counts, ?_⟩
    dsimp only
    rw [hlast]
    exact hstarted

end RateLimit
end PrxWaf
