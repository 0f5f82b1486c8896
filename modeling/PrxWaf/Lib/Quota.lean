import Mathlib

/-!
# Quotas over time

A limiter grants requests at moments of a clock.  Two bounds on the log of its
grants are used: a capacity that is paid back at a constant rate, and a number of
grants for each window of time.
-/

namespace PrxWaf
namespace Lib
namespace Quota

section Grants

variable {time K : Type} [LinearOrder K] (clock : time -> K)

def grantsIn (log : List time) (s t : K) : Nat :=
  log.countP (fun a => s ≤ clock a ∧ clock a ≤ t)

def grantsFrom (log : List time) (s : K) : Nat :=
  log.countP (fun a => s ≤ clock a)

variable {clock} {now : K} {log : List time}

theorem grantsFrom_eq_zero {s : K} (hpast : forall a, a ∈ log -> clock a ≤ now)
    (hs : now < s) : grantsFrom clock log s = 0 := by
  refine List.countP_eq_zero.mpr ?_
  intro a ha
  have hle := hpast a ha
  simp only [decide_eq_true_eq, not_le]
  exact lt_of_le_of_lt hle hs

theorem grantsIn_le_grantsFrom (log : List time) (s t : K) :
    grantsIn clock log s t ≤ grantsFrom clock log s := by
  refine List.countP_mono_left ?_
  intro a _ hin
  simp only [decide_eq_true_eq] at hin ⊢
  exact hin.1

end Grants

section Bucket

variable {time K : Type} [Field K] [LinearOrder K] [IsStrictOrderedRing K]
  (clock : time -> K)

/-- No interval has more grants than the capacity and what its length pays
back. -/
def Conforms (capacity rate : K) (log : List time) : Prop :=
  forall s t, s ≤ t -> (grantsIn clock log s t : K) ≤ capacity + rate * (t - s)

/-- The tokens in a bucket at a moment cover what the log may still grant: the
grants since any earlier moment and the tokens left are within the bound. -/
structure Covers (capacity rate : K) (log : List time) (now tokens : K) : Prop where
  nonneg : 0 ≤ tokens
  past : forall a, a ∈ log -> clock a ≤ now
  conforms : Conforms clock capacity rate log
  paid : forall s, s ≤ now -> (grantsFrom clock log s : K) + tokens ≤ capacity + rate * (now - s)

variable {clock} {capacity rate now tokens : K} {log : List time}

theorem covers_nil (hcapacity : 0 ≤ capacity) (hrate : 0 ≤ rate) :
    Covers clock capacity rate [] now capacity := by
  refine ⟨hcapacity, fun _ ha => absurd ha List.not_mem_nil, ?_, ?_⟩
  · intro s t hst
    have hgain := mul_nonneg hrate (sub_nonneg.mpr hst)
    simp only [grantsIn, List.countP_nil, Nat.cast_zero]
    linarith
  · intro s hs
    have hgain := mul_nonneg hrate (sub_nonneg.mpr hs)
    simp only [grantsFrom, List.countP_nil, Nat.cast_zero]
    linarith

theorem Covers.wait (h : Covers clock capacity rate log now tokens)
    (hcapacity : 0 ≤ capacity) (hrate : 0 ≤ rate) {later : K} (hlater : now ≤ later) :
    Covers clock capacity rate log later (min capacity (tokens + rate * (later - now))) := by
  have hgain := mul_nonneg hrate (sub_nonneg.mpr hlater)
  refine ⟨le_min hcapacity (add_nonneg h.nonneg hgain),
    fun a ha => (h.past a ha).trans hlater, h.conforms, ?_⟩
  intro s hs
  rcases le_or_gt s now with hnow | hnow
  · have hpaid := h.paid s hnow
    have hmin := min_le_right capacity (tokens + rate * (later - now))
    have hsum : rate * (later - s) =
        rate * (later - now) + rate * (now - s) := by ring
    linarith
  · have hmin := min_le_left capacity (tokens + rate * (later - now))
    have hrest := mul_nonneg hrate (sub_nonneg.mpr hs)
    rw [grantsFrom_eq_zero h.past hnow, Nat.cast_zero]
    linarith

theorem Covers.spend (h : Covers clock capacity rate log now tokens) {rest : K}
    (hrest : 0 ≤ rest) (hle : rest ≤ tokens) :
    Covers clock capacity rate log now rest := by
  refine ⟨hrest, h.past, h.conforms, ?_⟩
  intro s hs
  have hpaid := h.paid s hs
  linarith

theorem Covers.grant {a : time}
    (h : Covers clock capacity rate log (clock a) tokens) (hrate : 0 ≤ rate) (htoken : 1 ≤ tokens) :
    Covers clock capacity rate (a :: log) (clock a) (tokens - 1) := by
  have hfrom : forall s, s ≤ clock a ->
      grantsFrom clock (a :: log) s = grantsFrom clock log s + 1 := by
    intro s hs
    exact List.countP_cons_of_pos (decide_eq_true hs)
  have hpaid : forall s, s ≤ clock a -> (grantsFrom clock (a :: log) s : K) + (tokens - 1) ≤
        capacity + rate * (clock a - s) := by
    intro s hs
    have hold := h.paid s hs
    rw [hfrom s hs, Nat.cast_add, Nat.cast_one]
    linarith
  refine ⟨sub_nonneg.mpr htoken, ?_, ?_, hpaid⟩
  · intro b hb
    rcases List.mem_cons.mp hb with hb | hb
    · rw [hb]
    · exact h.past b hb
  · intro s t hst
    rcases Decidable.em (s ≤ clock a ∧ clock a ≤ t) with hin | hout
    · have hcount : (grantsIn clock (a :: log) s t : K) ≤ grantsFrom clock (a :: log) s :=
        Nat.cast_le.mpr (grantsIn_le_grantsFrom _ s t)
      have hold := hpaid s hin.1
      have hgain := mul_nonneg hrate (sub_nonneg.mpr hin.2)
      have hsum : rate * (t - s) =
          rate * (t - clock a) + rate * (clock a - s) := by ring
      linarith
    · have hcount : grantsIn clock (a :: log) s t = grantsIn clock log s t :=
        List.countP_cons_of_neg (by simpa using hout)
      rw [hcount]
      exact h.conforms s t hst

end Bucket

section Window

variable {time index : Type} [LinearOrder index] (window : time -> index)

def grantsOf (log : List time) (w : index) : Nat :=
  log.countP (fun a => window a = w)

/-- A counter for the current window, which no grant is past. -/
structure Counted (limit : Nat) (log : List time) (current : index) (count : Nat) : Prop where
  past : forall a, a ∈ log -> window a ≤ current
  counted : grantsOf window log current ≤ count
  within : forall w, grantsOf window log w ≤ limit

variable {window} {limit count : Nat} {log : List time} {current : index}

theorem counted_nil : Counted window limit [] current 0 :=
  ⟨fun _ ha => absurd ha List.not_mem_nil, Nat.zero_le 0, fun _ => Nat.zero_le limit⟩

theorem Counted.roll (h : Counted window limit log current count)
    {next : index} (hnext : current < next) :
    Counted window limit log next 0 := by
  refine ⟨fun a ha => (h.past a ha).trans hnext.le, ?_, h.within⟩
  refine Nat.le_of_eq (List.countP_eq_zero.mpr ?_)
  intro a ha
  have hlt := lt_of_le_of_lt (h.past a ha) hnext
  simpa using hlt.ne

theorem Counted.grant (h : Counted window limit log current count) {a : time}
    (ha : window a = current) (hlimit : count + 1 ≤ limit) :
    Counted window limit (a :: log) current (count + 1) := by
  have hself : grantsOf window (a :: log) current = grantsOf window log current + 1 :=
    List.countP_cons_of_pos (decide_eq_true ha)
  refine ⟨?_, ?_, ?_⟩
  · intro b hb
    rcases List.mem_cons.mp hb with hb | hb
    · rw [hb, ha]
    · exact h.past b hb
  · have hcounted := h.counted
    lia
  · intro w
    rcases eq_or_ne (window a) w with hw | hw
    · rw [← hw, ha, hself]
      have hcounted := h.counted
      lia
    · have hcount : grantsOf window (a :: log) w = grantsOf window log w :=
        List.countP_cons_of_neg (by simpa using hw)
      rw [hcount]
      exact h.within w

end Window

end Quota
end Lib
end PrxWaf
