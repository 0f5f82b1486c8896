import Mathlib

/-!
# Two token buckets of one capacity

A bucket is refilled at a rate per tick up to its capacity, and each request
takes a token if there is one.  Two buckets with different rates are compared by
their outcomes: they cannot be told apart exactly when the rates are equal, or
when both rates are so high that every tick leaves room for at most one token and
the missing fractions add up to it after the same number of ticks.
-/

namespace PrxWaf
namespace Lib
namespace BucketPair

variable {K : Type} [Field K] [LinearOrder K]

def refill (capacity : Nat) (rate : K) (ticks : Nat) (level : K) : K :=
  min (capacity : K) (level + ticks * rate)

def taken (level : K) : K :=
  if 1 ≤ level then level - 1 else level

/-- Whether each of a list of requests gets a token, after the waits between
them. -/
def outcomes (capacity : Nat) (rate : K) : K -> List Nat -> List Bool
  | _, [] => []
  | level, ticks :: rest =>
    decide (1 ≤ refill capacity rate ticks level) ::
      outcomes capacity rate (taken (refill capacity rate ticks level)) rest

def Indistinct (capacity : Nat) (rate rate' x y : K) : Prop :=
  forall waits, outcomes capacity rate x waits = outcomes capacity rate' y waits

def Tested (capacity : Nat) (rate rate' x y : K) : Prop :=
  (1 ≤ x <-> 1 ≤ y) ∧ Indistinct capacity rate rate' (taken x) (taken y)

variable {capacity : Nat} {rate rate' x y : K}

theorem Indistinct.tested (h : Indistinct capacity rate rate' x y) (ticks : Nat) :
    Tested capacity rate rate' (refill capacity rate ticks x) (refill capacity rate' ticks y) := by
  refine ⟨?_, ?_⟩
  · have hone := h [ticks]
    injection hone with hhead
    exact decide_eq_decide.mp hhead
  · intro waits
    have hall := h (ticks :: waits)
    injection hall

theorem indistinct_of_related {I : K -> K -> Prop} (hstep : forall {x y} ticks, I x y ->
      (1 ≤ refill capacity rate ticks x <-> 1 ≤ refill capacity rate' ticks y) ∧
      I (taken (refill capacity rate ticks x)) (taken (refill capacity rate' ticks y)))
    (h : I x y) : Indistinct capacity rate rate' x y := by
  intro waits
  induction waits generalizing x y with
  | nil => rfl
  | cons ticks rest ih =>
    rcases hstep ticks h with ⟨hone, hrest⟩
    rw [outcomes, outcomes, decide_eq_decide.mpr hone, ih hrest]

theorem refill_zero (hx : x ≤ capacity) : refill capacity rate 0 x = x := by
  unfold refill
  rw [Nat.cast_zero, zero_mul, add_zero, min_eq_right hx]

theorem taken_of_le (h : 1 ≤ x) : taken x = x - 1 :=
  if_pos h

theorem taken_of_lt (h : x < 1) : taken x = x :=
  if_neg (not_le.mpr h)

variable [IsStrictOrderedRing K]

theorem refill_succ (hrate : 0 ≤ rate) (ticks : Nat) (x : K) :
    refill capacity rate (ticks + 1) x = refill capacity rate 1 (refill capacity rate ticks x) := by
  unfold refill
  rw [← min_add_add_right, ← min_assoc, Nat.cast_add, Nat.cast_one, one_mul,
    min_eq_left (le_add_of_nonneg_right hrate)]
  ring_nf

theorem refill_full (hrate : 0 ≤ rate) (ticks : Nat) :
    refill capacity rate ticks capacity = capacity := by
  unfold refill
  exact min_eq_left (le_add_of_nonneg_right (mul_nonneg (Nat.cast_nonneg ticks) hrate))

/-- The first request finds a full bucket whenever it comes. -/
theorem indistinct_full (hcapacity : 1 ≤ capacity) (hrate : 0 ≤ rate) (hrate' : 0 ≤ rate')
    (h : Indistinct capacity rate rate' ((capacity : K) - 1) ((capacity : K) - 1)) :
    Indistinct capacity rate rate' capacity capacity := by
  have hone : (1 : K) ≤ capacity := Nat.one_le_cast.mpr hcapacity
  intro waits
  cases waits with
  | nil => rfl
  | cons ticks rest =>
    rw [outcomes, outcomes, refill_full hrate, refill_full hrate', taken_of_le hone, h rest]

/-- Both rates leave less than one token of room at every tick, and their
excesses reach a token at the same multiples. -/
def SameExcess (capacity : Nat) (rate rate' : K) : Prop :=
  (capacity : K) - 1 < rate ∧ (capacity : K) - 1 < rate' ∧
    forall k : Nat, 1 ≤ k * (rate - (capacity - 1)) <-> 1 ≤ k * (rate' - (capacity - 1))

/-- The levels have the same whole tokens and the same number of excesses. -/
def InStep (capacity : Nat) (rate rate' x y : K) : Prop :=
  exists m j : Nat,
    x = m + j * (rate - (capacity - 1)) ∧
    y = m + j * (rate' - (capacity - 1)) ∧
    j * (rate - (capacity - 1)) < 1 ∧ j * (rate' - (capacity - 1)) < 1 ∧
    x ≤ capacity ∧ y ≤ capacity

theorem inStep_full : InStep capacity rate rate' capacity capacity := by
  refine ⟨capacity, 0, ?_, ?_, ?_, ?_, le_refl _, le_refl _⟩
  · rw [Nat.cast_zero, zero_mul, add_zero]
  · rw [Nat.cast_zero, zero_mul, add_zero]
  · rw [Nat.cast_zero, zero_mul]
    exact one_pos
  · rw [Nat.cast_zero, zero_mul]
    exact one_pos

theorem SameExcess.multiples_nonneg (h : SameExcess capacity rate rate') (j : Nat) :
    0 ≤ j * (rate - (capacity - 1)) ∧ 0 ≤ j * (rate' - (capacity - 1)) :=
  ⟨mul_nonneg (Nat.cast_nonneg j) (sub_nonneg.mpr h.1.le),
    mul_nonneg (Nat.cast_nonneg j) (sub_nonneg.mpr h.2.1.le)⟩

theorem InStep.tick (hcapacity : 1 ≤ capacity) (hsame : SameExcess capacity rate rate')
    (h : InStep capacity rate rate' x y) :
    InStep capacity rate rate' (refill capacity rate 1 x) (refill capacity rate' 1 y) := by
  rcases h with ⟨m, j, hx, hy, hj, hj', _, _⟩
  rcases hsame.multiples_nonneg j with ⟨hj0, hj0'⟩
  rcases hsame with ⟨hrate, hrate', hexcess⟩
  unfold refill
  rw [Nat.cast_one, one_mul, one_mul]
  have hnext := hexcess (j + 1)
  rw [Nat.cast_add, Nat.cast_one] at hnext
  rcases Nat.eq_zero_or_pos m with hm | hm
  · rw [hm, Nat.cast_zero, zero_add] at hx hy
    rcases le_or_gt 1 (((j : K) + 1) * (rate - (capacity - 1))) with hfull | hroom
    · have hfull' := hnext.mp hfull
      rw [min_eq_left (by linarith), min_eq_left (by linarith)]
      exact inStep_full
    · have hroom' := not_le.mp (fun hle => absurd (hnext.mpr hle) (not_le.mpr hroom))
      rw [min_eq_right (by linarith), min_eq_right (by linarith)]
      refine ⟨capacity - 1, j + 1, ?_, ?_, ?_, ?_, ?_, ?_⟩
      · rw [Nat.cast_sub hcapacity, Nat.cast_add, Nat.cast_one, hx]
        ring
      · rw [Nat.cast_sub hcapacity, Nat.cast_add, Nat.cast_one, hy]
        ring
      · rw [Nat.cast_add, Nat.cast_one]
        exact hroom
      · rw [Nat.cast_add, Nat.cast_one]
        exact hroom'
      · linarith
      · linarith
  · have hm1 : (1 : K) ≤ m := Nat.one_le_cast.mpr hm
    rw [min_eq_left (by linarith), min_eq_left (by linarith)]
    exact inStep_full

theorem InStep.refill (hcapacity : 1 ≤ capacity) (hsame : SameExcess capacity rate rate')
    (h : InStep capacity rate rate' x y) (ticks : Nat) :
    InStep capacity rate rate' (refill capacity rate ticks x) (refill capacity rate' ticks y) := by
  have hone : (1 : K) ≤ capacity := Nat.one_le_cast.mpr hcapacity
  induction ticks with
  | zero =>
    rcases h with ⟨m, j, hx, hy, hj, hj', hle, hle'⟩
    rw [refill_zero hle, refill_zero hle']
    exact ⟨m, j, hx, hy, hj, hj', hle, hle'⟩
  | succ ticks ih =>
    have hrate : 0 ≤ rate := by linarith [hsame.1]
    have hrate' : 0 ≤ rate' := by linarith [hsame.2.1]
    rw [refill_succ hrate, refill_succ hrate']
    exact ih.tick hcapacity hsame

theorem InStep.take (hsame : SameExcess capacity rate rate') (h : InStep capacity rate rate' x y) :
    (1 ≤ x <-> 1 ≤ y) ∧ InStep capacity rate rate' (taken x) (taken y) := by
  rcases h with ⟨m, j, hx, hy, hj, hj', hle, hle'⟩
  rcases hsame.multiples_nonneg j with ⟨hj0, hj0'⟩
  cases m with
  | zero =>
    rw [Nat.cast_zero, zero_add] at hx hy
    have hlt : x < 1 := by linarith
    have hlt' : y < 1 := by linarith
    rw [taken_of_lt hlt, taken_of_lt hlt']
    refine ⟨⟨fun h => absurd h (not_le.mpr hlt), fun h => absurd h (not_le.mpr hlt')⟩, ?_⟩
    exact ⟨0, j, by rw [Nat.cast_zero, zero_add, hx],
      by rw [Nat.cast_zero, zero_add, hy], hj, hj', hle, hle'⟩
  | succ m =>
    rw [Nat.cast_add, Nat.cast_one] at hx hy
    have hm : (0 : K) ≤ m := Nat.cast_nonneg m
    have hone : 1 ≤ x := by linarith
    have hone' : 1 ≤ y := by linarith
    rw [taken_of_le hone, taken_of_le hone']
    refine ⟨⟨fun _ => hone', fun _ => hone⟩, ?_⟩
    exact ⟨m, j, by linarith, by linarith, hj, hj', by linarith, by linarith⟩

theorem indistinct_of_sameExcess (hcapacity : 1 ≤ capacity)
    (hsame : SameExcess capacity rate rate') :
    Indistinct capacity rate rate' capacity capacity :=
  indistinct_of_related (fun ticks h => (h.refill hcapacity hsame ticks).take hsame) inStep_full

theorem Tested.levels (h : Tested capacity rate rate' x y) (hx : 0 ≤ x)
    (hy : 0 ≤ y) (hxc : x ≤ capacity) (hyc : y ≤ capacity) (n : Nat) :
    ((n : K) ≤ x <-> (n : K) ≤ y) ∧
      ((n : K) ≤ x -> Tested capacity rate rate' (x - n) (y - n)) := by
  induction n with
  | zero =>
    rw [Nat.cast_zero, sub_zero, sub_zero]
    exact ⟨⟨fun _ => hy, fun _ => hx⟩, fun _ => h⟩
  | succ n ih =>
    rw [Nat.cast_add, Nat.cast_one]
    have hn : (0 : K) ≤ n := Nat.cast_nonneg n
    refine ⟨⟨?_, ?_⟩, ?_⟩
    · intro hle
      have htested := ih.2 (by linarith)
      have hone := htested.1.mp (by linarith)
      linarith
    · intro hle
      have htested := ih.2 (ih.1.mpr (by linarith))
      have hone := htested.1.mpr (by linarith)
      linarith
    · intro hle
      have htested := ih.2 (by linarith)
      have hone : 1 ≤ x - n := by linarith
      have hone' := htested.1.mp hone
      have hrest := htested.2
      rw [taken_of_le hone, taken_of_le hone'] at hrest
      have hagain := hrest.tested 0
      rw [refill_zero (by linarith), refill_zero (by linarith)] at hagain
      rw [← sub_sub, ← sub_sub]
      exact hagain

theorem Indistinct.emptied (h : Indistinct capacity rate rate' capacity capacity) :
    Indistinct capacity rate rate' 0 0 := by
  have htested := h.tested 0
  rw [refill_zero (le_refl _), refill_zero (le_refl _)] at htested
  have hcapacity : (0 : K) ≤ capacity := Nat.cast_nonneg capacity
  have hlast := (htested.levels hcapacity hcapacity (le_refl _) (le_refl _) capacity).2 (le_refl _)
  rw [sub_self] at hlast
  have hrest := hlast.2
  rw [taken_of_lt one_pos] at hrest
  exact hrest

/-- After a number of ticks, in each of which all whole tokens were taken, less
than a token is left in both buckets. -/
structure Drained (capacity : Nat) (rate rate' : K) (k granted : Nat) : Prop where
  indistinct : Indistinct capacity rate rate' (k * rate - granted)
    (k * rate' - granted)
  nonneg : 0 ≤ k * rate - granted
  nonneg' : 0 ≤ k * rate' - granted
  lt_one : k * rate - granted < 1
  lt_one' : k * rate' - granted < 1
  fast : (capacity : K) - 1 < rate -> (granted : K) = k * ((capacity : K) - 1)

theorem one_le_mul_iff_lt {e : K} (he : 0 ≤ e) {k : Nat} (hbelow : k * e < 1)
    (hreached : 1 ≤ (k + 1) * e) (i : Nat) : 1 ≤ i * e <-> k < i := by
  constructor
  · intro hi
    refine Nat.lt_of_not_le (fun hik => absurd hi (not_le.mpr ?_))
    have hle : (i : K) ≤ k := Nat.cast_le.mpr hik
    exact lt_of_le_of_lt (mul_le_mul_of_nonneg_right hle he) hbelow
  · intro hki
    have hle : (k : K) + 1 ≤ i := by
      exact_mod_cast hki
    exact hreached.trans (mul_le_mul_of_nonneg_right hle he)

variable {k granted : Nat}

theorem Drained.sameExcess (h : Drained capacity rate rate' k granted)
    (hfull : (capacity : K) ≤ k * rate - granted + rate)
    (hfull' : (capacity : K) ≤ k * rate' - granted + rate') :
    SameExcess capacity rate rate' := by
  have hrate : (capacity : K) - 1 < rate := by linarith [h.lt_one]
  have hrate' : (capacity : K) - 1 < rate' := by linarith [h.lt_one']
  have hgranted := h.fast hrate
  have hlt := h.lt_one
  have hlt' := h.lt_one'
  rw [hgranted, ← mul_sub] at hlt hlt' hfull hfull'
  refine ⟨hrate, hrate', ?_⟩
  intro i
  rw [one_le_mul_iff_lt (sub_nonneg.mpr hrate.le) hlt (by linarith) i,
    one_le_mul_iff_lt (sub_nonneg.mpr hrate'.le) hlt' (by linarith) i]

theorem Drained.take {n : Nat} (h : Drained capacity rate rate' k granted)
    (hroom : k * rate - granted + rate < capacity) (hle : (n : K) ≤ k * rate - granted + rate)
    (hlt : k * rate - granted + rate < n + 1) (hle' : (n : K) ≤ k * rate' - granted + rate')
    (hlt' : k * rate' - granted + rate' < n + 1)
    (htested : Tested capacity rate rate' (k * rate - granted + rate - n)
      (k * rate' - granted + rate' - n)) :
    Drained capacity rate rate' (k + 1) (granted + n) := by
  have hleft : forall r : K, ((k + 1 : Nat) : K) * r - (granted + n : Nat) =
      k * r - granted + r - n := by
    intro r
    rw [Nat.cast_add, Nat.cast_add, Nat.cast_one]
    ring
  have hrest := htested.2
  rw [taken_of_lt (by linarith), taken_of_lt (by linarith), ← hleft, ← hleft] at hrest
  refine ⟨hrest, ?_, ?_, ?_, ?_, ?_⟩
  · rw [hleft]
    linarith
  · rw [hleft]
    linarith
  · rw [hleft]
    linarith
  · rw [hleft]
    linarith
  · intro hfast
    have hnonneg := h.nonneg
    have hbelow : n < capacity := Nat.cast_lt.mp (lt_of_le_of_lt hle hroom)
    have habove : capacity < n + 2 := by
      have hcast : (capacity : K) < (n + 2 : Nat) := by
        rw [Nat.cast_add, Nat.cast_ofNat]
        linarith
      exact Nat.cast_lt.mp hcast
    have hcapacity : capacity = n + 1 := by lia
    have hone : (capacity : K) - 1 = n := by
      rw [hcapacity, Nat.cast_add, Nat.cast_one, add_sub_cancel_right]
    have hgranted := h.fast hfast
    rw [hone] at hgranted ⊢
    rw [Nat.cast_add, Nat.cast_add, Nat.cast_one, hgranted]
    ring

variable [FloorSemiring K]

theorem Drained.next (hrate : 0 ≤ rate) (hrate' : 0 ≤ rate')
    (h : Drained capacity rate rate' k granted) :
    SameExcess capacity rate rate' ∨
      exists granted', Drained capacity rate rate' (k + 1) granted' := by
  have hx := add_nonneg h.nonneg hrate
  have hy := add_nonneg h.nonneg' hrate'
  have hc : (0 : K) ≤ capacity := Nat.cast_nonneg capacity
  have htested := h.indistinct.tested 1
  unfold refill at htested
  rw [Nat.cast_one, one_mul, one_mul] at htested
  have hlevels := htested.levels (le_min hc hx) (le_min hc hy) (min_le_left _ _) (min_le_left _ _)
  rcases le_or_gt (capacity : K) (k * rate - granted + rate) with hfull | hroom
  · have hfull' := ((hlevels capacity).1.mp (le_min (le_refl _) hfull)).trans (min_le_right _ _)
    exact Or.inl (h.sameExcess hfull hfull')
  rcases le_or_gt (capacity : K) (k * rate' - granted + rate') with hfull' | hroom'
  · have hfull := ((hlevels capacity).1.mpr (le_min (le_refl _) hfull')).trans (min_le_right _ _)
    exact absurd hfull (not_le.mpr hroom)
  · rw [min_eq_right hroom.le, min_eq_right hroom'.le] at hlevels
    have hwhole : exists n : Nat, (n : K) ≤ k * rate - granted + rate ∧
        k * rate - granted + rate < n + 1 := ⟨_, Nat.floor_le hx, Nat.lt_floor_add_one _⟩
    rcases hwhole with ⟨n, hle, hlt⟩
    have hlt' : k * rate' - granted + rate' < (n : K) + 1 := by
      refine not_le.mp (fun hmore => absurd ?_ (not_le.mpr hlt))
      have hnext := (hlevels (n + 1)).1
      rw [Nat.cast_add, Nat.cast_one] at hnext
      exact hnext.mpr hmore
    exact Or.inr ⟨granted + n, h.take hroom hle hlt ((hlevels n).1.mp hle) hlt' ((hlevels n).2 hle)⟩

theorem eq_of_multiples_close {a b : K}
    (h : forall k : Nat, exists g : K, 0 ≤ k * a - g ∧ k * a - g < 1 ∧
      0 ≤ k * b - g ∧ k * b - g < 1) : a = b := by
  have hnot : forall c d : K, (forall k : Nat, k * (d - c) < 1) -> d ≤ c := by
    intro c d hclose
    refine not_lt.mp ?_
    intro hlt
    have hpos := sub_pos.mpr hlt
    have hmany := (div_lt_iff₀ hpos).mp (Nat.lt_floor_add_one (1 / (d - c)))
    have hfew := hclose (⌊1 / (d - c)⌋₊ + 1)
    rw [Nat.cast_add, Nat.cast_one] at hfew
    linarith
  refine le_antisymm (hnot b a ?_) (hnot a b ?_)
  · intro k
    rcases h k with ⟨g, ha, ha1, hb, hb1⟩
    rw [mul_sub]
    linarith
  · intro k
    rcases h k with ⟨g, ha, ha1, hb, hb1⟩
    rw [mul_sub]
    linarith

/-- Two full buckets cannot be told apart exactly when their rates are equal or
have the same excess. -/
theorem indistinct_iff (hcapacity : 1 ≤ capacity) (hrate : 0 ≤ rate) (hrate' : 0 ≤ rate') :
    Indistinct capacity rate rate' capacity capacity <->
      rate = rate' ∨ SameExcess capacity rate rate' := by
  constructor
  · intro h
    rcases Classical.em (SameExcess capacity rate rate') with hsame | hsame
    · exact Or.inr hsame
    left
    have hdrained : forall k, exists granted, Drained capacity rate rate' k granted := by
      intro k
      induction k with
      | zero =>
        have hempty := h.emptied
        refine ⟨0, ?_, ?_, ?_, ?_, ?_, ?_⟩
        · rw [Nat.cast_zero, zero_mul, zero_mul, sub_zero]
          exact hempty
        all_goals simp
      | succ k ih =>
        rcases ih with ⟨granted, hk⟩
        exact (hk.next hrate hrate').resolve_left hsame
    refine eq_of_multiples_close ?_
    intro k
    rcases hdrained k with ⟨granted, hk⟩
    exact ⟨granted, hk.nonneg, hk.lt_one, hk.nonneg', hk.lt_one'⟩
  · rintro (heq | hsame)
    · rw [heq]
      exact fun _ => rfl
    · exact indistinct_of_sameExcess hcapacity hsame

end BucketPair
end Lib
end PrxWaf
