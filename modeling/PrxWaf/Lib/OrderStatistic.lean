import Mathlib.Data.List.Sort

/-!
# Order statistics

The n-th smallest entry of a list, with ties counted: fewer than n entries are below
it, and at least n are not above it.
-/

namespace PrxWaf
namespace Lib

variable {α : Type u} [LinearOrder α]

structure IsNthSmallest (n : Nat) (v : α) (l : List α) : Prop where
  below : l.countP (fun x => x < v) < n
  within : n ≤ l.countP (fun x => x ≤ v)

namespace IsNthSmallest

variable {n : Nat} {v w : α} {l l' : List α}

/-- Of two candidates the smaller one would have too few entries up to it. -/
theorem le (hv : IsNthSmallest n v l) (hw : IsNthSmallest n w l) : w ≤ v := by
  refine le_of_not_gt ?_
  intro hlt
  have hmono : l.countP (fun x => x ≤ v) ≤ l.countP (fun x => x < w) := by
    refine List.countP_mono_left ?_
    intro x _ hx
    rw [decide_eq_true_eq] at hx ⊢
    exact lt_of_le_of_lt hx hlt
  have hbelow := hw.below
  have hwithin := hv.within
  lia

theorem unique (hv : IsNthSmallest n v l) (hw : IsNthSmallest n w l) : v = w :=
  le_antisymm (hw.le hv) (hv.le hw)

theorem perm (h : IsNthSmallest n v l) (hperm : l.Perm l') :
    IsNthSmallest n v l' where
  below := by
    rw [← hperm.countP_eq]
    exact h.below
  within := by
    rw [← hperm.countP_eq]
    exact h.within

theorem of_sorted {front back : List α} (hsorted : (front ++ v :: back).Pairwise (· ≤ ·)) :
    IsNthSmallest (front.length + 1) v (front ++ v :: back) := by
  obtain ⟨-, hback, hcross⟩ := List.pairwise_append.mp hsorted
  have hlater : (v :: back).countP (fun x => x < v) = 0 := by
    refine List.countP_eq_zero.mpr ?_
    intro x hx
    rw [decide_eq_true_eq]
    rcases List.mem_cons.mp hx with rfl | hx
    · exact lt_irrefl x
    · exact not_lt_of_ge (List.rel_of_pairwise_cons hback hx)
  have hearlier : front.countP (fun x => x ≤ v) = front.length := by
    refine List.countP_eq_length.mpr ?_
    intro x hx
    exact decide_eq_true (hcross x hx v List.mem_cons_self)
  constructor
  · rw [List.countP_append, hlater, Nat.add_zero]
    exact Nat.lt_succ_of_le List.countP_le_length
  · have hself : 0 < (v :: back).countP (fun x => x ≤ v) := List.countP_pos_iff.mpr
        ⟨v, List.mem_cons_self, decide_eq_true (le_refl v)⟩
    rw [List.countP_append, hearlier]
    lia

theorem of_insertionSort {i : Nat} (h : (l.insertionSort (· ≤ ·))[i]? = some v) :
    IsNthSmallest (i + 1) v l := by
  obtain ⟨hlt, hentry⟩ := List.getElem?_eq_some_iff.mp h
  have hsplit : l.insertionSort (· ≤ ·) = (l.insertionSort (· ≤ ·)).take i ++
        v :: (l.insertionSort (· ≤ ·)).drop (i + 1) := by
    rw [← hentry, ← List.drop_eq_getElem_cons hlt, List.take_append_drop]
  have hsorted := List.pairwise_insertionSort (· ≤ ·) l
  rw [hsplit] at hsorted
  have hstat := of_sorted hsorted
  rw [← hsplit, List.length_take_of_le (Nat.le_of_lt hlt)] at hstat
  exact hstat.perm (List.perm_insertionSort (· ≤ ·) l)

/-- A property that smaller entries share holds of the n-th smallest entry exactly if
n entries have it. -/
theorem downward_iff (h : IsNthSmallest n v l) {p : α -> Bool}
    (hdown : forall x y, x ≤ y -> p y = true -> p x = true) :
    p v = true <-> n ≤ l.countP p := by
  constructor
  · intro hv
    refine h.within.trans (List.countP_mono_left ?_)
    intro x _ hx
    exact hdown x v (of_decide_eq_true hx) hv
  · intro hmany
    by_contra hnot
    have hbelow : l.countP p ≤ l.countP (fun x => x < v) := by
      refine List.countP_mono_left ?_
      intro x _ hx
      refine decide_eq_true (lt_of_not_ge ?_)
      intro hle
      exact hnot (hdown v x hle hx)
    exact Nat.not_lt_of_le (hmany.trans hbelow) h.below

end IsNthSmallest

omit [LinearOrder α] in
/-- Entries that have one of two exclusive properties are counted one after the
other. -/
theorem countP_add_of_disjoint {p q r : α -> Bool} {l : List α}
    (hor : forall x, x ∈ l -> (r x = true <-> p x = true ∨ q x = true))
    (hdisjoint : forall x, x ∈ l -> p x = true -> q x = false) :
    l.countP p + l.countP q = l.countP r := by
  induction l with
  | nil => rfl
  | cons x rest ih =>
    have hrest := ih (fun y hy => hor y (List.mem_cons_of_mem x hy))
      (fun y hy => hdisjoint y (List.mem_cons_of_mem x hy))
    have hx := hor x List.mem_cons_self
    have hnot := hdisjoint x List.mem_cons_self
    rw [List.countP_cons, List.countP_cons, List.countP_cons]
    cases hp : p x with
    | true =>
      rw [hnot hp, hx.mpr (Or.inl hp)]
      simp only [Bool.false_eq_true, if_true, if_false]
      lia
    | false =>
      have hr : r x = q x := by
        rw [Bool.eq_iff_iff, hx, hp]
        simp
      rw [hr]
      simp only [Bool.false_eq_true, if_false]
      lia

end Lib
end PrxWaf
