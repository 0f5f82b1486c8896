import Mathlib.Logic.Function.Basic

/-!
# Maps under a list of edits

An edit sets or removes the value of one key.  After a list of edits a key that
was touched has a value that does not depend on the map one began with, and every
other key has the value it had.
-/

namespace PrxWaf
namespace Lib

inductive Edit (key : Type u) (value : Type v) where
  | put (k : key) (x : value)
  | del (k : key)

namespace Edit

variable {key : Type u} {value : Type v}

def touched : Edit key value -> key
  | put k _ => k
  | del k => k

def result : Edit key value -> Option value
  | put _ x => some x
  | del _ => none

variable [DecidableEq key]

def apply (m : key -> Option value) (e : Edit key value) : key -> Option value :=
  Function.update m e.touched e.result

def applyAll (m : key -> Option value) (edits : List (Edit key value)) : key -> Option value :=
  edits.foldl apply m

variable {m n : key -> Option value} {edits : List (Edit key value)} {k : key}

theorem applyAll_cons (e : Edit key value) :
    applyAll m (e :: edits) = applyAll (apply m e) edits :=
  rfl

theorem applyAll_append (later : List (Edit key value)) :
    applyAll m (edits ++ later) = applyAll (applyAll m edits) later :=
  List.foldl_append

theorem applyAll_of_untouched (h : k ∉ edits.map touched) :
    applyAll m edits k = m k := by
  induction edits generalizing m with
  | nil => rfl
  | cons e rest ih =>
    rw [List.map_cons, List.mem_cons, not_or] at h
    rw [applyAll_cons, ih h.right]
    exact Function.update_of_ne h.left _ _

theorem applyAll_of_result {r : Option value} (hk : k ∈ edits.map touched)
    (h : forall e, e ∈ edits -> e.touched = k -> e.result = r) :
    applyAll m edits k = r := by
  induction edits generalizing m with
  | nil => cases hk
  | cons e rest ih =>
    have hrest := fun later hlater => h later (List.mem_cons_of_mem e hlater)
    rw [applyAll_cons]
    rcases Decidable.em (k ∈ rest.map touched) with hlater | hnot
    · exact ih hlater hrest
    · rw [List.map_cons, List.mem_cons, or_iff_left hnot] at hk
      rw [applyAll_of_untouched hnot, ← h e List.mem_cons_self hk.symm, hk]
      exact Function.update_self ..

theorem applyAll_cases (m : key -> Option value) (edits : List (Edit key value)) (k : key) :
    applyAll m edits k = m k ∨
      exists e, e ∈ edits ∧ e.touched = k ∧ applyAll m edits k = e.result := by
  induction edits generalizing m with
  | nil => exact Or.inl rfl
  | cons e rest ih =>
    rw [applyAll_cons]
    rcases ih (apply m e) with hkept | ⟨later, hlater, htouched, hresult⟩
    · rcases Decidable.em (k = e.touched) with heq | hne
      · refine Or.inr ⟨e, List.mem_cons_self, heq.symm, ?_⟩
        rw [hkept, heq]
        exact Function.update_self ..
      · rw [hkept]
        exact Or.inl (Function.update_of_ne hne _ _)
    · exact Or.inr ⟨later, List.mem_cons_of_mem e hlater, htouched, hresult⟩

theorem applyAll_congr (h : k ∈ edits.map touched ∨ m k = n k) :
    applyAll m edits k = applyAll n edits k := by
  induction edits generalizing m n with
  | nil => exact h.resolve_left List.not_mem_nil
  | cons e rest ih =>
    rw [applyAll_cons, applyAll_cons]
    apply ih
    rcases Decidable.em (k = e.touched) with heq | hne
    · right
      simp only [apply, heq, Function.update_self]
    · rw [List.map_cons, List.mem_cons, or_iff_right hne] at h
      rcases h with hlater | hsame
      · exact Or.inl hlater
      · right
        simp only [apply, Function.update_of_ne hne, hsame]

theorem applyAll_eq_iff :
    applyAll m edits = applyAll n edits <-> forall k, k ∉ edits.map touched -> m k = n k := by
  constructor
  · intro heq k hk
    have hvalue := congrFun heq k
    rw [applyAll_of_untouched hk, applyAll_of_untouched hk] at hvalue
    exact hvalue
  · intro hsame
    funext k
    apply applyAll_congr
    rcases Decidable.em (k ∈ edits.map touched) with hk | hk
    · exact Or.inl hk
    · exact Or.inr (hsame k hk)

end Edit

end Lib
end PrxWaf
