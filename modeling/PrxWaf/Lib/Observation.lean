import Mathlib.Data.List.Basic

/-!
# Observations along a list

Of a list of requests an observer sees the results of some, and each result may
depend on all requests before it.  Two lists with the same visible requests look the
same exactly if at each of these, at its place in the two lists, the results are the
same.
-/

namespace PrxWaf
namespace Lib

variable {α : Type u} {β : Type v}

/-- The results at the entries that satisfy `p`, each with the entries before it. -/
def observe (p : α -> Bool) (f : List α -> α -> β) : List α -> List α -> List β
  | _, [] => []
  | past, a :: rest => (if p a then [f past a] else []) ++ observe p f (past ++ [a]) rest

variable {p : α -> Bool} {f : List α -> α -> β} {past l left right before after : List α} {a : α}

theorem observe_cons_of_pos (h : p a = true) :
    observe p f past (a :: l) = f past a :: observe p f (past ++ [a]) l := by
  rw [observe, if_pos h]
  rfl

theorem observe_cons_of_neg (h : ¬ p a = true) :
    observe p f past (a :: l) = observe p f (past ++ [a]) l := by
  rw [observe, if_neg h]
  rfl

/-- The place of a result is the number of visible entries before its own. -/
theorem observe_getElem?_of_split (f : List α -> α -> β) (past : List α)
    (hsplit : l = before ++ a :: after) (ha : p a = true) :
    (observe p f past l)[(before.filter p).length]? = some (f (past ++ before) a) := by
  induction before generalizing past l with
  | nil =>
    rw [hsplit, List.nil_append, observe_cons_of_pos ha, List.append_nil]
    rfl
  | cons x before ih =>
    have hrest := @ih (before ++ a :: after) (past ++ [x]) rfl
    rw [List.append_assoc, List.singleton_append] at hrest
    rw [hsplit, List.cons_append]
    rcases Decidable.em (p x = true) with hx | hx
    · rw [observe_cons_of_pos hx, List.filter_cons_of_pos hx, List.length_cons,
        List.getElem?_cons_succ]
      exact hrest
    · rw [observe_cons_of_neg hx, List.filter_cons_of_neg hx]
      exact hrest

theorem split_of_observe_getElem? {k : Nat} {y : β} (h : (observe p f past l)[k]? = some y) :
    exists before a after, l = before ++ a :: after ∧ p a = true ∧
      (before.filter p).length = k := by
  induction l generalizing past k with
  | nil => cases h
  | cons x rest ih =>
    rcases Decidable.em (p x = true) with hx | hx
    · rw [observe_cons_of_pos hx] at h
      cases k with
      | zero => exact ⟨[], x, rest, rfl, hx, rfl⟩
      | succ k =>
        obtain ⟨before, a, after, hsplit, ha, hk⟩ := ih h
        refine ⟨x :: before, a, after, congrArg (x :: ·) hsplit, ha, ?_⟩
        rw [List.filter_cons_of_pos hx, List.length_cons, hk]
    · rw [observe_cons_of_neg hx] at h
      obtain ⟨before, a, after, hsplit, ha, hk⟩ := ih h
      refine ⟨x :: before, a, after, congrArg (x :: ·) hsplit, ha, ?_⟩
      rw [List.filter_cons_of_neg hx, hk]

theorem split_of_filter_eq (h : left.filter p = right.filter p)
    (hsplit : left = before ++ a :: after) (ha : p a = true) :
    exists before' after', right = before' ++ a :: after' ∧
      before.filter p = before'.filter p := by
  rw [hsplit, List.filter_append, List.filter_cons_of_pos ha] at h
  obtain ⟨front, back, rfl, hfront, hback⟩ := List.filter_eq_append_iff.mp h.symm
  obtain ⟨hidden, after', rfl, hhidden, _, _⟩ := List.filter_eq_cons_iff.mp hback
  refine ⟨front ++ hidden, after', (List.append_assoc _ _ _).symm, ?_⟩
  rw [List.filter_append, hfront, List.filter_eq_nil_iff.mpr hhidden, List.append_nil]

/-- At each visible entry, at its place in the two lists, the results are the same. -/
def SameObserved (p : α -> Bool) (f : List α -> α -> β) (left right : List α) : Prop :=
  forall before a after before' after', left = before ++ a :: after ->
    right = before' ++ a :: after' -> p a = true -> before.filter p = before'.filter p ->
    f before a = f before' a

theorem observe_eq_of_getElem? (h : left.filter p = right.filter p)
    (hsame : SameObserved p f left right) {k : Nat} {y : β}
    (hy : (observe p f [] left)[k]? = some y) : (observe p f [] right)[k]? = some y := by
  obtain ⟨before, a, after, hleft, ha, rfl⟩ := split_of_observe_getElem? hy
  obtain ⟨before', after', hright, hfilter⟩ := split_of_filter_eq h hleft ha
  have hplace := observe_getElem?_of_split f [] hleft ha
  rw [hy, List.nil_append, hsame before a after before' after' hleft hright ha hfilter] at hplace
  rw [hfilter, observe_getElem?_of_split f [] hright ha, List.nil_append]
  exact hplace.symm

theorem observe_eq_iff (h : left.filter p = right.filter p) :
    observe p f [] left = observe p f [] right <-> SameObserved p f left right := by
  constructor
  · intro heq before a after before' after' hleft hright ha hfilter
    have hat := observe_getElem?_of_split f [] hleft ha
    have hat' := observe_getElem?_of_split f [] hright ha
    rw [heq, hfilter, hat'] at hat
    exact (Option.some.inj hat).symm
  · intro hsame
    have hback : SameObserved p f right left := by
      intro before a after before' after' hright hleft ha hfilter
      exact (hsame before' a after' before after hleft hright ha hfilter.symm).symm
    refine List.ext_getElem? ?_
    intro k
    refine Option.ext ?_
    intro y
    exact ⟨observe_eq_of_getElem? h hsame, observe_eq_of_getElem? h.symm hback⟩

end Lib
end PrxWaf
