import Mathlib.Data.List.Basic

/-!
# Traversals that can fail

A list is mapped through a function that may fail, and the first failure is the
result.  These lemmas say what a successful traversal has gone through.
-/

namespace PrxWaf
namespace Lib

variable {xs : List source} {ys : List target} {f : source -> Except err target}

theorem filterMap_of_mapM_some {f : source -> Option target}
    (h : xs.mapM f = some ys) : ys = xs.filterMap f := by
  induction xs generalizing ys with
  | nil =>
    injection h with hys
    exact hys.symm
  | cons t rest ih =>
    rw [List.mapM_cons] at h
    cases ht : f t with
    | none =>
      rw [ht] at h
      cases h
    | some a =>
      cases hrest : rest.mapM f with
      | none =>
        rw [ht, hrest] at h
        cases h
      | some as =>
        rw [ht, hrest] at h
        injection h with hys
        rw [List.filterMap_cons_some ht, ← ih hrest, ← hys]

theorem mapM_of_forall_some {f : source -> Option target} (h : forall t, t ∈ xs -> (f t).isSome) :
    xs.mapM f = some (xs.filterMap f) := by
  induction xs with
  | nil => rfl
  | cons t rest ih =>
    rcases Option.isSome_iff_exists.mp (h t List.mem_cons_self) with ⟨a, ha⟩
    have hrest := ih (fun u hu => h u (List.mem_cons_of_mem t hu))
    rw [List.mapM_cons, ha, hrest, List.filterMap_cons_some ha]
    rfl

theorem bind_ok {x : Except err source} {y : target} (h : (x >>= f) = .ok y) :
    exists a, x = .ok a ∧ f a = .ok y := by
  cases x with
  | error e => cases h
  | ok a => exact ⟨a, rfl, h⟩

theorem map_ok {x : Except err source} {f : source -> target} {y : target}
    (h : x.map f = .ok y) : exists a, x = .ok a ∧ f a = y := by
  cases x with
  | error e => cases h
  | ok a =>
    injection h with hy
    exact ⟨a, rfl, hy⟩

theorem mapM_ok_cons {x : source} {rest : List source} (h : (x :: rest).mapM f = .ok ys) :
    exists y others, f x = .ok y ∧ rest.mapM f = .ok others ∧ ys = y :: others := by
  rw [List.mapM_cons] at h
  rcases bind_ok h with ⟨y, hy, h⟩
  rcases bind_ok h with ⟨others, hothers, h⟩
  injection h with h
  exact ⟨y, others, hy, hothers, h.symm⟩

theorem mapM_ok_mem (h : xs.mapM f = .ok ys) :
    (forall y, y ∈ ys -> exists x, x ∈ xs ∧ f x = .ok y) ∧
      (forall x, x ∈ xs -> exists y, y ∈ ys ∧ f x = .ok y) := by
  induction xs generalizing ys with
  | nil =>
    injection h with hys
    rw [← hys]
    exact ⟨fun y hy => absurd hy List.not_mem_nil, fun x hx => absurd hx List.not_mem_nil⟩
  | cons x rest ih =>
    rcases mapM_ok_cons h with ⟨y, others, hx, hrest, rfl⟩
    rcases ih hrest with ⟨hleft, hright⟩
    constructor
    · intro z hz
      rcases List.mem_cons.mp hz with heq | hmem
      · exact ⟨x, List.mem_cons_self, by rw [heq]; exact hx⟩
      · rcases hleft z hmem with ⟨w, hw, hfw⟩
        exact ⟨w, List.mem_cons_of_mem x hw, hfw⟩
    · intro z hz
      rcases List.mem_cons.mp hz with heq | hmem
      · exact ⟨y, List.mem_cons_self, by rw [heq]; exact hx⟩
      · rcases hright z hmem with ⟨w, hw, hfw⟩
        exact ⟨w, List.mem_cons_of_mem y hw, hfw⟩

/-- The order of a list does not matter for whether its traversal succeeds. -/
theorem mapM_ok_perm {xs' : List source}
    (hperm : xs.Perm xs') {ys : List target} (h : xs.mapM f = .ok ys) :
    exists ys', xs'.mapM f = .ok ys' ∧ ys.Perm ys' := by
  induction hperm generalizing ys with
  | nil => exact ⟨ys, h, List.Perm.refl ys⟩
  | cons x hrest ih =>
    rcases mapM_ok_cons h with ⟨y, others, hy, hothers, rfl⟩
    rcases ih hothers with ⟨others', hothers', hsame⟩
    refine ⟨y :: others', ?_, hsame.cons y⟩
    rw [List.mapM_cons, hy, hothers']
    rfl
  | swap x x' rest =>
    rcases mapM_ok_cons h with ⟨y', others, hy', hothers, rfl⟩
    rcases mapM_ok_cons hothers with ⟨y, others, hy, hrest, rfl⟩
    refine ⟨y :: y' :: others, ?_, List.Perm.swap y y' others⟩
    rw [List.mapM_cons, List.mapM_cons, hy, hy', hrest]
    rfl
  | trans _ _ ihleft ihright =>
    rcases ihleft h with ⟨mid, hmid, hfirst⟩
    rcases ihright hmid with ⟨last, hlast, hsecond⟩
    exact ⟨last, hlast, hfirst.trans hsecond⟩

end Lib
end PrxWaf
