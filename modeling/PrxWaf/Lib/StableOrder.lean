import Mathlib.Data.List.Sort
import Mathlib.Order.Lattice

/-!
# Lists kept in a stable order

A list is kept in ascending order of a key, and items with one key stand in the
order in which they arrived.  This is what is left of the arrivals when the list is
sorted by a stable sort after every arrival, and thinned out in between.
-/

namespace PrxWaf
namespace Lib

variable {item key : Type} [LinearOrder key] (keyOf : item -> key)

structure InStableOrder (arrivals items : List item) : Prop where
  ascending : items.Pairwise (fun a b => keyOf a ≤ keyOf b)
  ties : forall k, items.filter (fun x => keyOf x = k) = arrivals.filter (fun x => keyOf x = k)

theorem inStableOrder_nil : InStableOrder keyOf [] [] :=
  ⟨List.Pairwise.nil, fun _ => rfl⟩

/-- Sorting does not move items with one key past each other. -/
theorem filter_insertionSort (items : List item) (k : key) :
    (items.insertionSort (fun a b => keyOf a ≤ keyOf b)).filter (fun x => keyOf x = k) =
      items.filter (fun x => keyOf x = k) := by
  have hsame : (items.filter (fun x => keyOf x = k)).Pairwise (fun a b => keyOf a ≤ keyOf b) := by
    refine List.pairwise_of_forall_mem_list ?_
    intro a ha b hb
    rw [List.mem_filter, decide_eq_true_eq] at ha hb
    rw [ha.2, hb.2]
  have hsub := (List.sublist_insertionSort hsame List.filter_sublist).filter
    (fun x => decide (keyOf x = k))
  rw [List.filter_filter] at hsub
  simp only [Bool.and_self] at hsub
  refine (hsub.eq_of_length ?_).symm
  exact ((List.perm_insertionSort _ items).filter _).length_eq.symm

theorem inStableOrder_insertionSort (items : List item) :
    InStableOrder keyOf items (items.insertionSort (fun a b => keyOf a ≤ keyOf b)) := by
  have htotal : Std.Total (fun a b : item => keyOf a ≤ keyOf b) :=
    ⟨fun a b => le_total (keyOf a) (keyOf b)⟩
  have htrans : IsTrans item (fun a b => keyOf a ≤ keyOf b) := ⟨fun _ _ _ => le_trans⟩
  exact ⟨List.pairwise_insertionSort _ items, filter_insertionSort keyOf items⟩

variable {keyOf} {arrivals items : List item}

theorem InStableOrder.mem_iff (h : InStableOrder keyOf arrivals items) {x : item} :
    x ∈ items <-> x ∈ arrivals := by
  have hties := congrArg (fun xs => x ∈ xs) (h.ties (keyOf x))
  simpa [List.mem_filter] using hties

theorem InStableOrder.insertionSort_append
    (h : InStableOrder keyOf arrivals items) (more : List item) :
    InStableOrder keyOf (arrivals ++ more)
      ((items ++ more).insertionSort (fun a b => keyOf a ≤ keyOf b)) := by
  have hsorted := inStableOrder_insertionSort keyOf (items ++ more)
  refine ⟨hsorted.ascending, ?_⟩
  intro k
  rw [hsorted.ties, List.filter_append, List.filter_append, h.ties]

theorem InStableOrder.filter (h : InStableOrder keyOf arrivals items) (keep : item -> Bool) :
    InStableOrder keyOf (arrivals.filter keep) (items.filter keep) := by
  refine ⟨h.ascending.filter keep, ?_⟩
  intro k
  rw [List.filter_comm, h.ties, List.filter_comm]

end Lib
end PrxWaf
