import Mathlib.Data.Finset.Card
import Mathlib.Data.List.AList
import Mathlib.Data.List.Sort

/-!
# Tables

A table keeps one value for each key.  It can be thinned out by a test on the
values, and cut down to a size by removing the values that are lowest by some
measure.
-/

namespace PrxWaf
namespace Lib

def Table (key value : Type) : Type :=
  AList (fun _ : key => value)

namespace Table

variable {key value : Type} [DecidableEq key]

def empty : Table key value :=
  (∅ : AList (fun _ : key => value))

def size (table : Table key value) : Nat :=
  table.entries.length

def lookup (k : key) (table : Table key value) : Option value :=
  AList.lookup k table

def insert (k : key) (v : value) (table : Table key value) : Table key value :=
  AList.insert k v table

def erase (table : Table key value) (k : key) : Table key value :=
  AList.erase k table

def retain (keep : value -> Bool) (table : Table key value) : Table key value :=
  { entries := table.entries.filter (fun item => keep item.2)
    nodupKeys := table.nodupKeys.sublist List.filter_sublist }

/-- The keys in the order of a measure of their values. -/
def lowestFirst (measure : value -> Int) (table : Table key value) : List key :=
  (table.entries.insertionSort (fun a b => measure a.2 ≤ measure b.2)).map Sigma.fst

/-- Remove the lowest values until the limit holds. -/
def cutTo (limit : Nat) (measure : value -> Int) (table : Table key value) : Table key value :=
  if limit < table.size then
    ((table.lowestFirst measure).take (table.size - limit)).foldl erase table
  else table

/-! ## Lookups -/

variable {k other : key} {v : value} {table : Table key value}

theorem lookup_empty (k : key) : (empty : Table key value).lookup k = none :=
  AList.lookup_empty k

theorem lookup_insert_self : (table.insert k v).lookup k = some v :=
  AList.lookup_insert _

theorem lookup_insert_of_ne (hother : other ≠ k) :
    (table.insert k v).lookup other = table.lookup other :=
  AList.lookup_insert_ne hother

theorem lookup_erase_self : (table.erase k).lookup k = none :=
  AList.lookup_erase _ _

theorem lookup_erase_of_ne (hother : other ≠ k) :
    (table.erase k).lookup other = table.lookup other :=
  AList.lookup_erase_ne hother

theorem lookup_eraseAll (keys : List key) (table : Table key value) (k : key) :
    (keys.foldl erase table).lookup k =
      if k ∈ keys then none else table.lookup k := by
  induction keys generalizing table with
  | nil => rfl
  | cons first rest ih =>
    rw [List.foldl_cons, ih]
    rcases Decidable.em (k ∈ rest) with hrest | hrest
    · rw [if_pos hrest, if_pos (List.mem_cons_of_mem first hrest)]
    · rw [if_neg hrest]
      rcases eq_or_ne k first with rfl | hne
      · rw [if_pos List.mem_cons_self, lookup_erase_self]
      · rw [lookup_erase_of_ne hne, if_neg (fun hmem => (List.mem_cons.mp hmem).elim hne hrest)]

theorem mem_entries_iff : Sigma.mk k v ∈ table.entries <-> table.lookup k = some v :=
  AList.mem_lookup_iff.symm

theorem lookup_retain (keep : value -> Bool) (k : key) (table : Table key value) :
    (table.retain keep).lookup k = (table.lookup k).filter keep := by
  refine Option.ext ?_
  intro v
  rw [← mem_entries_iff, Option.filter_eq_some_iff, ← mem_entries_iff]
  exact List.mem_filter

theorem size_ne_zero (h : table.lookup k = some v) : table.size ≠ 0 := by
  intro hzero
  have hmem := mem_entries_iff.mpr h
  rw [List.length_eq_zero_iff.mp hzero] at hmem
  cases hmem

theorem size_eq_card {keys : Finset key} (h : forall k, (table.lookup k).isSome <-> k ∈ keys) :
    table.size = keys.card := by
  have hkeys : table.keys.toFinset = keys := by
    refine Finset.ext ?_
    intro k
    rw [List.mem_toFinset, ← h k]
    exact AList.lookup_isSome.symm
  rw [← hkeys, List.toFinset_card_of_nodup table.keys_nodup]
  exact (List.length_map _).symm

theorem size_le_card {keys : Finset key}
    (h : forall k, (table.lookup k).isSome = true -> k ∈ keys) :
    table.size ≤ keys.card := by
  have hkeys : forall k, (table.lookup k).isSome <->
      k ∈ keys.filter (fun k => (table.lookup k).isSome = true) := by
    intro k
    rw [Finset.mem_filter]
    exact ⟨fun hsome => ⟨h k hsome, hsome⟩, fun hboth => hboth.2⟩
  rw [size_eq_card hkeys]
  exact Finset.card_filter_le _ _

omit [DecidableEq key] in
theorem size_retain_le (keep : value -> Bool) (table : Table key value) :
    (table.retain keep).size ≤ table.size :=
  List.length_filter_le _ _

theorem cutTo_of_size_le {limit : Nat} {measure : value -> Int}
    (h : table.size ≤ limit) : table.cutTo limit measure = table :=
  if_neg (Nat.not_lt.mpr h)

theorem lookup_cutTo (limit : Nat) (measure : value -> Int) (table : Table key value) (k : key) :
    (table.cutTo limit measure).lookup k =
      if k ∈ (table.lowestFirst measure).take (table.size - limit) then none
      else table.lookup k := by
  unfold cutTo
  split
  · exact lookup_eraseAll _ table k
  · rename_i hsize
    rw [Nat.sub_eq_zero_of_le (Nat.not_lt.mp hsize), List.take_zero, if_neg List.not_mem_nil]

theorem size_insert_of_some {w : value} (h : table.lookup k = some w) :
    (table.insert k v).size = table.size := by
  have hkeys : forall j, (table.lookup j).isSome <-> j ∈ table.keys.toFinset := by
    intro j
    rw [List.mem_toFinset]
    exact AList.lookup_isSome
  rw [size_eq_card hkeys]
  refine size_eq_card ?_
  intro j
  rw [← hkeys j]
  rcases eq_or_ne j k with hj | hj
  · rw [hj, lookup_insert_self, h]
    rfl
  · rw [lookup_insert_of_ne hj]

theorem size_insert_of_none (h : table.lookup k = none) :
    (table.insert k v).size = table.size + 1 :=
  congrArg List.length (AList.entries_insert_of_notMem (AList.lookup_eq_none.mp h))

/-- Whether a table was thinned out or cut down, a value that is left is the one
that was there. -/
theorem lookup_of_retain {keep : value -> Bool}
    (h : (table.retain keep).lookup k = some v) : table.lookup k = some v := by
  rw [lookup_retain, Option.filter_eq_some_iff] at h
  exact h.1

theorem lookup_of_cutTo {limit : Nat} {measure : value -> Int}
    (h : (table.cutTo limit measure).lookup k = some v) : table.lookup k = some v := by
  rw [lookup_cutTo] at h
  split at h
  · cases h
  · exact h

end Table

end Lib
end PrxWaf
