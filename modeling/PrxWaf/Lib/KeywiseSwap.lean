import PrxWaf.Lib.Table

/-!
# Replacing a table key by key

A table takes over the content of another one in steps: first the values of the new
keys are written one after another, then the keys that the new content does not have
are removed.  Readers can look at the table between any two steps.
-/

namespace PrxWaf
namespace Lib

namespace Table

variable {key value : Type} [DecidableEq key]

def overwrite (table : Table key value)
    (entries : List (Sigma (fun _ : key => value))) : Table key value :=
  entries.foldl (fun table entry => table.insert entry.1 entry.2) table

def staleKeys (table new : Table key value) : List key :=
  table.keys.filter (fun k => (new.lookup k).isNone)

theorem lookup_overwrite {new : Table key value} {entries : List (Sigma (fun _ : key => value))}
    (h : forall entry, entry ∈ entries -> entry ∈ new.entries) (table : Table key value) (k : key) :
    (table.overwrite entries).lookup k =
      if k ∈ entries.map Sigma.fst then new.lookup k else table.lookup k := by
  induction entries generalizing table with
  | nil => rfl
  | cons first rest ih =>
    have hrest := ih (fun entry hmem =>
      h entry (List.mem_cons_of_mem first hmem)) (table.insert first.1 first.2)
    have hfirst := mem_entries_iff.mp (h first List.mem_cons_self)
    rw [List.map_cons]
    refine hrest.trans ?_
    rcases Decidable.em (k ∈ rest.map Sigma.fst) with hmem | hnot
    · rw [if_pos hmem, if_pos (List.mem_cons_of_mem first.1 hmem)]
    · rw [if_neg hnot]
      rcases eq_or_ne k first.1 with rfl | hne
      · rw [if_pos List.mem_cons_self, lookup_insert_self, hfirst]
      · rw [lookup_insert_of_ne hne, if_neg (fun hmem => (List.mem_cons.mp hmem).elim hne hnot)]

theorem mem_staleKeys {table new : Table key value} {k : key} :
    k ∈ table.staleKeys new <-> (table.lookup k).isSome = true ∧ new.lookup k = none := by
  unfold staleKeys
  rw [List.mem_filter, Option.isNone_iff_eq_none]
  exact and_congr_left (fun _ => AList.lookup_isSome.symm)

end Table

structure SwapOrder {key value : Type} [DecidableEq key] (old new : Table key value) where
  visited : List (Sigma (fun _ : key => value))
  removed : List key
  visits : visited.Perm new.entries
  prunes : removed.Perm ((old.overwrite visited).staleKeys new)

namespace SwapOrder

variable {key value : Type} [DecidableEq key] {old new : Table key value}

def after (order : SwapOrder old new) (n : Nat) : Table key value :=
  (order.removed.take (n - order.visited.length)).foldl Table.erase
    (old.overwrite (order.visited.take n))

def result (order : SwapOrder old new) : Table key value :=
  order.after (order.visited.length + order.removed.length)

section Steps

variable (order : SwapOrder old new) {k : key}

theorem mem_visited_iff :
    k ∈ order.visited.map Sigma.fst <-> (new.lookup k).isSome = true := by
  rw [(order.visits.map Sigma.fst).mem_iff]
  exact AList.lookup_isSome.symm

theorem lookup_written (n : Nat) (k : key) :
    (old.overwrite (order.visited.take n)).lookup k =
      if k ∈ (order.visited.take n).map Sigma.fst then new.lookup k
      else old.lookup k :=
  Table.lookup_overwrite (fun _ hmem =>
    order.visits.mem_iff.mp (List.mem_of_mem_take hmem)) old k

theorem lookup_after_of_le {n : Nat} (h : n ≤ order.visited.length) (k : key) :
    (order.after n).lookup k =
      if k ∈ (order.visited.take n).map Sigma.fst then new.lookup k
      else old.lookup k := by
  unfold after
  rw [Nat.sub_eq_zero_of_le h, List.take_zero]
  exact order.lookup_written n k

theorem lookup_after_of_ge {n : Nat} (h : order.visited.length ≤ n)
    (hk : (new.lookup k).isSome = true) :
    (order.after n).lookup k = new.lookup k := by
  have hwritten := order.lookup_written n k
  rw [List.take_of_length_le h, if_pos (order.mem_visited_iff.mpr hk)] at hwritten
  unfold after
  rw [List.take_of_length_le h, Table.lookup_eraseAll, if_neg, hwritten]
  intro hmem
  have hstale := order.prunes.mem_iff.mp (List.mem_of_mem_take hmem)
  rw [(Table.mem_staleKeys.mp hstale).2] at hk
  cases hk

theorem lookup_result (k : key) : order.result.lookup k = new.lookup k := by
  cases hk : new.lookup k with
  | some v =>
    rw [← hk]
    exact order.lookup_after_of_ge (Nat.le_add_right _ _) (Option.isSome_of_eq_some hk)
  | none =>
    unfold result after
    rw [Nat.add_sub_cancel_left, List.take_of_length_le (Nat.le_refl _),
      List.take_of_length_le (Nat.le_add_right _ _), Table.lookup_eraseAll]
    split
    · rfl
    · rename_i hnot
      rw [order.prunes.mem_iff, Table.mem_staleKeys] at hnot
      cases hwritten : (old.overwrite order.visited).lookup k with
      | none => rfl
      | some v => exact absurd ⟨Option.isSome_of_eq_some hwritten, hk⟩ hnot

end Steps

theorem exists_first {k : key} {v : value} (h : new.lookup k = some v) :
    exists order : SwapOrder old new, 0 < order.visited.length ∧
        (order.visited.take 1).map Sigma.fst = [k] := by
  obtain ⟨front, back, hsplit⟩ := List.append_of_mem (Table.mem_entries_iff.mpr h)
  have hperm : (⟨k, v⟩ :: (front ++ back)).Perm new.entries := by
    rw [hsplit]
    exact List.perm_middle.symm
  exact ⟨⟨_, _, hperm, List.Perm.refl _⟩, Nat.succ_pos _, rfl⟩

end SwapOrder

end Lib
end PrxWaf
