import Mathlib.Data.List.Basic

/-!
# Rings

A ring has a fixed number of slots and overwrites the oldest of them.  Read from
the oldest slot on, it shows the end of the history of what was recorded.
Histories are listed from the newest item.
-/

namespace PrxWaf
namespace Lib

structure Ring (depth : Nat) (item : Type) where
  slots : List (Option item)
  head : Nat
  len : Nat
  deriving DecidableEq

namespace Ring

variable {depth : Nat} {item : Type}

def empty : Ring depth item :=
  { slots := List.replicate depth none, head := 0, len := 0 }

def record (ring : Ring depth item) (x : item) : Ring depth item :=
  { slots := ring.slots.set ring.head (some x)
    head := (ring.head + 1) % depth
    len := if ring.len < depth then ring.len + 1 else ring.len }

def items (ring : Ring depth item) : List item :=
  let start := if ring.len < depth then 0 else ring.head
  (List.range ring.len).filterMap (fun i =>
    (ring.slots[(start + i) % depth]?).join)

/-- The slot of the item that was recorded the given number of times ago. -/
def slotOf (ring : Ring depth item) (age : Nat) : Nat :=
  if age < ring.head then ring.head - 1 - age
  else ring.head + depth - 1 - age

structure Holds (ring : Ring depth item) (history : List item) : Prop where
  slots : ring.slots.length = depth
  head : ring.head < depth
  len : ring.len = min history.length depth
  start : ring.len < depth -> ring.head = ring.len
  newest : forall age, age < ring.len -> ring.slots[ring.slotOf age]? = some history[age]?

theorem holds_empty (hdepth : 0 < depth) :
    (empty : Ring depth item).Holds [] where
  slots := List.length_replicate
  head := hdepth
  len := (Nat.zero_min depth).symm
  start := fun _ => rfl
  newest := fun age hage => absurd hage (Nat.not_lt_zero age)

theorem mod_of_lt_twice {a n : Nat} (h : a < 2 * n) :
    a % n = if a < n then a else a - n := by
  split
  · rename_i hlt
    exact Nat.mod_eq_of_lt hlt
  · rename_i hge
    rw [Nat.mod_eq_sub_mod (Nat.not_lt.mp hge)]
    exact Nat.mod_eq_of_lt (by lia)

variable {ring : Ring depth item} {history : List item}

theorem slotOf_record_zero (x : item)
    (hhead : ring.head < depth) : (ring.record x).slotOf 0 = ring.head := by
  unfold record slotOf
  dsimp only
  rw [mod_of_lt_twice (by lia)]
  lia

theorem slotOf_record_succ {age : Nat} (x : item)
    (hhead : ring.head < depth) (hage : age + 1 < depth) :
    (ring.record x).slotOf (age + 1) = ring.slotOf age ∧ ring.slotOf age ≠ ring.head := by
  unfold record slotOf
  dsimp only
  rw [mod_of_lt_twice (by lia)]
  lia

theorem record_holds (h : ring.Holds history) (x : item) :
    (ring.record x).Holds (x :: history) := by
  have hhead := h.head
  have hlen := h.len
  have hstart := h.start
  refine ⟨List.length_set.trans h.slots, Nat.mod_lt _ (by lia), ?_, ?_, ?_⟩
  · unfold record
    dsimp only
    rw [List.length_cons]
    lia
  · unfold record
    dsimp only
    rw [mod_of_lt_twice (by lia)]
    lia
  · intro age hage
    have hage : age < ring.len + 1 ∧ age < depth := by
      unfold record at hage
      dsimp only at hage
      lia
    cases age with
    | zero =>
      rw [slotOf_record_zero x hhead]
      exact List.getElem?_set_self (by rw [h.slots]; exact hhead)
    | succ age =>
      obtain ⟨hslot, hne⟩ := slotOf_record_succ x hhead hage.2
      rw [hslot]
      exact (List.getElem?_set_ne hne.symm).trans (h.newest age (Nat.lt_of_succ_lt_succ hage.1))

theorem filterMap_range_getElem {n : Nat} (hn : n ≤ history.length) :
    (List.range n).filterMap (fun i => history[n - 1 - i]?) = (history.take n).reverse := by
  induction n with
  | zero => rfl
  | succ n ih =>
    have hfirst : history[n]? = some history[n] := List.getElem?_eq_getElem hn
    have hrest : (List.range n).filterMap (fun i => history[n + 1 - 1 - (i + 1)]?) =
          (history.take n).reverse := by
      rw [← ih (Nat.le_of_succ_le hn)]
      refine List.filterMap_congr ?_
      intro i hi
      exact congrArg (fun j => history[j]?) (by lia)
    rw [List.range_succ_eq_map, List.filterMap_cons, List.filterMap_map,
      List.take_succ_eq_append_getElem hn, List.reverse_append, ← hrest,
      Nat.add_sub_cancel, Nat.sub_zero, hfirst]
    rfl

/-- A ring shows the last items of the history. -/
theorem items_of_holds (h : ring.Holds history) :
    ring.items = (history.take depth).reverse := by
  have hlen := h.len
  have hstart := h.start
  have hhead := h.head
  have htake : history.take depth = history.take ring.len := by
    rw [hlen, Nat.min_comm, ← List.take_take, List.take_length]
  rw [htake, ← filterMap_range_getElem (by lia)]
  unfold items
  refine List.filterMap_congr ?_
  intro i hi
  have hi := List.mem_range.mp hi
  have hslot : ((if ring.len < depth then 0 else ring.head) + i) % depth =
      ring.slotOf (ring.len - 1 - i) := by
    unfold slotOf
    rw [mod_of_lt_twice (by lia)]
    split
    · lia
    · lia
  rw [hslot, h.newest _ (by lia)]
  rfl

end Ring

end Lib
end PrxWaf
