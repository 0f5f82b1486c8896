import Mathlib.Data.List.Basic
import Mathlib.Data.List.Nodup
import Mathlib.Logic.Function.Basic

/-!
# Labels on items

For each label the list of the items that carry it.  An item is attached to a
label or detached from it, and to a list of labels one after another.
-/

namespace PrxWaf
namespace Lib

abbrev Labelling (label item : Type) : Type :=
  label -> List item

namespace Labelling

variable {label item : Type} [DecidableEq label]

def Distinct (f : Labelling label item) : Prop :=
  forall l, (f l).Nodup

theorem Distinct.update {f : Labelling label item} (h : Distinct f)
    {items : List item} (hitems : items.Nodup) (l : label) :
    Distinct (Function.update f l items) := by
  intro m
  rcases Decidable.em (m = l) with rfl | hne
  · rw [Function.update_self]
    exact hitems
  · rw [Function.update_of_ne hne]
    exact h m

variable [BEq item] [LawfulBEq item]

def attach (x : item) (f : Labelling label item) (l : label) : Labelling label item :=
  Function.update f l ((f l).insert x)

def detach (x : item) (f : Labelling label item) (l : label) : Labelling label item :=
  Function.update f l ((f l).erase x)

variable {f : Labelling label item} {x y : item} {l m : label}

theorem mem_attach : y ∈ attach x f l m <-> y ∈ f m ∨ y = x ∧ m = l := by
  unfold attach
  rcases Decidable.em (m = l) with rfl | hne
  · rw [Function.update_self, List.mem_insert_iff]
    simp [or_comm]
  · rw [Function.update_of_ne hne]
    simp [hne]

theorem mem_detach (h : Distinct f) :
    y ∈ detach x f l m <-> y ∈ f m ∧ ¬ (y = x ∧ m = l) := by
  unfold detach
  rcases Decidable.em (m = l) with rfl | hne
  · rw [Function.update_self, (h m).mem_erase_iff]
    simp [and_comm]
  · rw [Function.update_of_ne hne]
    simp [hne]

theorem mem_detach_of_ne (h : y ≠ x) : y ∈ detach x f l m <-> y ∈ f m := by
  unfold detach
  rcases Decidable.em (m = l) with rfl | hne
  · rw [Function.update_self]
    exact List.mem_erase_of_ne h
  · rw [Function.update_of_ne hne]

theorem Distinct.attach (h : Distinct f) (x : item) (l : label) :
    Distinct (attach x f l) :=
  h.update (h l).insert l

theorem Distinct.detach (h : Distinct f) (x : item) (l : label) :
    Distinct (detach x f l) :=
  h.update ((h l).erase x) l

theorem distinct_foldl_attach (h : Distinct f) (x : item)
    (labels : List label) : Distinct (labels.foldl (attach x) f) := by
  induction labels generalizing f with
  | nil => exact h
  | cons l rest ih => exact ih (h.attach x l)

theorem mem_foldl_attach {labels : List label} :
    y ∈ labels.foldl (attach x) f m <-> y ∈ f m ∨ y = x ∧ m ∈ labels := by
  induction labels generalizing f with
  | nil => simp
  | cons l rest ih =>
    rw [List.foldl_cons, ih, mem_attach, List.mem_cons, or_assoc, ← and_or_left]

theorem distinct_foldl_detach (h : Distinct f) (x : item)
    (labels : List label) : Distinct (labels.foldl (detach x) f) := by
  induction labels generalizing f with
  | nil => exact h
  | cons l rest ih => exact ih (h.detach x l)

theorem mem_foldl_detach (h : Distinct f) {labels : List label} :
    y ∈ labels.foldl (detach x) f m <-> y ∈ f m ∧ ¬ (y = x ∧ m ∈ labels) := by
  induction labels generalizing f with
  | nil => simp
  | cons l rest ih =>
    rw [List.foldl_cons, ih (h.detach x l), mem_detach h, List.mem_cons,
      and_assoc, ← not_or, ← and_or_left]

theorem mem_foldl_detach_of_ne (h : y ≠ x) {labels : List label} :
    y ∈ labels.foldl (detach x) f m <-> y ∈ f m := by
  induction labels generalizing f with
  | nil => exact Iff.rfl
  | cons l rest ih => exact ih.trans (mem_detach_of_ne h)

end Labelling

end Lib
end PrxWaf
