import Mathlib.Data.List.Basic

/-!
# Contents with versions

A reader who remembers the version of a content can tell from the version alone
whether the content is still the same, if no version is used for two contents.
Versions that only grow with each change are enough for that.
-/

namespace PrxWaf
namespace Lib

structure Versioned (content : Type) where
  version : Nat
  content : content

variable {content : Type}

def Distinguishes (seen : List (Versioned content)) : Prop :=
  forall a b, a ∈ seen -> b ∈ seen -> a.version = b.version -> a.content = b.content

/-- The point is the newest one: nothing that was seen has a higher version. -/
structure Newest (seen : List (Versioned content)) (now : Versioned content) : Prop where
  distinguishes : Distinguishes seen
  mem : now ∈ seen
  le : forall p, p ∈ seen -> p.version ≤ now.version

theorem newest_singleton (now : Versioned content) : Newest [now] now where
  distinguishes := by
    intro a b ha hb _
    rw [List.mem_singleton.mp ha, List.mem_singleton.mp hb]
  mem := List.mem_singleton_self now
  le := by
    intro p hp
    exact Nat.le_of_eq (congrArg Versioned.version (List.mem_singleton.mp hp))

theorem Newest.next {seen : List (Versioned content)}
    {now next : Versioned content} (h : Newest seen now)
    (hnext : next = now ∨ now.version < next.version) :
    Newest (next :: seen) next := by
  have hle : forall p, p ∈ seen -> p.version ≤ next.version := by
    intro p hp
    rcases hnext with rfl | hlt
    · exact h.le p hp
    · exact Nat.le_of_lt (Nat.lt_of_le_of_lt (h.le p hp) hlt)
  have hsame : forall p, p ∈ seen -> p.version = next.version -> p.content = next.content := by
    intro p hp hversion
    rcases hnext with rfl | hlt
    · exact h.distinguishes p next hp h.mem hversion
    · have hbound := h.le p hp
      lia
  refine ⟨?_, List.mem_cons_self, ?_⟩
  · intro a b ha hb hversion
    rcases List.mem_cons.mp ha with rfl | hold
    · rcases List.mem_cons.mp hb with rfl | hold
      · rfl
      · exact (hsame b hold hversion.symm).symm
    · rcases List.mem_cons.mp hb with rfl | holder
      · exact hsame a hold hversion
      · exact h.distinguishes a b hold holder hversion
  · intro p hp
    rcases List.mem_cons.mp hp with rfl | hp
    · exact Nat.le_refl _
    · exact hle p hp

end Lib
end PrxWaf
