import Mathlib.Data.Option.Basic

/-!
# Values that are forgotten when they are stale

Tables with times in their values are cleared of stale values now and then.  Compared
with a table that is never cleared, a cell holds the same value, or nothing where that
value is stale.
-/

namespace PrxWaf
namespace Lib

variable {value : Type}

/-- What is kept of a known value: the value, or nothing once it is stale. -/
def Fades (stale : value -> Prop) (known kept : Option value) : Prop :=
  kept = known ∨ kept = none ∧ exists v, known = some v ∧ stale v

namespace Fades

variable {stale later : value -> Prop} {known kept : Option value}

theorem refl (stale : value -> Prop) (known : Option value) :
    Fades stale known known :=
  Or.inl rfl

theorem mono (h : Fades stale known kept)
    (hlater : forall v, stale v -> later v) : Fades later known kept := by
  rcases h with hsame | ⟨hnone, v, hv, hstale⟩
  · exact Or.inl hsame
  · exact Or.inr ⟨hnone, v, hv, hlater v hstale⟩

theorem filter (h : Fades stale known kept) {keep : value -> Bool}
    (hkeep : forall v, known = some v -> keep v = false -> stale v) :
    Fades stale known (kept.filter keep) := by
  rcases h with rfl | ⟨rfl, hgone⟩
  · cases kept with
    | none => exact Or.inl rfl
    | some v =>
      cases hv : keep v with
      | true => exact Or.inl (Option.filter_some_pos hv)
      | false =>
        refine Or.inr ⟨?_, v, rfl, hkeep v rfl hv⟩
        rw [Option.filter_some, hv]
        rfl
  · exact Or.inr ⟨rfl, hgone⟩

end Fades

end Lib
end PrxWaf
