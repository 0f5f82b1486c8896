import Mathlib.Order.Defs.LinearOrder

/-!
# One expiring entry for many

Of a set of entries with expiry times, one is kept.  It stands for all of them from a
time on if it is alive whenever one of them is.
-/

namespace PrxWaf
namespace Lib

/-- From `now` on, the kept expiry time is alive exactly when one of all is. -/
def StandsFor (now : Nat) (kept : Option Nat) (all : List Nat) : Prop :=
  forall t, now ≤ t -> ((exists u, kept = some u ∧ t < u) <-> exists u, u ∈ all ∧ t < u)

section StandsFor

variable {now : Nat} {all : List Nat}

theorem standsFor_later {later : Nat} {kept : Option Nat}
    (h : StandsFor now kept all) (hle : now ≤ later) :
    StandsFor later kept all :=
  fun t ht => h t (Nat.le_trans hle ht)

theorem standsFor_congr {all' : List Nat} (hall : forall u, u ∈ all <-> u ∈ all')
    (kept : Option Nat) :
    StandsFor now kept all <-> StandsFor now kept all' := by
  unfold StandsFor
  simp only [hall]

theorem standsFor_none_iff :
    StandsFor now none all <-> forall u, u ∈ all -> u ≤ now := by
  constructor
  · intro h u hu
    apply Nat.le_of_not_lt
    intro hlt
    rcases (h now (Nat.le_refl now)).mpr ⟨u, hu, hlt⟩ with ⟨v, hv, -⟩
    cases hv
  · intro h t ht
    constructor
    · rintro ⟨u, hu, -⟩
      cases hu
    · rintro ⟨u, hu, hlt⟩
      have hle := h u hu
      lia

/-- The kept one is the last to expire, unless all have expired. -/
theorem standsFor_some_iff {kept : Nat} :
    StandsFor now (some kept) all <-> (forall u, u ∈ all -> u ≤ max now kept) ∧
        (now < kept -> exists u, u ∈ all ∧ kept ≤ u) := by
  constructor
  · intro h
    constructor
    · intro u hu
      apply Nat.le_of_not_lt
      intro hlt
      rcases (h (max now kept) (Nat.le_max_left now kept)).mpr ⟨u, hu, hlt⟩ with ⟨v, hv, hv'⟩
      injection hv with hv
      lia
    · intro hlt
      rcases (h (kept - 1) (by lia)).mp ⟨kept, rfl, by lia⟩ with ⟨u, hu, hu'⟩
      exact ⟨u, hu, by lia⟩
  · rintro ⟨hmost, hsome⟩ t ht
    constructor
    · rintro ⟨v, hv, hlt⟩
      injection hv with hv
      rcases hsome (by lia) with ⟨u, hu, hle⟩
      exact ⟨u, hu, by lia⟩
    · rintro ⟨u, hu, hlt⟩
      have hle := hmost u hu
      exact ⟨kept, rfl, by lia⟩

theorem standsFor_filter {kept : Option Nat} (h : StandsFor now kept all) :
    StandsFor now (kept.filter (fun u => now < u)) all := by
  intro t ht
  rw [← h t ht]
  constructor
  · rintro ⟨u, hu, hlt⟩
    exact ⟨u, (Option.filter_eq_some_iff.mp hu).1, hlt⟩
  · rintro ⟨u, hu, hlt⟩
    refine ⟨u, Option.filter_eq_some_iff.mpr ⟨hu, ?_⟩, hlt⟩
    exact decide_eq_true (Nat.lt_of_le_of_lt ht hlt)

end StandsFor

end Lib
end PrxWaf
