import PrxWaf.Lib.Decimal

/-!
# Joined texts

Texts that are joined by a separator can be told apart if none of them has it.
-/

namespace PrxWaf
namespace Lib

theorem decimal_injective : Function.Injective decimal := by
  intro m n h
  rw [← digitsValue_decimal m, h, digitsValue_decimal]

variable {sep : Char}

theorem not_mem_intercalate {pieces : List Text} {c : Char} (hsep : c ≠ sep)
    (h : forall piece, piece ∈ pieces -> c ∉ piece) : c ∉ [sep].intercalate pieces := by
  intro hc
  rcases Text.mem_intercalate hc with heq | ⟨piece, hpiece, hmem⟩
  · exact hsep heq
  · exact h piece hpiece hmem

/-- A record with a fixed number of fields, which may be empty. -/
theorem intercalate_inj {xs ys : List Text} (hx : xs ≠ []) (hy : ys ≠ [])
    (hxs : forall piece, piece ∈ xs -> sep ∉ piece)
    (hys : forall piece, piece ∈ ys -> sep ∉ piece) :
    [sep].intercalate xs = [sep].intercalate ys <-> xs = ys := by
  refine ⟨fun h => ?_, fun h => by rw [h]⟩
  rw [← List.splitOn_intercalate sep hxs hx, h, List.splitOn_intercalate sep hys hy]

/-- A piece that can be told apart from its neighbours and from no piece at all. -/
def IsPiece (sep : Char) (piece : Text) : Prop :=
  piece ≠ [] ∧ sep ∉ piece

theorem intercalate_eq_nil_iff {xs : List Text}
    (h : forall piece, piece ∈ xs -> IsPiece sep piece) :
    [sep].intercalate xs = [] <-> xs = [] := by
  cases xs with
  | nil => exact iff_of_true rfl rfl
  | cons x rest =>
    refine iff_of_false ?_ (List.cons_ne_nil x rest)
    obtain ⟨c, hc⟩ := List.exists_mem_of_ne_nil _ (h x List.mem_cons_self).1
    have hmem : c ∈ [sep].intercalate (x :: rest) :=
      Text.mem_intercalate_of_mem List.mem_cons_self hc
    intro hnil
    rw [hnil] at hmem
    cases hmem

/-- A list of any length, of pieces that are not empty. -/
theorem intercalate_inj_of_pieces {xs ys : List Text}
    (hxs : forall piece, piece ∈ xs -> IsPiece sep piece)
    (hys : forall piece, piece ∈ ys -> IsPiece sep piece) :
    [sep].intercalate xs = [sep].intercalate ys <-> xs = ys := by
  refine ⟨fun h => ?_, fun h => by rw [h]⟩
  rcases eq_or_ne xs [] with rfl | hx
  · exact ((intercalate_eq_nil_iff hys).mp h.symm).symm
  rcases eq_or_ne ys [] with rfl | hy
  · exact (intercalate_eq_nil_iff hxs).mp h
  · exact (intercalate_inj hx hy (fun piece hpiece => (hxs piece hpiece).2)
      (fun piece hpiece => (hys piece hpiece).2)).mp h

theorem forall_mem_map {element : Type} {text : element -> Text} {p : Text -> Prop}
    (h : forall x, p (text x)) (xs : List element) (piece : Text)
    (hpiece : piece ∈ xs.map text) : p piece := by
  obtain ⟨x, -, rfl⟩ := List.mem_map.mp hpiece
  exact h x

theorem intercalate_map_inj {element : Type} {text : element -> Text}
    (hinjective : Function.Injective text) (hpiece : forall x, IsPiece sep (text x))
    {xs ys : List element} :
    [sep].intercalate (xs.map text) = [sep].intercalate (ys.map text) <-> xs = ys := by
  rw [intercalate_inj_of_pieces (forall_mem_map hpiece xs) (forall_mem_map hpiece ys),
    (List.map_injective_iff.mpr hinjective).eq_iff]

end Lib
end PrxWaf
