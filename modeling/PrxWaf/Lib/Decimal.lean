import PrxWaf.Lib.Text

/-!
# Decimal numbers

A number is printed with its digits, and a text of digits with at most one point is
read as an exact fraction.
-/

namespace PrxWaf
namespace Lib

open Text (digitsValue)

def decimal (n : Nat) : Text :=
  Nat.toDigits 10 n

theorem decimal_ne_nil (n : Nat) : decimal n ≠ [] :=
  Nat.toDigits_ne_nil

variable {c : Char}

theorem isDigit_decimal {n : Nat} (h : c ∈ decimal n) :
    c.isDigit = true :=
  Nat.isDigit_of_mem_toDigits (by decide) (by decide) h

theorem digitsValue_decimal (n : Nat) : digitsValue (decimal n) = n :=
  Nat.ofDigitChars_toDigits (by decide) (by decide)

theorem digitsValue_append (s t : Text) :
    digitsValue (s ++ t) = digitsValue s * 10 ^ t.length + digitsValue t := by
  induction t using List.reverseRecOn with
  | nil =>
    rw [List.append_nil]
    exact (Nat.mul_one _).symm
  | append_singleton t c ih =>
    have hlast : forall u : Text, digitsValue (u ++ [c]) = 10 * digitsValue u + (c.toNat - 48) := by
      intro u
      unfold digitsValue
      rw [List.foldl_append]
      rfl
    rw [← List.append_assoc, hlast, hlast, ih, List.length_append,
      List.length_singleton, Nat.pow_succ]
    ring

theorem toNat_sub_lt_of_isDigit (h : c.isDigit = true) :
    c.toNat - 48 < 10 := by
  unfold Char.isDigit at h
  rw [Bool.and_eq_true, decide_eq_true_eq, decide_eq_true_eq] at h
  have hhigh : c.toNat ≤ 57 := UInt32.le_iff_toNat_le.mp h.right
  lia

theorem digitsValue_lt {s : Text} (h : forall c, c ∈ s -> c.isDigit = true) :
    digitsValue s < 10 ^ s.length := by
  induction s with
  | nil => exact Nat.one_pos
  | cons c rest ih =>
    have hrest := ih (fun d hd => h d (List.mem_cons_of_mem c hd))
    have hfirst := toNat_sub_lt_of_isDigit (h c List.mem_cons_self)
    have hvalue : digitsValue (c :: rest) =
        digitsValue [c] * 10 ^ rest.length + digitsValue rest := digitsValue_append [c] rest
    have hdigit : digitsValue [c] = c.toNat - 48 := Nat.zero_add _
    rw [hvalue, hdigit, List.length_cons, Nat.pow_succ]
    nlinarith

/-- A numerator and the number of its decimal places.  One side of the point may be
empty, but not both. -/
def readDecimal (s : Text) : Option (Nat × Nat) :=
  match Text.splitOnce '.' s with
  | none =>
    if s ≠ [] ∧ s.all Char.isDigit then some (digitsValue s, 0) else none
  | some (whole, places) =>
    if (whole ≠ [] ∨ places ≠ []) ∧ whole.all Char.isDigit ∧ places.all Char.isDigit then
      some (digitsValue (whole ++ places), places.length)
    else none

/-- The number times a factor, without its fraction. -/
def scaledDecimal (s : Text) (factor : Nat) : Option Nat :=
  (readDecimal s).map (fun number => number.1 * factor / 10 ^ number.2)

theorem not_isDigit_point : ¬ '.'.isDigit = true := by
  decide

theorem not_mem_decimal {n : Nat} (h : ¬ c.isDigit = true) :
    c ∉ decimal n :=
  fun hmem => h (isDigit_decimal hmem)

theorem scaledDecimal_decimal (n factor : Nat) :
    scaledDecimal (decimal n) factor = some (n * factor) := by
  have hdigits : (decimal n).all Char.isDigit = true :=
    List.all_eq_true.mpr (fun c hc => isDigit_decimal hc)
  unfold scaledDecimal readDecimal
  rw [Text.splitOnce_eq_none (not_mem_decimal not_isDigit_point)]
  dsimp only
  rw [if_pos ⟨decimal_ne_nil n, hdigits⟩, Option.map_some,
    digitsValue_decimal, Nat.pow_zero, Nat.div_one]

theorem scaledDecimal_append_places {places : Text}
    (h : forall c, c ∈ places -> c.isDigit = true) (n : Nat) :
    scaledDecimal (decimal n ++ '.' :: places) 1 = some n := by
  have hdigits : (decimal n).all Char.isDigit = true :=
    List.all_eq_true.mpr (fun c hc => isDigit_decimal hc)
  have hplaces : places.all Char.isDigit = true := List.all_eq_true.mpr h
  unfold scaledDecimal readDecimal
  rw [Text.splitOnce_append_cons (not_mem_decimal not_isDigit_point)]
  dsimp only
  rw [if_pos ⟨Or.inl (decimal_ne_nil n), hdigits, hplaces⟩, Option.map_some,
    digitsValue_append, digitsValue_decimal, Nat.mul_one, Nat.mul_comm,
    Nat.mul_add_div (Nat.pow_pos (by decide)), Nat.div_eq_of_lt (digitsValue_lt h), Nat.add_zero]

end Lib
end PrxWaf
