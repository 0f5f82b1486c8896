import Mathlib

/-!
# Texts

A text is a list of characters.  The operations follow the string functions of
the Rust standard library: `trim` removes white space as Unicode defines it, and
splitting at a separator is `List.splitOn`, which keeps empty pieces.
-/

namespace PrxWaf
namespace Lib

abbrev Text := List Char

namespace Text

/-- The characters with the Unicode property `White_Space`. -/
def isWhitespace (c : Char) : Bool :=
  (9 ≤ c.toNat && c.toNat ≤ 13) || c.toNat == 32 || c.toNat == 0x85 ||
    c.toNat == 0xA0 || c.toNat == 0x1680 ||
    (0x2000 ≤ c.toNat && c.toNat ≤ 0x200A) || c.toNat == 0x2028 ||
    c.toNat == 0x2029 || c.toNat == 0x202F || c.toNat == 0x205F ||
    c.toNat == 0x3000

def trimMatches (p : Char -> Bool) (s : Text) : Text :=
  (s.dropWhile p).rdropWhile p

def trim (s : Text) : Text :=
  trimMatches isWhitespace s

/-- The first piece of `s` split at `sep`. -/
def beforeFirst (sep : Char) (s : Text) : Text :=
  s.takeWhile (fun c => c ≠ sep)

def splitOnce (sep : Char) (s : Text) : Option (Text × Text) :=
  if sep ∈ s then
    some (beforeFirst sep s, (s.dropWhile (fun c => c ≠ sep)).tail)
  else none

def digitsValue (s : Text) : Nat :=
  s.foldl (fun n c => 10 * n + (c.toNat - 48)) 0

/-- Read a decimal number below `bound`; a plus sign may stand before it. -/
def parseUnsigned (bound : Nat) (s : Text) : Option Nat :=
  let digits := if s.head? = some '+' then s.tail else s
  if digits ≠ [] ∧ digits.all Char.isDigit ∧ digitsValue digits < bound then
    some (digitsValue digits)
  else none

def parseSigned (bound : Nat) (s : Text) : Option Int :=
  match s with
  | '-' :: digits =>
    if digits ≠ [] ∧ digits.all Char.isDigit ∧ digitsValue digits ≤ bound then
      some (-(digitsValue digits : Int))
    else none
  | _ => (parseUnsigned bound s).map Int.ofNat

variable {c sep : Char} {p : Char -> Bool} {s : Text}

theorem isWhitespace_of_range (hlow : 33 ≤ c.toNat)
    (hhigh : c.toNat ≤ 126) : isWhitespace c = false := by
  simp only [isWhitespace, Bool.or_eq_false_iff, Bool.and_eq_false_iff,
    decide_eq_false_iff_not, beq_eq_false_iff_ne]
  omega

theorem trimMatches_eq_self (h : forall c, c ∈ s -> p c = false) : trimMatches p s = s := by
  have hdrop : s.dropWhile p = s := by
    cases s with
    | nil => rfl
    | cons c rest =>
      rw [List.dropWhile_cons_of_neg]
      rw [h c List.mem_cons_self]
      exact Bool.false_ne_true
  rw [trimMatches, hdrop, List.rdropWhile_eq_self_iff]
  intro hne
  rw [h _ (List.getLast_mem hne)]
  exact Bool.false_ne_true

theorem trimMatches_wrapped {front back : Text}
    (hfront : forall c, c ∈ front -> p c = true) (hback : forall c, c ∈ back -> p c = true)
    (hhead : forall c, c ∈ s.head? -> p c = false)
    (hlast : forall c, c ∈ s.getLast? -> p c = false) :
    trimMatches p (front ++ (s ++ back)) = s := by
  have hend : (s ++ back).rdropWhile p = s := by
    unfold List.rdropWhile
    rw [List.reverse_append, List.dropWhile_append_of_pos]
    · cases hs : s.reverse with
      | nil => exact (List.reverse_eq_nil_iff.mp hs).symm
      | cons c rest =>
        have hc : c ∈ s.getLast? := by
          rw [← List.head?_reverse, hs]
          rfl
        rw [List.dropWhile_cons_of_neg, ← hs, List.reverse_reverse]
        rw [hlast c hc]
        exact Bool.false_ne_true
    · intro c hc
      exact hback c (List.mem_reverse.mp hc)
  unfold trimMatches
  rw [List.dropWhile_append_of_pos hfront]
  cases s with
  | nil =>
    rw [List.nil_append, List.dropWhile_eq_nil_iff.mpr hback]
    rfl
  | cons c rest =>
    rw [List.cons_append, List.dropWhile_cons_of_neg, ← List.cons_append, hend]
    rw [hhead c rfl]
    exact Bool.false_ne_true

theorem trimMatches_of_ends (hhead : forall c, c ∈ s.head? -> p c = false)
    (hlast : forall c, c ∈ s.getLast? -> p c = false) :
    trimMatches p s = s := by
  have hnone : forall c, c ∈ ([] : Text) -> p c = true := fun _ h => absurd h List.not_mem_nil
  have hwrapped := trimMatches_wrapped hnone hnone hhead hlast
  rw [List.append_nil, List.nil_append] at hwrapped
  exact hwrapped

theorem mem_of_mem_trimMatches (h : c ∈ trimMatches p s) : c ∈ s :=
  List.dropWhile_subset p ((List.rdropWhile_prefix p _).subset h)

theorem trim_eq_self (h : forall c, c ∈ s -> isWhitespace c = false) : trim s = s :=
  trimMatches_eq_self h

theorem trim_space_cons (s : Text) : trim (' ' :: s) = trim s := rfl

theorem beforeFirst_eq_self (h : sep ∉ s) :
    beforeFirst sep s = s := by
  rw [beforeFirst, List.takeWhile_eq_self_iff]
  intro c hc
  simp only [ne_eq, decide_not, Bool.not_eq_true', decide_eq_false_iff_not]
  intro heq
  rw [heq] at hc
  exact h hc

theorem beforeFirst_append_cons (h : sep ∉ s)
    (rest : Text) : beforeFirst sep (s ++ sep :: rest) = s := by
  rw [beforeFirst, List.takeWhile_append_of_pos]
  · rw [List.takeWhile_cons_of_neg (by simp), List.append_nil]
  · intro c hc
    simp only [ne_eq, decide_not, Bool.not_eq_true', decide_eq_false_iff_not]
    intro heq
    rw [heq] at hc
    exact h hc

theorem splitOnce_append_cons (h : sep ∉ s)
    (rest : Text) : splitOnce sep (s ++ sep :: rest) = some (s, rest) := by
  unfold splitOnce
  rw [if_pos (List.mem_append_right _ List.mem_cons_self),
    beforeFirst_append_cons h, List.dropWhile_append_of_pos]
  · rw [List.dropWhile_cons_of_neg (by simp)]
    rfl
  · intro c hc
    rw [decide_eq_true_eq]
    rintro rfl
    exact h hc

theorem splitOnce_eq_none (h : sep ∉ s) :
    splitOnce sep s = none :=
  if_neg h

theorem not_mem_of_mem_splitOn {piece : Text} (h : piece ∈ s.splitOn sep) : sep ∉ piece := by
  induction s generalizing piece with
  | nil =>
    rw [List.splitOn_nil, List.mem_singleton] at h
    rw [h]
    exact List.not_mem_nil
  | cons c rest ih =>
    rw [List.splitOn_cons_eq_if_modifyHead] at h
    split at h
    · rcases List.mem_cons.mp h with hfirst | hlater
      · rw [hfirst]
        exact List.not_mem_nil
      · exact ih hlater
    · rename_i hne
      cases hpieces : rest.splitOn sep with
      | nil =>
        rw [hpieces] at h
        cases h
      | cons first more =>
        rw [hpieces, List.modifyHead_cons] at h
        rw [hpieces] at ih
        rcases List.mem_cons.mp h with hfirst | hlater
        · rw [hfirst, List.mem_cons, not_or]
          refine ⟨?_, ih List.mem_cons_self⟩
          rintro rfl
          exact hne (beq_self_eq_true _)
        · exact ih (List.mem_cons_of_mem first hlater)

theorem mem_intercalate {pieces : List Text} (h : c ∈ [sep].intercalate pieces) :
    c = sep ∨ exists piece, piece ∈ pieces ∧ c ∈ piece := by
  induction pieces with
  | nil => cases h
  | cons piece rest ih =>
    cases rest with
    | nil =>
      rw [List.intercalate_singleton] at h
      exact Or.inr ⟨piece, List.mem_cons_self, h⟩
    | cons next more =>
      rw [List.intercalate_cons_cons] at h
      rcases List.mem_append.mp h with h | hlater
      · rcases List.mem_append.mp h with hfirst | hsep
        · exact Or.inr ⟨piece, List.mem_cons_self, hfirst⟩
        · exact Or.inl (List.mem_singleton.mp hsep)
      · rcases ih hlater with hsep | ⟨other, hother, hc⟩
        · exact Or.inl hsep
        · exact Or.inr ⟨other, List.mem_cons_of_mem _ hother, hc⟩

theorem mem_intercalate_of_mem {pieces : List Text} {piece : Text}
    (hpiece : piece ∈ pieces) (hc : c ∈ piece) :
    c ∈ [sep].intercalate pieces := by
  induction pieces with
  | nil => cases hpiece
  | cons first rest ih =>
    cases rest with
    | nil =>
      rw [List.intercalate_singleton, ← List.mem_singleton.mp hpiece]
      exact hc
    | cons next more =>
      rw [List.intercalate_cons_cons]
      rcases List.mem_cons.mp hpiece with hfirst | hlater
      · rw [← hfirst]
        exact List.mem_append_left _ (List.mem_append_left _ hc)
      · exact List.mem_append_right _ (ih hlater)

def stripFront (token s : Text) : Option Text :=
  if token.isPrefixOf s then some (s.drop token.length) else none

theorem stripFront_append (token s : Text) :
    stripFront token (token ++ s) = some s := by
  unfold stripFront
  rw [if_pos (List.isPrefixOf_iff_prefix.mpr (List.prefix_append token s)), List.drop_left]

theorem eq_append_of_stripFront {token rest : Text}
    (h : stripFront token s = some rest) : s = token ++ rest := by
  unfold stripFront at h
  split at h
  · rename_i hfront
    obtain ⟨tail, rfl⟩ := List.isPrefixOf_iff_prefix.mp hfront
    rw [List.drop_left] at h
    rw [Option.some.inj h]
  · cases h

def stripLast (c : Char) (s : Text) : Option Text :=
  if s.getLast? = some c then some s.dropLast else none

/-- The lines of a text, without their ends. -/
def lines (s : Text) : List Text :=
  let pieces := s.splitOn '\n'
  pieces.dropLast.map (fun line => (stripLast '\r' line).getD line) ++
    (pieces.getLast?.filter (fun last => last ≠ [])).toList

theorem lines_eq_singleton (hne : s ≠ []) (h : '\n' ∉ s) :
    lines s = [s] := by
  unfold lines
  rw [List.splitOn_eq_singleton h]
  simp [hne]

theorem lines_append_newline (h : '\n' ∉ s)
    (hlast : s.getLast? ≠ some '\r') : lines (s ++ ['\n']) = [s] := by
  have hpieces : (s ++ ['\n']).splitOn '\n' = [s, []] := by
    rw [List.splitOn_append_cons_self, List.splitOn_eq_singleton h, List.splitOn_nil]
    rfl
  unfold lines stripLast
  rw [hpieces]
  simp [hlast]

theorem append_cons_eq_iff {a b c d : Text} :
    a ++ sep :: b = c ++ sep :: d <-> (a = c ∧ b = d) ∨
        (exists w, c = a ++ sep :: w ∧ b = w ++ sep :: d) ∨
        (exists w, a = c ++ sep :: w ∧ d = w ++ sep :: b) := by
  rw [List.append_eq_append_iff]
  constructor
  · rintro (⟨w, hc, hrest⟩ | ⟨w, ha, hrest⟩)
    · cases w with
      | nil =>
        injection hrest with _ htail
        rw [List.append_nil] at hc
        exact Or.inl ⟨hc.symm, htail⟩
      | cons x rest =>
        injection hrest with hsep htail
        rw [← hsep] at hc
        exact Or.inr (Or.inl ⟨rest, hc, htail⟩)
    · cases w with
      | nil =>
        injection hrest with _ htail
        rw [List.append_nil] at ha
        exact Or.inl ⟨ha, htail.symm⟩
      | cons x rest =>
        injection hrest with hsep htail
        rw [← hsep] at ha
        exact Or.inr (Or.inr ⟨rest, ha, htail⟩)
  · rintro (⟨hac, hbd⟩ | ⟨w, hc, hb⟩ | ⟨w, ha, hd⟩)
    · exact Or.inl ⟨[], by rw [hac, List.append_nil], by rw [hbd]; rfl⟩
    · exact Or.inl ⟨sep :: w, hc, by rw [hb]; rfl⟩
    · exact Or.inr ⟨sep :: w, ha, by rw [hd]; rfl⟩

end Text

end Lib
end PrxWaf
