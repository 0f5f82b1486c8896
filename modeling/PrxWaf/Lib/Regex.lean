import PrxWaf.Lib.Text

/-!
# Regular expressions without repetition

Expressions built from classes of characters, and a matcher that lists what can be
left of a text after a match at its beginning.
-/

namespace PrxWaf
namespace Lib

inductive Regex where
  | empty
  | char (p : Char -> Bool)
  | seq (first second : Regex)
  | alt (left right : Regex)
  | atEnd

namespace Regex

/-- The expression takes a text when another one stands behind it. -/
inductive Takes : Regex -> Text -> Text -> Prop where
  | empty {back : Text} : Takes empty [] back
  | char {p : Char -> Bool} {c : Char} {back : Text} (hchar : p c = true) :
      Takes (char p) [c] back
  | seq {first second : Regex} {s t back : Text}
      (hfirst : Takes first s (t ++ back)) (hsecond : Takes second t back) :
      Takes (seq first second) (s ++ t) back
  | left {left right : Regex} {s back : Text} (hleft : Takes left s back) :
      Takes (alt left right) s back
  | right {left right : Regex} {s back : Text} (hright : Takes right s back) :
      Takes (alt left right) s back
  | atEnd : Takes atEnd [] []

/-- What can be left of the text behind a match. -/
def rests : Regex -> Text -> List Text
  | empty, s => [s]
  | char p, s =>
    match s with
    | [] => []
    | c :: back => if p c then [back] else []
  | seq first second, s => (first.rests s).flatMap second.rests
  | alt left right, s => left.rests s ++ right.rests s
  | atEnd, s => if s = [] then [[]] else []

def isMatch (r : Regex) (s : Text) : Bool :=
  s.tails.any (fun back => r.rests back ≠ [])

variable {r : Regex} {s back t : Text}

theorem mem_rests_of_takes (h : Takes r s back) :
    back ∈ r.rests (s ++ back) := by
  induction h with
  | empty => exact List.mem_singleton_self _
  | char hchar =>
    rw [List.singleton_append, rests, if_pos hchar]
    exact List.mem_singleton_self _
  | seq _ _ ihfirst ihsecond =>
    rw [rests, List.append_assoc]
    exact List.mem_flatMap.mpr ⟨_, ihfirst, ihsecond⟩
  | left _ ih => exact List.mem_append_left _ ih
  | right _ ih => exact List.mem_append_right _ ih
  | atEnd => exact List.mem_singleton_self _

theorem takes_of_mem_rests (h : back ∈ r.rests t) : exists s, t = s ++ back ∧ Takes r s back := by
  induction r generalizing t back with
  | empty =>
    rw [List.mem_singleton.mp h]
    exact ⟨[], rfl, .empty⟩
  | char p =>
    cases t with
    | nil => cases h
    | cons c rest =>
      rw [rests] at h
      split at h
      · rename_i hchar
        rw [List.mem_singleton.mp h]
        exact ⟨[c], rfl, .char hchar⟩
      · cases h
  | seq first second ihfirst ihsecond =>
    obtain ⟨middle, hmiddle, hback⟩ := List.mem_flatMap.mp h
    obtain ⟨s, rfl, hfirst⟩ := ihfirst hmiddle
    obtain ⟨u, rfl, hsecond⟩ := ihsecond hback
    exact ⟨s ++ u, (List.append_assoc s u back).symm, .seq hfirst hsecond⟩
  | alt left right ihleft ihright =>
    rcases List.mem_append.mp h with hleft | hright
    · obtain ⟨s, hs, htakes⟩ := ihleft hleft
      exact ⟨s, hs, .left htakes⟩
    · obtain ⟨s, hs, htakes⟩ := ihright hright
      exact ⟨s, hs, .right htakes⟩
  | atEnd =>
    rw [rests] at h
    split at h
    · rename_i hend
      rw [hend, List.mem_singleton.mp h]
      exact ⟨[], rfl, .atEnd⟩
    · cases h

/-- The matcher finds exactly what the expression takes somewhere. -/
theorem isMatch_iff :
    r.isMatch t = true <->
      exists front s back, t = front ++ (s ++ back) ∧ Takes r s back := by
  unfold isMatch
  rw [List.any_eq_true]
  constructor
  · rintro ⟨later, hlater, hrests⟩
    obtain ⟨front, rfl⟩ := (List.mem_tails later t).mp hlater
    obtain ⟨back, hback⟩ := List.exists_mem_of_ne_nil _ (of_decide_eq_true hrests)
    obtain ⟨s, rfl, htakes⟩ := takes_of_mem_rests hback
    exact ⟨front, s, back, rfl, htakes⟩
  · rintro ⟨front, s, back, rfl, htakes⟩
    refine ⟨s ++ back, (List.mem_tails _ _).mpr ⟨front, rfl⟩, decide_eq_true ?_⟩
    exact List.ne_nil_of_mem (mem_rests_of_takes htakes)

theorem isMatch_of_inside (h : forall back, Takes r s back) (hinside : s <:+: t) :
    r.isMatch t = true := by
  obtain ⟨front, back, rfl⟩ := hinside
  exact isMatch_iff.mpr ⟨front, s, back, List.append_assoc front s back, h back⟩

/-- The characters of a word one after the other, up to a relation. -/
def word (same : Char -> Char -> Bool) (w : Text) : Regex :=
  w.foldr (fun c r => seq (char (same c)) r) empty

theorem takes_word {same : Char -> Char -> Bool} {w : Text}
    (h : List.Forall₂ (fun c d => same c d = true) w s) (back : Text) :
    Takes (word same w) s back := by
  induction h with
  | nil => exact .empty
  | cons hchar _ ih => exact .seq (.char hchar) ih

def oneOf (first : Regex) (others : List Regex) : Regex :=
  others.foldl alt first

theorem takes_oneOf_first {first : Regex} (others : List Regex)
    {s back : Text} (h : Takes first s back) :
    Takes (oneOf first others) s back := by
  induction others generalizing first with
  | nil => exact h
  | cons _ _ ih => exact ih (.left h)

theorem takes_oneOf {first : Regex} {others : List Regex}
    (hmem : r ∈ first :: others) (h : Takes r s back) :
    Takes (oneOf first others) s back := by
  induction others generalizing first with
  | nil =>
    rw [List.mem_singleton.mp hmem] at h
    exact h
  | cons next others ih =>
    rcases List.mem_cons.mp hmem with rfl | hmem
    · exact takes_oneOf_first others (.left h)
    · rcases List.mem_cons.mp hmem with rfl | hmem
      · exact takes_oneOf_first others (.right h)
      · exact ih (List.mem_cons_of_mem _ hmem)

end Regex

end Lib
end PrxWaf
