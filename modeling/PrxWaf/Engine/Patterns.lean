import PrxWaf.Engine.Context

/-!
# Pattern sets

A detector compares a text with the patterns of a set and reports the first one that
matches.
-/

namespace PrxWaf
namespace Engine

open Lib

/-- The patterns of a `RegexSet`, each by what it matches. -/
abbrev PatternSet : Type :=
  List (Text -> Bool)

def PatternSet.firstMatch (set : PatternSet) (value : Text) : Option Nat :=
  set.findIdx? (fun pattern => pattern value)

theorem PatternSet.firstMatch_isSome_iff {set : PatternSet} {value : Text} :
    (set.firstMatch value).isSome = true <->
      exists pattern, pattern ∈ set ∧ pattern value = true := by
  unfold firstMatch
  rw [List.findIdx?_isSome, List.any_eq_true]

def threeDigits (n : Nat) : Text :=
  let digits := Nat.toDigits 10 n
  List.replicate (3 - digits.length) '0' ++ digits

/-- What the detectors with a pattern set have in common. -/
structure PatternReport where
  code : Text
  ruleName : Text
  phase : Phase
  descs : List Text
  otherDesc : Text

def PatternReport.result (report : PatternReport) (idx : Nat) (location : Text) : DetectionResult :=
  { ruleId := some (report.code ++ '-' :: threeDigits (idx + 1))
    ruleName := report.ruleName
    phase := report.phase
    detail := report.descs.getD idx report.otherDesc ++ " detected in ".toList ++ location }

end Engine
end PrxWaf
