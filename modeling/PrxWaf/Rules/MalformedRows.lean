import PrxWaf.Rules.ConditionJson
import PrxWaf.Rules.Lookup

/-!
# Malformed rule rows

A conditions column that is no list of conditions is read as the empty list.  The
rule compiles, and its connective decides alone which requests it matches: with `and`
every one, with `or` none.
-/

namespace PrxWaf
namespace Rules

open Lib Engine

variable {regex glob : Type} {ext : Externals regex glob}

/-- The column is neither a list of conditions nor an object with a match tree. -/
def Malformed (value : Json) : Prop :=
  conditionsFromValue value = none ∧
    forall node, value.field "match_tree".toList = some node -> ConditionNode.fromValue node = none

/-- Whatever calls were made, no request is reported to match the rule of the
row. -/
def NeverReported (ext : Externals regex glob) (row : DbCustomRule) : Prop :=
  forall rule, fromDbRule ext row = some rule ->
    forall (calls : List RuleCall) (rhai : Rhai) (ctx : InspectCtx),
      (engineAfter ext calls).firstMatch ext rhai ctx ≠ some rule

section Rows

variable {row : DbCustomRule} {value : Json}

theorem fromDbRule_of_match_tree (hcolumn : row.conditions = ConditionsColumn.ofValue value)
    (hmalformed : Malformed value) (htree : (value.field "match_tree".toList).isSome = true) :
    fromDbRule ext row = none := by
  rcases Option.isSome_iff_exists.mp htree with ⟨node, hnode⟩
  unfold fromDbRule
  rw [hcolumn, ConditionsColumn.ofValue, hnode]
  dsimp only
  rw [hmalformed.2 node hnode]
  rfl

def bareRowRule (ext : Externals regex glob) (row : DbCustomRule) : CustomRule where
  id := row.id
  hostCode := row.hostCode
  name := row.name
  priority := row.priority
  enabled := row.enabled
  conditionOp := ConditionOp.parseStr row.conditionOp
  conditions := []
  action := RuleAction.parseStr ext row.action
  actionStatus := statusOf row.actionStatus
  actionMsg := row.actionMsg
  script := row.script
  matchTree := none

theorem fromDbRule_of_malformed (ext : Externals regex glob)
    (hcolumn : row.conditions = ConditionsColumn.ofValue value) (hmalformed : Malformed value)
    (htree : (value.field "match_tree".toList).isSome = false) :
    fromDbRule ext row = some (bareRowRule ext row) := by
  rw [Option.isSome_eq_false_iff, Option.isNone_iff_eq_none] at htree
  unfold fromDbRule
  rw [hcolumn, ConditionsColumn.ofValue, htree]
  dsimp only
  rw [hmalformed.1]
  rfl

theorem ruleHolds_bareRowRule (ext : Externals regex glob)
    (hscript : row.script = none) (rhai : Rhai) (ctx : InspectCtx) :
    ruleHolds ext rhai ctx (bareRowRule ext row) =
      decide (ConditionOp.parseStr row.conditionOp = .and) := by
  unfold ruleHolds RuleEntry.matched RuleEntry.fromRuleWithSource bareRowRule
    compileRule compileRoot
  dsimp only
  rw [hscript]
  cases ConditionOp.parseStr row.conditionOp with
  | and => rfl
  | or => rfl

end Rows

theorem holds_of_firstMatch {calls : List RuleCall} {rhai : Rhai}
    {ctx : InspectCtx} {rule : CustomRule}
    (h : (engineAfter ext calls).firstMatch ext rhai ctx = some rule) :
    rule.enabled = true ∧ ruleHolds ext rhai ctx rule = true := by
  rcases Option.map_eq_some_iff.mp h with ⟨entry, hfind, rfl⟩
  have happlies := List.find?_some hfind
  have hentry : entry = RuleEntry.fromRuleWithSource ext entry.raw entry.source := by
    rcases List.mem_append.mp (List.mem_of_find?_eq_some hfind) with hmem | hmem
    · exact entry_of_mem_engineAfter hmem
    · exact entry_of_mem_engineAfter hmem
  unfold RuleEntry.applies at happlies
  rw [Bool.and_eq_true] at happlies
  refine ⟨happlies.1, ?_⟩
  rw [hentry] at happlies
  exact happlies.2

def requestFor (hostCode : Text) : InspectCtx :=
  { plainCtx with hostConfig := { plainCtx.hostConfig with code := hostCode } }

def noScripts : Rhai :=
  fun _ _ => none

theorem firstMatch_addRule {rule : CustomRule} {rhai : Rhai} (henabled : rule.enabled = true)
    (hholds : ruleHolds ext rhai (requestFor rule.hostCode) rule = true) :
    (engineAfter ext [.addRule rule]).firstMatch ext rhai
      (requestFor rule.hostCode) = some rule := by
  have hbucket : (engineAfter ext [.addRule rule]).rules rule.hostCode =
      [RuleEntry.fromRuleWithSource ext rule .db] := CustomRulesEngine.insertRule_rules_self
  have happlies : (RuleEntry.fromRuleWithSource ext rule .db).applies ext rhai
      (requestFor rule.hostCode) = true := by
    unfold RuleEntry.applies
    rw [Bool.and_eq_true]
    exact ⟨henabled, hholds⟩
  unfold CustomRulesEngine.firstMatch
  have hcode : (requestFor rule.hostCode).hostConfig.code = rule.hostCode := rfl
  rw [hcode, hbucket, List.singleton_append, List.find?_cons_of_pos happlies]
  rfl

/-- The rule of a malformed row without a script is never reported exactly if the
column is an object with a match tree, and the row is refused, or the connective is
`or`, or the row is not enabled. -/
theorem malformed_row_neverReported_iff {row : DbCustomRule} {value : Json}
    (hcolumn : row.conditions = ConditionsColumn.ofValue value)
    (hmalformed : Malformed value) (hscript : row.script = none) :
    NeverReported ext row <-> (value.field "match_tree".toList).isSome = true ∨
        ConditionOp.parseStr row.conditionOp = .or ∨ row.enabled = false := by
  cases htree : (value.field "match_tree".toList).isSome with
  | true =>
    refine iff_of_true ?_ (Or.inl rfl)
    intro rule hrule
    rw [fromDbRule_of_match_tree hcolumn hmalformed htree] at hrule
    cases hrule
  | false =>
    have hrow := fromDbRule_of_malformed ext hcolumn hmalformed htree
    have hholds := ruleHolds_bareRowRule ext hscript
    constructor
    · intro hnever
      right
      cases hop : ConditionOp.parseStr row.conditionOp with
      | or => exact Or.inl rfl
      | and =>
        right
        cases henabled : row.enabled with
        | false => rfl
        | true =>
          refine absurd (firstMatch_addRule ?_ ?_) (hnever _ hrow _ noScripts _)
          · exact henabled
          · rw [hholds, hop]
            rfl
    · rintro (hfalse | hop | henabled) rule hrule calls rhai ctx hreport
      · cases hfalse
      · rw [hrow] at hrule
        injection hrule with hrule
        have hyes := (holds_of_firstMatch hreport).2
        rw [← hrule, hholds, hop] at hyes
        cases hyes
      · rw [hrow] at hrule
        injection hrule with hrule
        have hyes := (holds_of_firstMatch hreport).1
        rw [← hrule] at hyes
        exact absurd (henabled.symm.trans hyes) Bool.false_ne_true

def textRow (conditionOp : String) : DbCustomRule :=
  { shopRow with
    conditionOp := conditionOp.toList
    conditions := .ofValue (.string "path = /admin".toList) }

theorem malformed_text (s : Text) : Malformed (.string s) := by
  refine ⟨rfl, ?_⟩
  intro node hnode
  cases hnode

theorem text_row_with_or_neverReported :
    NeverReported literalExternals (textRow "OR") :=
  (malformed_row_neverReported_iff rfl (malformed_text _) rfl).mpr (Or.inr (Or.inl (by decide)))

/-- The row is loaded, and its rule matches every request of the site. -/
theorem text_row_matches_everything :
    exists rule, fromDbRule literalExternals (textRow "and") = some rule ∧
      (forall (rhai : Rhai) (ctx : InspectCtx), ctx.hostConfig.code = "shop".toList ->
          (engineAfter literalExternals
            [.loadHost "shop".toList [rule]]).check literalExternals rhai ctx =
              some (detection rule)) ∧ ¬ NeverReported literalExternals (textRow "and") := by
  refine ⟨bareRowRule literalExternals (textRow "and"), rfl, ?_, ?_⟩
  · intro rhai ctx hcode
    unfold CustomRulesEngine.check
    rw [hcode]
    rfl
  · intro hnever
    exact hnever _ rfl [.addRule (bareRowRule literalExternals (textRow "and"))]
      noScripts _ (firstMatch_addRule rfl rfl)

end Rules
end PrxWaf
