import PrxWaf.Rules.Compile

/-!
# The custom rules engine

Loaded rules stand in one bucket per site, sorted by ascending priority, and in
one bucket for all sites.  A request meets the rules of its site first.
-/

namespace PrxWaf
namespace Rules

open Lib Net Engine

inductive RuleSource where
  | db
  | file
  deriving DecidableEq

structure RuleEntry (regex glob : Type) where
  raw : CustomRule
  compiled : Option (CompiledRule regex glob)
  source : RuleSource

@[ext]
structure CustomRulesEngine (regex glob : Type) where
  rules : Text -> List (RuleEntry regex glob)

variable {regex glob : Type}

def RuleEntry.fromRuleWithSource (ext : Externals regex glob)
    (rule : CustomRule) (source : RuleSource) : RuleEntry regex glob :=
  { raw := rule
    compiled := (compileRule ext rule).toOption
    source := source }

def sortByPriority (bucket : List (RuleEntry regex glob)) : List (RuleEntry regex glob) :=
  bucket.insertionSort (fun a b => a.raw.priority ≤ b.raw.priority)

def rulesOf (hostCode : Text) (rules : List CustomRule) : List CustomRule :=
  rules.filter (fun rule => rule.hostCode = hostCode)

def entriesOf (ext : Externals regex glob) (source : RuleSource)
    (rules : List CustomRule) : List (RuleEntry regex glob) :=
  rules.map (fun rule => RuleEntry.fromRuleWithSource ext rule source)

namespace CustomRulesEngine

def empty : CustomRulesEngine regex glob :=
  { rules := fun _ => [] }

def loadHost (ext : Externals regex glob) (hostCode : Text)
    (rules : List CustomRule) (engine : CustomRulesEngine regex glob) :
    CustomRulesEngine regex glob :=
  let entries := entriesOf ext .db (rules.filter (fun rule => rule.enabled))
  { rules := Function.update engine.rules hostCode (sortByPriority entries) }

def insertRule (ext : Externals regex glob) (source : RuleSource)
    (engine : CustomRulesEngine regex glob) (rule : CustomRule) :
    CustomRulesEngine regex glob :=
  let entry := RuleEntry.fromRuleWithSource ext rule source
  { rules := Function.update engine.rules rule.hostCode
      (sortByPriority (engine.rules rule.hostCode ++ [entry])) }

def addRule (ext : Externals regex glob) :=
  insertRule ext .db

def addFileRule (ext : Externals regex glob) :=
  insertRule ext .file

def clearFileRules (engine : CustomRulesEngine regex glob) : CustomRulesEngine regex glob :=
  { rules := fun hostCode =>
      (engine.rules hostCode).filter (fun entry => entry.source ≠ .file) }

def removeRule (hostCode ruleId : Text)
    (engine : CustomRulesEngine regex glob) : CustomRulesEngine regex glob :=
  { rules := Function.update engine.rules hostCode
      ((engine.rules hostCode).filter (fun entry => entry.raw.id ≠ ruleId)) }

end CustomRulesEngine

structure ScriptScope where
  ip : Text
  path : Text
  method : Text
  query : Text
  host : Text
  userAgent : Text
  referer : Text
  contentType : Text
  contentLength : Int

def scriptScope (ctx : InspectCtx) : ScriptScope :=
  { ip := ctx.clientIp.display
    path := ctx.path
    method := ctx.method
    query := ctx.query
    host := ctx.host
    userAgent := (ctx.headers.lookup "user-agent".toList).getD []
    referer := (ctx.headers.lookup "referer".toList).getD []
    contentType := (ctx.headers.lookup "content-type".toList).getD []
    -- the length is reinterpreted as a signed number
    contentLength := Int.bmod ctx.contentLength (2 ^ 64) }

/-- The interpreter of scripts, which may fail. -/
def Rhai : Type :=
  ScriptScope -> Text -> Option Bool

section Eval

variable (ext : Externals regex glob) (rhai : Rhai)

def evalScript (ctx : InspectCtx) (script : Text) : Bool :=
  (rhai (scriptScope ctx) script).getD false

/-- A script decides alone; otherwise the compiled tree does; the conditions are
evaluated directly only when the rule did not compile. -/
def RuleEntry.matched (ctx : InspectCtx) (entry : RuleEntry regex glob) : Bool :=
  match entry.raw.script with
  | some script => evalScript rhai ctx script
  | none =>
    match entry.compiled with
    | some compiled => evalCompiledNode ext ctx compiled.root
    | none =>
      evalConditions ext ctx entry.raw.conditions entry.raw.conditionOp

/-- A rule that is not enabled is passed over. -/
def RuleEntry.applies (ctx : InspectCtx) (entry : RuleEntry regex glob) : Bool :=
  entry.raw.enabled && entry.matched ext rhai ctx

def detection (rule : CustomRule) : DetectionResult :=
  { ruleId := some rule.id
    ruleName := rule.name
    phase := .customRule
    detail := "Custom rule '".toList ++ rule.name ++ "' matched".toList }

def evalList (ctx : InspectCtx) : List (RuleEntry regex glob) -> Option DetectionResult
  | [] => none
  | entry :: rest =>
    if entry.applies ext rhai ctx then
      some (detection entry.raw)
    else evalList ctx rest

def CustomRulesEngine.check (engine : CustomRulesEngine regex glob)
    (ctx : InspectCtx) : Option DetectionResult :=
  match evalList ext rhai ctx (engine.rules ctx.hostConfig.code) with
  | some result => some result
  | none => evalList ext rhai ctx (engine.rules "*".toList)

/-- The first enabled rule that matches, those of the site before those of all
sites. -/
def CustomRulesEngine.firstMatch (engine : CustomRulesEngine regex glob)
    (ctx : InspectCtx) : Option CustomRule :=
  ((engine.rules ctx.hostConfig.code ++ engine.rules "*".toList).find?
    (RuleEntry.applies ext rhai ctx)).map RuleEntry.raw

theorem evalList_eq (ctx : InspectCtx) (bucket : List (RuleEntry regex glob)) :
    evalList ext rhai ctx bucket = (bucket.find? (RuleEntry.applies ext rhai ctx)).map
        (fun entry => detection entry.raw) := by
  induction bucket with
  | nil => rfl
  | cons entry rest ih =>
    rw [evalList]
    split
    · rename_i hmatch
      rw [List.find?_cons_of_pos hmatch]
      rfl
    · rename_i hmatch
      rw [List.find?_cons_of_neg hmatch, ih]

theorem check_eq_firstMatch (engine : CustomRulesEngine regex glob) (ctx : InspectCtx) :
    engine.check ext rhai ctx = (engine.firstMatch ext rhai ctx).map detection := by
  unfold CustomRulesEngine.check CustomRulesEngine.firstMatch
  rw [evalList_eq, evalList_eq, List.find?_append]
  cases (engine.rules ctx.hostConfig.code).find? (RuleEntry.applies ext rhai ctx) with
  | none =>
    rw [Option.none_or, Option.map_map]
    rfl
  | some entry => rfl

end Eval

variable {rule : CustomRule}

variable {rest : List CustomRule} {hostCode : Text} {ext : Externals regex glob} {rhai : Rhai}
  {ctx : InspectCtx}

theorem rulesOf_cons_self (hhost : rule.hostCode = hostCode) :
    rulesOf hostCode (rule :: rest) = rule :: rulesOf hostCode rest := by
  unfold rulesOf
  rw [List.filter_cons, if_pos (decide_eq_true hhost)]

theorem rulesOf_cons_of_ne (hhost : rule.hostCode ≠ hostCode) :
    rulesOf hostCode (rule :: rest) = rulesOf hostCode rest := by
  unfold rulesOf
  rw [List.filter_cons, if_neg]
  simpa using hhost

section Buckets

variable (ext : Externals regex glob) (source : RuleSource)

theorem sortByPriority_perm (bucket : List (RuleEntry regex glob)) :
    (sortByPriority bucket).Perm bucket :=
  List.perm_insertionSort _ bucket

namespace CustomRulesEngine

variable {ext source}

variable {rules : List CustomRule} {engine : CustomRulesEngine regex glob}

theorem loadHost_rules_self :
    (engine.loadHost ext hostCode rules).rules hostCode = sortByPriority
        (entriesOf ext .db (rules.filter (fun rule => rule.enabled))) :=
  Function.update_self _ _ _

theorem loadHost_rules_of_ne {other : Text} (hother : other ≠ hostCode) :
    (engine.loadHost ext hostCode rules).rules other = engine.rules other :=
  Function.update_of_ne hother _ _

theorem insertRule_rules_self {rule : CustomRule} :
    (engine.insertRule ext source rule).rules rule.hostCode =
      sortByPriority (engine.rules rule.hostCode ++
        [RuleEntry.fromRuleWithSource ext rule source]) :=
  Function.update_self _ _ _

theorem insertRule_rules_of_ne {rule : CustomRule} {other : Text} (hother : other ≠ rule.hostCode) :
    (engine.insertRule ext source rule).rules other = engine.rules other :=
  Function.update_of_ne hother _ _

variable (ext source)

theorem foldl_insertRule_perm (rules : List CustomRule) (hostCode : Text)
    (engine : CustomRulesEngine regex glob) :
    ((rules.foldl (insertRule ext source) engine).rules hostCode).Perm (engine.rules hostCode ++
        entriesOf ext source (rulesOf hostCode rules)) := by
  induction rules generalizing engine with
  | nil =>
    change (engine.rules hostCode).Perm (engine.rules hostCode ++ [])
    rw [List.append_nil]
  | cons rule rest ih =>
    rw [List.foldl_cons]
    refine (ih _).trans ?_
    rcases Decidable.em (rule.hostCode = hostCode) with hhost | hhost
    · rw [rulesOf_cons_self hhost]
      have hself : ((engine.insertRule ext source rule).rules hostCode).Perm
          (engine.rules hostCode ++ [RuleEntry.fromRuleWithSource ext rule source]) := by
        rw [← hhost, insertRule_rules_self]
        exact sortByPriority_perm _
      have happ := hself.append_right (entriesOf ext source (rulesOf hostCode rest))
      rw [List.append_assoc] at happ
      exact happ
    · rw [rulesOf_cons_of_ne hhost, insertRule_rules_of_ne (Ne.symm hhost)]

theorem foldl_insertRule_of_none
    (hnone : rulesOf hostCode rules = []) (engine : CustomRulesEngine regex glob) :
    (rules.foldl (insertRule ext source) engine).rules hostCode = engine.rules hostCode := by
  induction rules generalizing engine with
  | nil => rfl
  | cons rule rest ih =>
    rcases Decidable.em (rule.hostCode = hostCode) with hhost | hhost
    · rw [rulesOf_cons_self hhost] at hnone
      cases hnone
    · rw [rulesOf_cons_of_ne hhost] at hnone
      exact (ih hnone _).trans (insertRule_rules_of_ne (Ne.symm hhost))

theorem foldl_insertRule_congr
    {left right : CustomRulesEngine regex glob} (h : left.rules hostCode = right.rules hostCode) :
    (rules.foldl (insertRule ext source) left).rules hostCode =
      (rules.foldl (insertRule ext source) right).rules hostCode := by
  induction rules generalizing left right with
  | nil => exact h
  | cons rule rest ih =>
    refine ih ?_
    rcases Decidable.em (rule.hostCode = hostCode) with hhost | hhost
    · rw [← hhost] at h ⊢
      rw [insertRule_rules_self, insertRule_rules_self, h]
    · rw [insertRule_rules_of_ne (Ne.symm hhost), insertRule_rules_of_ne (Ne.symm hhost), h]

end CustomRulesEngine

end Buckets

end Rules
end PrxWaf
