import PrxWaf.Rules.Condition

/-!
# Compilation of custom rules

A rule has either a flat list of conditions under one connective or a tree of
conditions.  Both are compiled to a tree of matchers.
-/

namespace PrxWaf
namespace Rules

open Lib Net Engine

inductive RuleAction where
  | block
  | allow
  | log
  | challenge
  deriving DecidableEq

inductive ConditionNode where
  | and (nodes : List ConditionNode)
  | or (nodes : List ConditionNode)
  | not (node : ConditionNode)
  | leaf (cond : Condition)

structure CustomRule where
  id : Text
  hostCode : Text
  name : Text
  priority : Int
  enabled : Bool
  conditionOp : ConditionOp
  conditions : List Condition
  action : RuleAction
  actionStatus : UInt16
  actionMsg : Option Text
  script : Option Text
  matchTree : Option ConditionNode

inductive CompiledNode (regex glob : Type) where
  | leaf (cond : CompiledCondition regex glob)
  | and (nodes : List (CompiledNode regex glob))
  | or (nodes : List (CompiledNode regex glob))
  | not (node : CompiledNode regex glob)

structure CompiledRule (regex glob : Type) where
  ruleMeta : CustomRule
  root : CompiledNode regex glob

def maxTreeDepth : Nat := 16

def maxTreeLeaves : Nat := 256

mutual

/-- Walk a node at a depth, given the leaves counted so far. -/
def walk : Nat -> Nat -> ConditionNode -> Except CompileError Nat
  | depth, leaves, .and nodes =>
    if maxTreeDepth < depth then .error .maxDepth
    else walkAll (depth + 1) leaves nodes
  | depth, leaves, .or nodes =>
    if maxTreeDepth < depth then .error .maxDepth
    else walkAll (depth + 1) leaves nodes
  | depth, leaves, .not node =>
    if maxTreeDepth < depth then .error .maxDepth
    else walk (depth + 1) leaves node
  | depth, leaves, .leaf _ =>
    if maxTreeDepth < depth then .error .maxDepth
    else if maxTreeLeaves < leaves + 1 then .error .maxLeaves
    else .ok (leaves + 1)

def walkAll : Nat -> Nat -> List ConditionNode -> Except CompileError Nat
  | _, leaves, [] => .ok leaves
  | depth, leaves, node :: rest =>
    match walk depth leaves node with
    | .error e => .error e
    | .ok leaves => walkAll depth leaves rest

end

def validateTree (node : ConditionNode) : Except CompileError Unit :=
  (walk 1 0 node).map (fun _ => ())

variable {regex glob : Type} (ext : Externals regex glob)

mutual

def compileTree : ConditionNode -> Except CompileError (CompiledNode regex glob)
  | .leaf cond => (compileCondition ext cond).map .leaf
  | .and nodes => (compileTrees nodes).map .and
  | .or nodes => (compileTrees nodes).map .or
  | .not node => (compileTree node).map .not

def compileTrees : List ConditionNode -> Except CompileError (List (CompiledNode regex glob))
  | [] => .ok []
  | node :: rest => do
      let first <- compileTree node
      let others <- compileTrees rest
      return first :: others

end

def compileRoot (rule : CustomRule) : Except CompileError (CompiledNode regex glob) :=
  match rule.matchTree with
  | some tree => do
      validateTree tree
      compileTree ext tree
  | none => do
      let leaves <- rule.conditions.mapM (fun cond =>
        (compileCondition ext cond).map CompiledNode.leaf)
      match rule.conditionOp with
      | .and => return .and leaves
      | .or => return .or leaves

def compileRule (rule : CustomRule) : Except CompileError (CompiledRule regex glob) :=
  (compileRoot ext rule).map (fun root => { ruleMeta := rule, root := root })

mutual

def evalCompiledNode (ctx : InspectCtx) : CompiledNode regex glob -> Bool
  | .leaf cond => cond.eval ext ctx
  | .and nodes => evalAll ctx nodes
  | .or nodes => evalAny ctx nodes
  | .not node => !evalCompiledNode ctx node

def evalAll (ctx : InspectCtx) : List (CompiledNode regex glob) -> Bool
  | [] => true
  | node :: rest => evalCompiledNode ctx node && evalAll ctx rest

def evalAny (ctx : InspectCtx) : List (CompiledNode regex glob) -> Bool
  | [] => false
  | node :: rest => evalCompiledNode ctx node || evalAny ctx rest

end

section Leaves

variable {ext} {conditions : List Condition}
  {leaves : List (CompiledNode regex glob)}

theorem evalLeaves (hwild : forall cond, cond ∈ conditions -> cond.operator ≠ .wildcard)
    (h : conditions.mapM (fun cond =>
      (compileCondition ext cond).map CompiledNode.leaf) = .ok leaves) (ctx : InspectCtx) :
    evalAll ext ctx leaves = conditions.all (evalOne ext ctx) ∧
      evalAny ext ctx leaves = conditions.any (evalOne ext ctx) := by
  induction conditions generalizing leaves with
  | nil =>
    injection h with h
    rw [← h]
    exact ⟨rfl, rfl⟩
  | cons cond rest ih =>
    rw [List.mapM_cons] at h
    rcases bind_ok h with ⟨first, hfirst, h⟩
    rcases bind_ok h with ⟨others, hothers, h⟩
    rcases map_ok hfirst with ⟨compiled, hcompiled, hleaf⟩
    injection h with h
    have heval := eval_compileCondition ext (hwild cond List.mem_cons_self) hcompiled ctx
    have hrest := ih (fun c hc => hwild c (List.mem_cons_of_mem cond hc)) hothers
    rw [← h, ← hleaf, evalAll, evalAny, evalCompiledNode, heval, hrest.1, hrest.2]
    exact ⟨rfl, rfl⟩

end Leaves

theorem evalCompiledNode_compileRoot {rule : CustomRule}
    {root : CompiledNode regex glob} (htree : rule.matchTree = none)
    (hwild : forall cond, cond ∈ rule.conditions -> cond.operator ≠ .wildcard)
    (h : compileRoot ext rule = .ok root) (ctx : InspectCtx) :
    evalCompiledNode ext ctx root =
      match rule.conditionOp with
      | .and => rule.conditions.all (evalOne ext ctx)
      | .or => rule.conditions.any (evalOne ext ctx) := by
  unfold compileRoot at h
  rw [htree] at h
  rcases bind_ok h with ⟨leaves, hleaves, h⟩
  have heval := evalLeaves hwild hleaves ctx
  cases hop : rule.conditionOp with
  | and =>
    rw [hop] at h
    injection h with h
    rw [← h, evalCompiledNode, heval.1]
  | or =>
    rw [hop] at h
    injection h with h
    rw [← h, evalCompiledNode, heval.2]

/-- The compiled form of a flat rule and its conditions agree on a request
exactly when there is a condition or the conditions are joined by or. -/
theorem evalCompiledNode_eq_evalConditions_iff {rule : CustomRule}
    {compiled : CompiledRule regex glob} (htree : rule.matchTree = none)
    (hwild : forall cond, cond ∈ rule.conditions -> cond.operator ≠ .wildcard)
    (hcompile : compileRule ext rule = .ok compiled) (ctx : InspectCtx) :
    evalCompiledNode ext ctx compiled.root =
        evalConditions ext ctx rule.conditions rule.conditionOp <->
      rule.conditions ≠ [] ∨ rule.conditionOp = .or := by
  rcases map_ok hcompile with ⟨root, hroot, hcompiled⟩
  rw [← hcompiled, evalCompiledNode_compileRoot ext htree hwild hroot ctx]
  unfold evalConditions
  cases hconds : rule.conditions with
  | nil =>
    cases rule.conditionOp with
    | and => simp
    | or => simp
  | cons cond rest =>
    rw [if_neg (List.cons_ne_nil cond rest)]
    cases rule.conditionOp with
    | and => simp
    | or => simp

def bareRule : CustomRule :=
  { id := "r1".toList
    hostCode := "shop".toList
    name := "bare".toList
    priority := 1
    enabled := true
    conditionOp := .and
    conditions := []
    action := .block
    actionStatus := 403
    actionMsg := none
    script := none
    matchTree := none }

/-- Libraries that know plain texts only. -/
def literalExternals : Externals Text Text :=
  { regexNew := some
    regexIsMatch := fun re s => decide (re <:+: s)
    globNew := some
    globIsMatch := fun g s => g == s
    parseIpNet := fun _ => none
    fromUtf8Lossy := fun bytes => bytes.map (fun b => Char.ofNat b.toNat)
    toLowercase := Http.toAsciiLowercase }

def adminRule : CustomRule :=
  { bareRule with
    conditions := [{
      field := .path
      operator := .startsWith
      value := .str "/admin".toList }] }

theorem adminRule_agrees :
    exists compiled, compileRule literalExternals adminRule = .ok compiled ∧
      evalCompiledNode literalExternals plainCtx compiled.root =
        evalConditions literalExternals plainCtx adminRule.conditions
          adminRule.conditionOp := by
  have htree : adminRule.matchTree = none := rfl
  have hwild : forall cond, cond ∈ adminRule.conditions -> cond.operator ≠ .wildcard := by
    decide
  refine ⟨_, rfl, ?_⟩
  exact (evalCompiledNode_eq_evalConditions_iff literalExternals htree hwild
    rfl plainCtx).mpr (Or.inl (by decide))

/-- Compiled, a rule without conditions matches every request; evaluated
directly it matches none. -/
theorem bareRule_disagrees :
    exists compiled, compileRule literalExternals bareRule = .ok compiled ∧
      evalCompiledNode literalExternals plainCtx compiled.root = true ∧
      evalConditions literalExternals plainCtx bareRule.conditions bareRule.conditionOp = false :=
  ⟨_, rfl, rfl, rfl⟩

end Rules
end PrxWaf
