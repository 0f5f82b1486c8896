import PrxWaf.Common.Tier
import PrxWaf.Http.Header

/-!
# Cache rules

A cache configuration is a list of route rules.  Each rule is compiled once into
matchers for host, path and method, and the set of all rules is validated as a
whole: its version, the identifiers, the tags and the size of the patterns.

The engine for regular expressions is a parameter.  It answers nothing for a
pattern that is malformed or that exceeds the size limit of one pattern.
-/

namespace PrxWaf
namespace Cache

open Lib Http

abbrev RegexEngine := Text -> Option (Text -> Bool)

structure MethodSet where
  bits : BitVec 16
  deriving DecidableEq

namespace MethodSet

def methodBit : HttpMethod -> Nat
  | .get => 0
  | .head => 1
  | .post => 2
  | .put => 3
  | .delete => 4
  | .connect => 5
  | .options => 6
  | .trace => 7
  | .patch => 8

def httpBits : List (String × Nat) :=
  [("GET", 0), ("HEAD", 1), ("POST", 2), ("PUT", 3), ("DELETE", 4),
    ("CONNECT", 5), ("OPTIONS", 6), ("TRACE", 7), ("PATCH", 8)]

def empty : MethodSet :=
  { bits := 0 }

def insert (set : MethodSet) (m : HttpMethod) : MethodSet :=
  { bits := set.bits ||| BitVec.twoPow 16 (methodBit m) }

/-- Extension methods have no bit and are in no set. -/
def containsHttp (set : MethodSet) (method : Text) : Bool :=
  match httpBits.find? (fun entry => entry.1.toList == method) with
  | some entry => set.bits &&& BitVec.twoPow 16 entry.2 != 0
  | none => false

end MethodSet

inductive PathSpec where
  | pathPrefix (text : Text)
  | regex (pattern : Text)

structure MatchDoc where
  host : Option Text
  path : PathSpec
  methods : Option (List HttpMethod)

structure RuleDoc where
  id : Text
  match_ : MatchDoc
  ttlSeconds : UInt32
  tags : List Text
  allowAuthenticated : Bool

structure Defaults where
  respectUpstreamCacheControl : Bool

/-- The derived default; a `defaults` table without the field sets it. -/
def Defaults.derived : Defaults :=
  { respectUpstreamCacheControl := false }

structure CacheConfigDoc where
  version : UInt32
  defaults : Defaults
  rules : List RuleDoc

inductive HostMatcher where
  | any
  | exact (host : Text)
  | suffix (tail : Text)
  | regex (isMatch : Text -> Bool)

def HostMatcher.matchesHost : HostMatcher -> Text -> Bool
  | any, _ => true
  | exact v, hostLower => hostLower == v
  | suffix v, hostLower => v.isSuffixOf hostLower
  | regex r, hostLower => r hostLower

inductive PathMatcher where
  | pathPrefix (text : Text)
  | regex (isMatch : Text -> Bool)

def PathMatcher.matchesPath : PathMatcher -> Text -> Bool
  | pathPrefix v, path => v.isPrefixOf path
  | regex r, path => r path

inductive RuleCompileError where
  | badPathRegex (id : Text)
  | badHostRegex (id : Text)
  deriving DecidableEq

structure CompiledRule where
  id : Text
  host : HostMatcher
  path : PathMatcher
  methods : Option MethodSet
  ttl : Nat
  tags : List Text
  allowAuthenticated : Bool

def hostMetacharacters : Text :=
  "^$|()[]+?\\".toList

def compileHost (regex : RegexEngine) (id : Text) :
    Option Text -> Except RuleCompileError HostMatcher
  | none => .ok .any
  | some raw =>
    let trimmed := Text.trim raw
    if trimmed = [] ∨ trimmed = ['*'] then .ok .any
    else if ['*', '.'].isPrefixOf trimmed then
      .ok (.suffix ('.' :: toAsciiLowercase (trimmed.drop 2)))
    else if trimmed.any (fun c => hostMetacharacters.contains c) then
      match regex trimmed with
      | some r => .ok (.regex r)
      | none => .error (.badHostRegex id)
    else .ok (.exact (toAsciiLowercase trimmed))

def compilePath (regex : RegexEngine) (id : Text) : PathSpec -> Except RuleCompileError PathMatcher
  | .pathPrefix text => .ok (.pathPrefix text)
  | .regex pattern =>
    match regex pattern with
    | some r => .ok (.regex r)
    | none => .error (.badPathRegex id)

def compileMethods (methods : List HttpMethod) : MethodSet :=
  methods.foldl MethodSet.insert MethodSet.empty

namespace CompiledRule

def tryFromDoc (regex : RegexEngine) (doc : RuleDoc) : Except RuleCompileError CompiledRule :=
  match compileHost regex doc.id doc.match_.host with
  | .error e => .error e
  | .ok host =>
    match compilePath regex doc.id doc.match_.path with
    | .error e => .error e
    | .ok path =>
      .ok
        { id := doc.id
          host := host
          path := path
          methods := doc.match_.methods.map compileMethods
          ttl := doc.ttlSeconds.toNat
          tags := doc.tags
          allowAuthenticated := doc.allowAuthenticated }

/-- The method is a token here: `matchesStr` is the entry for plain texts. -/
def matchesMethod (rule : CompiledRule) (hostLower path method : Text) : Bool :=
  rule.host.matchesHost hostLower && rule.path.matchesPath path &&
    match rule.methods with
    | some set => set.containsHttp method
    | none => true

def matchesStr (rule : CompiledRule) (hostLower path method : Text) : Bool :=
  decide (IsToken method) && rule.matchesMethod hostLower path method

theorem tryFromDoc_fields {regex : RegexEngine} {doc : RuleDoc}
    {rule : CompiledRule} (h : tryFromDoc regex doc = .ok rule) :
    rule.id = doc.id ∧ rule.tags = doc.tags ∧ rule.ttl = doc.ttlSeconds.toNat := by
  unfold tryFromDoc at h
  split at h
  · cases h
  · split at h
    · cases h
    · injection h with h
      rw [← h]
      exact ⟨rfl, rfl, rfl⟩

end CompiledRule

inductive RuleSetError where
  | unsupportedVersion (version : UInt32)
  | duplicateId (id : Text)
  | emptyTags (id : Text)
  | regexBudgetExceeded (budget : Nat)
  | compile (error : RuleCompileError)
  deriving DecidableEq

def totalRegexBudgetBytes : Nat := 1024 * 1024

def utf8Len (s : Text) : Nat :=
  (s.map Char.utf8Size).sum

/-- The costed characters are fewer than `hostMetacharacters`. -/
def approxRegexCost (doc : RuleDoc) : Nat :=
  let pathCost :=
    match doc.match_.path with
    | .regex pattern => utf8Len pattern * 4
    | .pathPrefix _ => 0
  let hostCost :=
    match doc.match_.host with
    | some host =>
      if host.any (fun c => "^$|(\\".toList.contains c) then utf8Len host * 4
      else 0
    | none => 0
  pathCost + hostCost

def compileRules (regex : RegexEngine) :
    List Text -> Nat -> List RuleDoc -> Except RuleSetError (List CompiledRule)
  | _, _, [] => .ok []
  | seenIds, totalRegex, doc :: rest =>
    if doc.id ∈ seenIds then .error (.duplicateId doc.id)
    else if doc.tags = [] then .error (.emptyTags doc.id)
    else
      match CompiledRule.tryFromDoc regex doc with
      | .error e => .error (.compile e)
      | .ok rule =>
        if totalRegexBudgetBytes < totalRegex + approxRegexCost doc then
          .error (.regexBudgetExceeded totalRegexBudgetBytes)
        else
          match compileRules regex (doc.id :: seenIds) (totalRegex + approxRegexCost doc) rest with
          | .error e => .error e
          | .ok rules => .ok (rule :: rules)

theorem compileRules_wellFormed {regex : RegexEngine} {docs : List RuleDoc}
    {seenIds : List Text} {totalRegex : Nat} {rules : List CompiledRule}
    (h : compileRules regex seenIds totalRegex docs = .ok rules) :
    (rules.map CompiledRule.id).Nodup ∧ (forall rule, rule ∈ rules -> rule.id ∉ seenIds) ∧
      (forall rule, rule ∈ rules -> rule.tags ≠ []) := by
  induction docs generalizing seenIds totalRegex rules with
  | nil =>
    injection h with h
    rw [← h]
    exact ⟨List.nodup_nil, fun _ hr => absurd hr List.not_mem_nil,
      fun _ hr => absurd hr List.not_mem_nil⟩
  | cons doc rest ih =>
    unfold compileRules at h
    split at h
    · cases h
    · rename_i hfresh
      split at h
      · cases h
      · rename_i htags
        split at h
        · cases h
        · rename_i rule hrule
          split at h
          · cases h
          · split at h
            · cases h
            · rename_i tail htail
              injection h with h
              rcases ih htail with ⟨hnodup, hunseen, hnonempty⟩
              rcases CompiledRule.tryFromDoc_fields hrule with ⟨hid, hruleTags, _⟩
              rw [← h]
              refine ⟨?_, ?_, ?_⟩
              · rw [List.map_cons, List.nodup_cons]
                refine ⟨?_, hnodup⟩
                intro hmem
                rcases List.mem_map.mp hmem with ⟨other, hother, heq⟩
                apply hunseen other hother
                rw [heq, hid]
                exact List.mem_cons_self
              · intro r hr
                rcases List.mem_cons.mp hr with heq | hr
                · rw [heq, hid]
                  exact hfresh
                · intro hseen
                  exact hunseen r hr (List.mem_cons_of_mem _ hseen)
              · intro r hr
                rcases List.mem_cons.mp hr with heq | hr
                · rw [heq, hruleTags]
                  exact htags
                · exact hnonempty r hr

/-- Distinct identifiers and tags on every rule: an entry stored under a rule
can be purged by the rule's identifier and by a tag. -/
structure CompiledRuleSet where
  rules : List CompiledRule
  defaults : Defaults
  ids_nodup : (rules.map CompiledRule.id).Nodup
  tags_nonempty : forall rule, rule ∈ rules -> rule.tags ≠ []

namespace CompiledRuleSet

def empty : CompiledRuleSet where
  rules := []
  defaults := Defaults.derived
  ids_nodup := List.nodup_nil
  tags_nonempty := fun _ h => absurd h List.not_mem_nil

def tryFromDoc (regex : RegexEngine) (doc : CacheConfigDoc) : Except RuleSetError CompiledRuleSet :=
  if doc.version ≠ 1 then .error (.unsupportedVersion doc.version)
  else
    match h : compileRules regex [] 0 doc.rules with
    | .error e => .error e
    | .ok rules =>
      .ok
        { rules := rules
          defaults := doc.defaults
          ids_nodup := (compileRules_wellFormed h).left
          tags_nonempty := (compileRules_wellFormed h).right.right }

def firstMatch (set : CompiledRuleSet) (host path method : Text) : Option CompiledRule :=
  set.rules.find? (fun rule =>
    rule.matchesStr (toAsciiLowercase host) path method)

end CompiledRuleSet

end Cache
end PrxWaf
