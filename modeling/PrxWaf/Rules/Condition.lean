import PrxWaf.Engine.Context
import PrxWaf.Lib.Traverse

/-!
# Conditions of custom rules

A condition compares a field of the request with a value.  Conditions are
evaluated in two ways: directly, and after a compilation that builds expressions,
networks and sets once.  Expressions, globs, the reading of networks, the lossy
reading of bytes and the lower case of a text are given by libraries.
-/

namespace PrxWaf
namespace Rules

open Lib Net Http Cache Engine

structure Externals (regex glob : Type) where
  regexNew : Text -> Option regex
  regexIsMatch : regex -> Text -> Bool
  globNew : Text -> Option glob
  globIsMatch : glob -> Text -> Bool
  parseIpNet : Text -> Option IpNet
  fromUtf8Lossy : Bytes -> Text
  toLowercase : Text -> Text

inductive ConditionField where
  | ip
  | path
  | query
  | method
  | body
  | cookie (name : Option Text)
  | userAgent
  | contentType
  | contentLength
  | host
  | header (name : Text)
  | geoCountry
  | geoIso
  | geoProvince
  | geoCity
  | geoIsp
  deriving DecidableEq

inductive Operator where
  | eq
  | ne
  | contains
  | notContains
  | startsWith
  | endsWith
  | regex
  | wildcard
  | inList
  | notInList
  | cidrMatch
  | gt
  | lt
  | gte
  | lte
  deriving DecidableEq

inductive ConditionValue where
  | str (s : Text)
  | list (l : List Text)
  | number (n : Int)
  deriving DecidableEq

structure Condition where
  field : ConditionField
  operator : Operator
  value : ConditionValue
  deriving DecidableEq

inductive ConditionOp where
  | and
  | or
  deriving DecidableEq

variable {regex glob : Type} (ext : Externals regex glob)

def fieldValue (ctx : InspectCtx) : ConditionField -> Option Text
  | .ip => some ctx.clientIp.display
  | .path => some ctx.path
  | .query => some ctx.query
  | .method => some ctx.method
  | .host => some ctx.host
  | .contentLength => some (Nat.repr ctx.contentLength).toList
  | .body => some (ext.fromUtf8Lossy ctx.bodyPreview)
  | .cookie none => ctx.headers.lookup "cookie".toList
  | .cookie (some name) => ctx.cookies.lookup name
  | .userAgent => ctx.headers.lookup "user-agent".toList
  | .contentType => ctx.headers.lookup "content-type".toList
  | .header name => ctx.headers.lookup (ext.toLowercase name)
  | .geoCountry => ctx.geo.map GeoIpInfo.country
  | .geoIso => ctx.geo.map GeoIpInfo.isoCode
  | .geoProvince => ctx.geo.map GeoIpInfo.province
  | .geoCity => ctx.geo.map GeoIpInfo.city
  | .geoIsp => ctx.geo.map GeoIpInfo.isp

/-- The value that a condition looks at: a missing field is empty. -/
def fieldText (ctx : InspectCtx) (field : ConditionField) : Text :=
  (fieldValue ext ctx field).getD []

def parseI64 (s : Text) : Option Int :=
  Text.parseSigned (2 ^ 63) s

def evalOne (ctx : InspectCtx) (cond : Condition) : Bool :=
  let fstr := fieldText ext ctx cond.field
  match cond.operator, cond.value with
  | .eq, .str v => eqIgnoreAsciiCase fstr v
  | .ne, .str v => !eqIgnoreAsciiCase fstr v
  | .contains, .str v => decide (v <:+: fstr)
  | .notContains, .str v => !decide (v <:+: fstr)
  | .startsWith, .str v => v.isPrefixOf fstr
  | .endsWith, .str v => v.isSuffixOf fstr
  | .regex, .str v => (ext.regexNew v).any (fun r => ext.regexIsMatch r fstr)
  | .inList, .list l => l.any (fun v => v == fstr)
  | .notInList, .list l => !l.any (fun v => v == fstr)
  | .cidrMatch, .str cidr =>
    (ext.parseIpNet cidr).any (fun net => net.contains ctx.clientIp)
  | .gt, .number n => (parseI64 fstr).any (fun v => n < v)
  | .lt, .number n => (parseI64 fstr).any (fun v => v < n)
  | .gte, .number n => (parseI64 fstr).any (fun v => n ≤ v)
  | .lte, .number n => (parseI64 fstr).any (fun v => v ≤ n)
  | _, _ => false

/-- A rule without conditions never matches. -/
def evalConditions (ctx : InspectCtx) (conditions : List Condition) (op : ConditionOp) : Bool :=
  if conditions = [] then false
  else
    match op with
    | .and => conditions.all (evalOne ext ctx)
    | .or => conditions.any (evalOne ext ctx)

inductive Matcher (regex glob : Type) where
  | eq (s : Text)
  | ne (s : Text)
  | contains (s : Text)
  | notContains (s : Text)
  | startsWith (s : Text)
  | endsWith (s : Text)
  | regex (re : regex)
  | glob (g : glob)
  | inList (set : List Text)
  | notInList (set : List Text)
  | cidr (net : IpNet)
  | gt (n : Int)
  | lt (n : Int)
  | gte (n : Int)
  | lte (n : Int)

structure CompiledCondition (regex glob : Type) where
  field : ConditionField
  matcher : Matcher regex glob

inductive CompileError where
  | invalidRegex (s : Text)
  | emptyWildcard
  | bareWildcard
  | invalidWildcard (s : Text)
  | invalidCidr (s : Text)
  | unsupported (op : Operator) (value : ConditionValue)
  | maxDepth
  | maxLeaves
  deriving DecidableEq

def compileMatcher (cond : Condition) : Except CompileError (Matcher regex glob) :=
  match cond.operator, cond.value with
  | .eq, .str s => .ok (.eq s)
  | .ne, .str s => .ok (.ne s)
  | .contains, .str s => .ok (.contains s)
  | .notContains, .str s => .ok (.notContains s)
  | .startsWith, .str s => .ok (.startsWith s)
  | .endsWith, .str s => .ok (.endsWith s)
  | .regex, .str s =>
    match ext.regexNew s with
    | some re => .ok (.regex re)
    | none => .error (.invalidRegex s)
  | .wildcard, .str s =>
    if Text.trim s = [] then .error .emptyWildcard
    else if Text.trim s = "**".toList then .error .bareWildcard
    else
      match ext.globNew (Text.trim s) with
      | some g => .ok (.glob g)
      | none => .error (.invalidWildcard s)
  | .inList, .list l => .ok (.inList l)
  | .notInList, .list l => .ok (.notInList l)
  | .cidrMatch, .str s =>
    match ext.parseIpNet s with
    | some net => .ok (.cidr net)
    | none => .error (.invalidCidr s)
  | .gt, .number n => .ok (.gt n)
  | .lt, .number n => .ok (.lt n)
  | .gte, .number n => .ok (.gte n)
  | .lte, .number n => .ok (.lte n)
  | op, value => .error (.unsupported op value)

def compileCondition (cond : Condition) : Except CompileError (CompiledCondition regex glob) :=
  (compileMatcher ext cond).map (fun matcher =>
    { field := cond.field, matcher := matcher })

def Matcher.isMatch (fstr : Text) (ip : IpAddr) : Matcher regex glob -> Bool
  | .eq s => eqIgnoreAsciiCase fstr s
  | .ne s => !eqIgnoreAsciiCase fstr s
  | .contains s => decide (s <:+: fstr)
  | .notContains s => !decide (s <:+: fstr)
  | .startsWith s => s.isPrefixOf fstr
  | .endsWith s => s.isSuffixOf fstr
  | .regex re => ext.regexIsMatch re fstr
  | .glob g => ext.globIsMatch g fstr
  | .inList set => set.contains fstr
  | .notInList set => !set.contains fstr
  | .cidr net => net.contains ip
  | .gt n => (parseI64 fstr).any (fun v => n < v)
  | .lt n => (parseI64 fstr).any (fun v => v < n)
  | .gte n => (parseI64 fstr).any (fun v => n ≤ v)
  | .lte n => (parseI64 fstr).any (fun v => v ≤ n)

def CompiledCondition.eval (ctx : InspectCtx) (cond : CompiledCondition regex glob) : Bool :=
  cond.matcher.isMatch ext (fieldText ext ctx cond.field) ctx.clientIp

theorem isMatch_compileMatcher {cond : Condition}
    {matcher : Matcher regex glob} (hwild : cond.operator ≠ .wildcard)
    (h : compileMatcher ext cond = .ok matcher) (ctx : InspectCtx) :
    matcher.isMatch ext (fieldText ext ctx cond.field) ctx.clientIp = evalOne ext ctx cond := by
  rcases cond with ⟨field, op, value⟩
  unfold compileMatcher at h
  dsimp only at h hwild
  split at h
  case h_7 s =>
      -- an expression that does not compile is an error here and false there
      cases hre : ext.regexNew s with
      | none =>
        rw [hre] at h
        cases h
      | some re =>
        rw [hre] at h
        injection h with h
        rw [← h]
        simp only [evalOne, Matcher.isMatch, hre, Option.any_some]
  case h_8 => exact absurd rfl hwild
  case h_9 l =>
      injection h with h
      rw [← h]
      exact List.any_beq'.symm
  case h_10 l =>
      injection h with h
      rw [← h]
      exact congrArg not List.any_beq'.symm
  case h_11 s =>
      cases hnet : ext.parseIpNet s with
      | none =>
        rw [hnet] at h
        cases h
      | some net =>
        rw [hnet] at h
        injection h with h
        rw [← h]
        simp only [evalOne, Matcher.isMatch, hnet, Option.any_some]
  case h_16 => cases h
  all_goals
    injection h with h
    rw [← h]
    rfl

theorem eval_compileCondition {cond : Condition} {compiled : CompiledCondition regex glob}
    (hwild : cond.operator ≠ .wildcard)
    (h : compileCondition ext cond = .ok compiled) (ctx : InspectCtx) :
    compiled.eval ext ctx = evalOne ext ctx cond := by
  rcases map_ok h with ⟨matcher, hmatcher, hcompiled⟩
  rw [← hcompiled]
  exact isMatch_compileMatcher ext hwild hmatcher ctx

end Rules
end PrxWaf
