import PrxWaf.Cache.Rule

/-!
# The cache decision

Whether a response is stored, and for how long, is decided by a chain of gates.
Each gate refuses, accepts with a time to live, or leaves the decision to the
next one; the first gate that decides wins.
-/

namespace PrxWaf
namespace Cache

open Lib Http

inductive BypassReason where
  | criticalTier
  | noCachePolicy
  | nonIdempotentMethod
  | nonCacheableStatus
  | setCookie
  | upstreamNoStore
  | upstreamNoCache
  | upstreamPrivate
  | authenticated
  | explicitDeny
  | noMatch
  deriving DecidableEq

inductive Verdict where
  | bypass (reason : BypassReason)
  | cache (ttl : Nat) (tags : List Text)
  | continue_
  deriving DecidableEq

structure CacheCtx where
  tier : Tier
  method : Text
  host : Text
  path : Text
  status : UInt16
  headers : List (Text × Text)
  cacheControl : Option Text
  policy : CachePolicy
  maxTtlSecs : Nat
  defaultTtlSecs : Nat
  hasAuthorization : Bool
  hasCookie : Bool

abbrev Gate := CacheCtx -> Verdict

def resolve : List Gate -> CacheCtx -> Verdict
  | [], _ => .bypass .noMatch
  | gate :: rest, ctx =>
    match gate ctx with
    | .continue_ => resolve rest ctx
    | verdict => verdict

variable {ctx : CacheCtx}

variable (rest : List Gate) (set : CompiledRuleSet) {gate : Gate} {header : Text}

theorem resolve_of_continue (h : gate ctx = .continue_) :
    resolve (gate :: rest) ctx = resolve rest ctx := by
  simp only [resolve, h]

theorem resolve_of_decides (h : gate ctx ≠ .continue_) :
    resolve (gate :: rest) ctx = gate ctx := by
  unfold resolve
  split
  · rename_i hcontinue
    exact absurd hcontinue h
  · rfl

theorem resolve_ne_continue (gates : List Gate) (ctx : CacheCtx) :
    resolve gates ctx ≠ .continue_ := by
  induction gates with
  | nil =>
    intro h
    cases h
  | cons gate rest ih =>
    intro h
    rcases Decidable.em (gate ctx = .continue_) with hcontinue | hdecides
    · rw [resolve_of_continue rest hcontinue] at h
      exact ih h
    · rw [resolve_of_decides rest hdecides] at h
      exact hdecides h

def policyCeilingSecs (policy : CachePolicy) (hardMax : Nat) : Nat :=
  match policy with
  | .noCache => 0
  | .shortTtl ttlSeconds => ttlSeconds.toNat
  | .aggressive ttlSeconds => ttlSeconds.toNat
  | .default _ => hardMax

def policyDefaultSecs (policy : CachePolicy) (fallbackSecs : Nat) : Nat :=
  match policy with
  | .noCache => fallbackSecs
  | .shortTtl ttlSeconds => ttlSeconds.toNat
  | .aggressive ttlSeconds => ttlSeconds.toNat
  | .default ttlSeconds => ttlSeconds.toNat

inductive CcDecision where
  | none
  | noStore
  | noCache
  | isPrivate
  | maxAge (secs : Nat)
  deriving DecidableEq

def maxAgeOf (part : Text) : Option Nat :=
  let part := Text.trim part
  if "max-age=".toList.isPrefixOf part then
    Text.parseUnsigned (2 ^ 64) (Text.trim (part.drop "max-age=".toList.length))
  else Option.none

/-- A directive is recognised anywhere in the header, not only as an item of
the list. -/
def mentions (directive : String) (lower : Text) : Bool :=
  decide (directive.toList <:+: lower)

def parseCacheControl : Option Text -> CcDecision
  | Option.none => .none
  | some header =>
    let lower := toAsciiLowercase header
    if mentions "no-store" lower then .noStore
    else if mentions "no-cache" lower then .noCache
    else if mentions "private" lower then .isPrivate
    else
      match (lower.splitOn ',').findSome? maxAgeOf with
      | some secs => .maxAge secs
      | Option.none => .none

/-! ## Gates -/

def tierGate : Gate := fun ctx =>
  if ctx.tier = .critical then .bypass .criticalTier
  else if ctx.policy = .noCache then .bypass .noCachePolicy
  else .continue_

def isGetOrHead (method : Text) : Bool :=
  eqIgnoreAsciiCase method "GET".toList || eqIgnoreAsciiCase method "HEAD".toList

def methodGate : Gate := fun ctx =>
  if isGetOrHead ctx.method then .continue_ else .bypass .nonIdempotentMethod

def authGate : Gate := fun ctx =>
  if ctx.hasAuthorization || ctx.hasCookie then .bypass .authenticated
  else .continue_

/-- `allowAuthenticated` is recorded with the rule and read by no gate. -/
def routeRuleGate (set : CompiledRuleSet) : Gate := fun ctx =>
  match set.firstMatch ctx.host ctx.path ctx.method with
  | some rule =>
    if rule.ttl = 0 then .bypass .explicitDeny
    else .cache (min rule.ttl ctx.maxTtlSecs) (rule.id :: rule.tags)
  | none => .continue_

def IsSuccess (status : UInt16) : Prop :=
  200 ≤ status ∧ status < 300

instance (status : UInt16) : Decidable (IsSuccess status) :=
  inferInstanceAs (Decidable (_ ∧ _))

def hasSetCookie (headers : List (Text × Text)) : Bool :=
  headers.any (fun line => eqIgnoreAsciiCase line.1 "set-cookie".toList)

def upstreamCcGate : Gate := fun ctx =>
  if ¬ IsSuccess ctx.status then .bypass .nonCacheableStatus
  else if hasSetCookie ctx.headers then .bypass .setCookie
  else
    match parseCacheControl ctx.cacheControl with
    | .noStore => .bypass .upstreamNoStore
    | .noCache => .bypass .upstreamNoCache
    | .isPrivate => .bypass .upstreamPrivate
    | .maxAge secs =>
      let ceiling := policyCeilingSecs ctx.policy ctx.maxTtlSecs
      .cache (min (min secs ceiling) ctx.maxTtlSecs) []
    | .none => .continue_

def tierDefaultGate : Gate := fun ctx =>
  .cache (policyDefaultSecs ctx.policy ctx.defaultTtlSecs) []

def gates (set : CompiledRuleSet) : List Gate :=
  [tierGate, methodGate, authGate, routeRuleGate set, upstreamCcGate, tierDefaultGate]

/-!
## What the chain decides

The first three gates look only at the request.  A request that passes them is
decided by its route rule; the response itself is looked at only when no rule
matches.
-/

def CacheCtx.PassesRequestGates (ctx : CacheCtx) : Prop :=
  ctx.tier ≠ .critical ∧ ctx.policy ≠ .noCache ∧
    isGetOrHead ctx.method = true ∧ ctx.hasAuthorization = false ∧
    ctx.hasCookie = false

def ForbidsStorage (header : Text) : Prop :=
  mentions "no-store" (toAsciiLowercase header) = true ∨
    mentions "no-cache" (toAsciiLowercase header) = true ∨
    mentions "private" (toAsciiLowercase header) = true

instance (header : Text) : Decidable (ForbidsStorage header) :=
  inferInstanceAs (Decidable (_ ∨ _))

theorem resolve_gates_of_passes (h : ctx.PassesRequestGates) :
    resolve (gates set) ctx = resolve [routeRuleGate set, upstreamCcGate, tierDefaultGate] ctx := by
  rcases h with ⟨htier, hpolicy, hmethod, hauth, hcookie⟩
  have htierGate : tierGate ctx = .continue_ := by
    simp only [tierGate, htier, hpolicy, if_false]
  have hmethodGate : methodGate ctx = .continue_ := by
    simp only [methodGate, hmethod, if_true]
  have hauthGate : authGate ctx = .continue_ := by
    simp only [authGate, hauth, hcookie, Bool.or_self, Bool.false_eq_true, if_false]
  rw [gates, resolve_of_continue _ htierGate, resolve_of_continue _ hmethodGate,
    resolve_of_continue _ hauthGate]

theorem resolve_gates_of_match {set : CompiledRuleSet}
    {rule : CompiledRule} (h : ctx.PassesRequestGates)
    (hmatch : set.firstMatch ctx.host ctx.path ctx.method = some rule) :
    resolve (gates set) ctx =
      if rule.ttl = 0 then .bypass .explicitDeny
      else .cache (min rule.ttl ctx.maxTtlSecs) (rule.id :: rule.tags) := by
  have hgate : routeRuleGate set ctx =
      if rule.ttl = 0 then .bypass .explicitDeny
      else .cache (min rule.ttl ctx.maxTtlSecs) (rule.id :: rule.tags) := by
    simp only [routeRuleGate, hmatch]
  rw [resolve_gates_of_passes set h, resolve_of_decides, hgate]
  rw [hgate]
  split
  · exact fun heq => Verdict.noConfusion heq
  · exact fun heq => Verdict.noConfusion heq

theorem resolve_gates_of_no_match {set : CompiledRuleSet}
    (h : ctx.PassesRequestGates) (hmatch : set.firstMatch ctx.host ctx.path ctx.method = none) :
    resolve (gates set) ctx = resolve [upstreamCcGate, tierDefaultGate] ctx := by
  rw [resolve_gates_of_passes set h, resolve_of_continue]
  simp only [routeRuleGate, hmatch]

theorem parseCacheControl_of_forbids (h : ForbidsStorage header) :
    parseCacheControl (some header) = .noStore ∨ parseCacheControl (some header) = .noCache ∨
      parseCacheControl (some header) = .isPrivate := by
  simp only [parseCacheControl]
  split
  · exact Or.inl rfl
  · rename_i hstore
    split
    · exact Or.inr (Or.inl rfl)
    · rename_i hcache
      rw [if_pos ((h.resolve_left hstore).resolve_left hcache)]
      exact Or.inr (Or.inr rfl)

theorem parseCacheControl_of_not_forbids (h : ¬ ForbidsStorage header) :
    parseCacheControl (some header) = .none ∨
      exists secs, parseCacheControl (some header) = .maxAge secs := by
  rcases not_or.mp h with ⟨hstore, hrest⟩
  rcases not_or.mp hrest with ⟨hcache, hprivate⟩
  simp only [parseCacheControl, if_neg hstore, if_neg hcache, if_neg hprivate]
  split
  · rename_i secs _
    exact Or.inr ⟨secs, rfl⟩
  · exact Or.inl rfl

theorem resolve_upstream_bypass_iff (hstatus : IsSuccess ctx.status) :
    (exists reason, resolve [upstreamCcGate, tierDefaultGate] ctx = .bypass reason) <->
      hasSetCookie ctx.headers = true ∨
        exists header, ctx.cacheControl = some header ∧ ForbidsStorage header := by
  have hdefault : resolve [tierDefaultGate] ctx =
      .cache (policyDefaultSecs ctx.policy ctx.defaultTtlSecs) [] := rfl
  rcases Bool.eq_false_or_eq_true (hasSetCookie ctx.headers) with hcookie | hcookie
  · have hgate : upstreamCcGate ctx = .bypass .setCookie := by
      simp only [upstreamCcGate, hstatus, hcookie, not_true, if_false, if_true]
    refine ⟨fun _ => Or.inl hcookie, fun _ => ⟨.setCookie, ?_⟩⟩
    rw [resolve_of_decides _ (by rw [hgate]; exact Verdict.noConfusion), hgate]
  · simp only [resolve, upstreamCcGate, hstatus, hcookie, not_true, if_false,
      Bool.false_eq_true, false_or]
    cases hcc : ctx.cacheControl with
    | none =>
      simp [parseCacheControl, tierDefaultGate]
    | some header =>
      rcases Decidable.em (ForbidsStorage header) with hforbids | hallows
      · rcases parseCacheControl_of_forbids hforbids with heq | heq | heq
        all_goals simp [heq, hforbids]
      · rcases parseCacheControl_of_not_forbids hallows with heq | ⟨secs, heq⟩
        all_goals simp [heq, hallows, tierDefaultGate]

theorem resolve_gates_bypass_iff (h : ctx.PassesRequestGates) (hstatus : IsSuccess ctx.status) :
    (exists reason, resolve (gates set) ctx = .bypass reason) <->
      (exists rule, set.firstMatch ctx.host ctx.path ctx.method = some rule ∧ rule.ttl = 0) ∨
      (set.firstMatch ctx.host ctx.path ctx.method = none ∧ (hasSetCookie ctx.headers = true ∨
          exists header, ctx.cacheControl = some header ∧ ForbidsStorage header)) := by
  cases hmatch : set.firstMatch ctx.host ctx.path ctx.method with
  | none =>
    rw [resolve_gates_of_no_match h hmatch, resolve_upstream_bypass_iff hstatus]
    simp
  | some rule =>
    rw [resolve_gates_of_match h hmatch]
    split
    · rename_i hzero
      simp [hzero]
    · rename_i hpos
      simp [hpos]

end Cache
end PrxWaf
