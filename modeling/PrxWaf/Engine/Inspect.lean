import PrxWaf.Lib.Chain
import PrxWaf.RateLimit.Check
import PrxWaf.Rules.Engine

/-!
# The inspection pipeline

A request passes the address and path lists and then a chain of detectors, the
rate limit and the custom rules among them.  The first detection decides.  The
detectors that are not modelled are checks on a state of their own.
-/

namespace PrxWaf
namespace Engine

open Lib Net RateLimit Rules

structure RuleStore where
  allowIps : Text -> IpAddr -> Bool
  blockIps : Text -> IpAddr -> Bool
  allowUrls : Text -> Text -> Option Text
  blockUrls : Text -> Text -> Option Text

/-- The other detectors; those that are not configured never answer. -/
structure Detectors (rest : Type) where
  ddos : Check rest InspectCtx DetectionResult
  crowdsec : Check rest InspectCtx DetectionResult
  community : Check rest InspectCtx DetectionResult
  geo : Check rest InspectCtx DetectionResult
  txVelocity : Check rest InspectCtx DetectionResult
  scanner : Check rest InspectCtx DetectionResult
  bot : Check rest InspectCtx DetectionResult
  xss : Check rest InspectCtx DetectionResult
  rce : Check rest InspectCtx DetectionResult
  dirTraversal : Check rest InspectCtx DetectionResult
  sqli : Check rest InspectCtx DetectionResult
  appsec : Check rest InspectCtx DetectionResult
  owasp : Check rest InspectCtx DetectionResult
  sensitive : Check rest InspectCtx DetectionResult
  hotlink : Check rest InspectCtx DetectionResult

structure WafEngine (regex glob rest : Type) where
  store : RuleStore
  geoip : Option (IpAddr -> GeoIpInfo)
  detectors : Detectors rest
  rateLimit : RateLimitConfig
  customRules : CustomRulesEngine regex glob
  ext : Externals regex glob
  rhai : Rhai
  renderBlockPage : InspectCtx -> Text -> Text

structure EngineState (limits rest : Type) where
  limits : limits
  rest : rest

namespace WafEngine

variable {regex glob rest limits : Type} (engine : WafEngine regex glob rest)

def allowedBy (ruleId : Option Text) (ruleName : String) (phase : Phase)
    (detail : Text) : WafDecision :=
  { action := .allow
    result := some {
      ruleId := ruleId
      ruleName := ruleName.toList
      phase := phase
      detail := detail } }

def deniedBy (ruleId : Option Text) (ruleName : String) (phase : Phase)
    (detail : Text) : WafDecision :=
  WafDecision.block 403 (some "Access denied.".toList) {
    ruleId := ruleId
    ruleName := ruleName.toList
    phase := phase
    detail := detail }

def listDecision (ctx : InspectCtx) : Option WafDecision :=
  let code := ctx.hostConfig.code
  let ip := ctx.clientIp.display
  if engine.store.allowIps code ctx.clientIp then
    some (allowedBy none "IP Whitelist" .ipWhitelist
      ("IP ".toList ++ ip ++ " matched whitelist".toList))
  else if engine.store.blockIps code ctx.clientIp then
    some (deniedBy none "IP Blacklist" .ipBlacklist
      ("IP ".toList ++ ip ++ " matched blacklist".toList))
  else
    match engine.store.allowUrls code ctx.path with
    | some ruleId =>
      some (allowedBy (some ruleId) "URL Whitelist" .urlWhitelist
        ("Path ".toList ++ ctx.path ++ " matched URL whitelist".toList))
    | none =>
      (engine.store.blockUrls code ctx.path).map (fun ruleId =>
        deniedBy (some ruleId) "URL Blacklist" .urlBlacklist
          ("Path ".toList ++ ctx.path ++ " matched URL blacklist".toList))

def enriched (ctx : InspectCtx) : InspectCtx :=
  match engine.geoip with
  | some lookup => { ctx with geo := some (lookup ctx.clientIp) }
  | none => ctx

def onRest (check : Check rest InspectCtx DetectionResult) :
    Check (EngineState limits rest) InspectCtx DetectionResult :=
  fun s ctx =>
    let result := check s.rest ctx
    ({ s with rest := result.1 }, result.2)

def beforeRateLimit : List (Check (EngineState limits rest) InspectCtx DetectionResult) :=
  [engine.detectors.ddos, engine.detectors.crowdsec,
    engine.detectors.community, engine.detectors.geo].map onRest

def rateLimitPhase [RateLimitStore limits] (nowMs : Int) :
    Check (EngineState limits rest) InspectCtx DetectionResult :=
  fun s ctx =>
    let result := RateLimit.check engine.rateLimit nowMs s.limits ctx
    ({ s with limits := result.1 }, result.2)

def beforeCustom : List (Check (EngineState limits rest) InspectCtx DetectionResult) :=
  [engine.detectors.txVelocity, engine.detectors.scanner,
    engine.detectors.bot, engine.detectors.xss, engine.detectors.rce,
    engine.detectors.dirTraversal, engine.detectors.sqli,
    engine.detectors.appsec].map onRest

def customPhase : Check (EngineState limits rest) InspectCtx DetectionResult :=
  fun s ctx => (s, engine.customRules.check engine.ext engine.rhai ctx)

def afterCustom : List (Check (EngineState limits rest) InspectCtx DetectionResult) :=
  [engine.detectors.owasp, engine.detectors.sensitive, engine.detectors.hotlink].map onRest

section Inspect

variable [RateLimitStore limits] (nowMs : Int) (s : EngineState limits rest)
  (ctx : InspectCtx)

def upToCustom : List (Check (EngineState limits rest) InspectCtx DetectionResult) :=
  engine.beforeRateLimit ++ engine.rateLimitPhase nowMs :: engine.beforeCustom

def phases : List (Check (EngineState limits rest) InspectCtx DetectionResult) :=
  engine.upToCustom nowMs ++ engine.customPhase :: engine.afterCustom

def decisionFor (ctx : InspectCtx) (result : DetectionResult) : WafDecision :=
  if ctx.hostConfig.logOnlyMode then
    { action := .logOnly, result := some result }
  else
    WafDecision.block 403 (some (engine.renderBlockPage ctx result.ruleName)) result

def inspect : EngineState limits rest × WafDecision :=
  if ctx.hostConfig.guardStatus then
    let ctx := engine.enriched ctx
    match engine.listDecision ctx with
    | some decision => (s, decision)
    | none =>
      let found := firstAnswer (engine.phases nowMs) s ctx
      (found.1,
        match found.2 with
        | some result => engine.decisionFor ctx result
        | none => WafDecision.allow)
  else (s, WafDecision.allow)

def PassesLists : Prop :=
  ctx.hostConfig.guardStatus = true ∧ engine.listDecision (engine.enriched ctx) = none

def ReachesRateLimit (s : EngineState limits rest) (ctx : InspectCtx) : Prop :=
  engine.PassesLists ctx ∧ (firstAnswer engine.beforeRateLimit s (engine.enriched ctx)).2 = none

def ReachesCustom : Prop :=
  engine.PassesLists ctx ∧ (firstAnswer (engine.upToCustom nowMs) s (engine.enriched ctx)).2 = none

end Inspect

def Honours (rule : CustomRule) (decision : WafDecision) : Prop :=
  match rule.action with
  | .block => exists body, decision.action = .block rule.actionStatus body
  | .log => decision.action = .logOnly
  | .allow => decision.action = .allow
  | .challenge => True

section Custom

variable {engine} [RateLimitStore limits] {nowMs : Int}
  {s : EngineState limits rest} {ctx : InspectCtx}

theorem inspect_of_reachesCustom (hreach : engine.ReachesCustom nowMs s ctx) {rule : CustomRule}
    (hrule : engine.customRules.firstMatch engine.ext engine.rhai
      (engine.enriched ctx) = some rule) :
    (engine.inspect nowMs s ctx).2 = engine.decisionFor (engine.enriched ctx) (detection rule) := by
  rcases hreach with ⟨⟨hguard, hlists⟩, hnone⟩
  have hcheck := check_eq_firstMatch engine.ext engine.rhai engine.customRules (engine.enriched ctx)
  rw [hrule, Option.map_some] at hcheck
  have hfront : firstAnswer (engine.upToCustom nowMs) s (engine.enriched ctx) =
      ((firstAnswer (engine.upToCustom nowMs) s (engine.enriched ctx)).1, none) :=
    Prod.ext rfl hnone
  have hphase : forall mid : EngineState limits rest,
      engine.customPhase mid (engine.enriched ctx) = (mid, some (detection rule)) := by
    intro mid
    exact Prod.ext rfl hcheck
  unfold inspect
  rw [if_pos hguard]
  dsimp only
  rw [hlists]
  dsimp only
  unfold phases
  rw [firstAnswer_append_of_none hfront, firstAnswer_cons_of_some (hphase _)]

theorem enriched_hostConfig (engine : WafEngine regex glob rest) (ctx : InspectCtx) :
    (engine.enriched ctx).hostConfig = ctx.hostConfig := by
  unfold enriched
  cases engine.geoip with
  | none => rfl
  | some lookup => rfl

/-- A request that gets as far as the custom rules and is not only logged gets
what the first matching rule asks for, exactly when that is a block with status
403 or a challenge. -/
theorem inspect_honours_iff (hreach : engine.ReachesCustom nowMs s ctx)
    (hlog : ctx.hostConfig.logOnlyMode = false) {rule : CustomRule}
    (hrule : engine.customRules.firstMatch engine.ext engine.rhai
      (engine.enriched ctx) = some rule) :
    Honours rule (engine.inspect nowMs s ctx).2 <->
      rule.action = .block ∧ rule.actionStatus = 403 ∨ rule.action = .challenge := by
  rw [inspect_of_reachesCustom hreach hrule]
  unfold decisionFor Honours
  rw [enriched_hostConfig, hlog]
  cases haction : rule.action with
  | block =>
    constructor
    · rintro ⟨body, hbody⟩
      injection hbody with hstatus
      exact Or.inl ⟨rfl, hstatus.symm⟩
    · rintro (⟨_, hstatus⟩ | hchallenge)
      · rw [hstatus]
        exact ⟨_, rfl⟩
      · cases hchallenge
  | log =>
    constructor
    · intro h
      cases h
    · rintro (⟨h, _⟩ | h)
      · cases h
      · cases h
  | allow =>
    constructor
    · intro h
      cases h
    · rintro (⟨h, _⟩ | h)
      · cases h
      · cases h
  | challenge => exact ⟨fun _ => Or.inr rfl, fun _ => trivial⟩

end Custom

def quietDetectors : Detectors Unit :=
  let quiet : Check Unit InspectCtx DetectionResult := fun s _ => (s, none)
  { ddos := quiet
    crowdsec := quiet
    community := quiet
    geo := quiet
    txVelocity := quiet
    scanner := quiet
    bot := quiet
    xss := quiet
    rce := quiet
    dirTraversal := quiet
    sqli := quiet
    appsec := quiet
    owasp := quiet
    sensitive := quiet
    hotlink := quiet }

def quietEngine (config : RateLimitConfig) (customRules : CustomRulesEngine Text Text) :
    WafEngine Text Text Unit :=
  { store := {
      allowIps := fun _ _ => false
      blockIps := fun _ _ => false
      allowUrls := fun _ _ => none
      blockUrls := fun _ _ => none }
    geoip := none
    detectors := quietDetectors
    rateLimit := config
    customRules := customRules
    ext := literalExternals
    rhai := fun _ _ => none
    renderBlockPage := fun _ ruleName => ruleName }

def noLimits : RateLimitConfig :=
  { sessionCookie := "SESSIONID".toList, tiers := fun _ => none }

def everyPath (action : RuleAction) (status : UInt16) : CustomRule :=
  { bareRule with
    conditions := [{
      field := .path
      operator := .startsWith
      value := .str "/".toList }]
    action := action
    actionStatus := status }

def engineWith (rule : CustomRule) : WafEngine Text Text Unit :=
  quietEngine noLimits (CustomRulesEngine.empty.addRule literalExternals rule)

def freshState : EngineState MemoryStore Unit :=
  { limits := MemoryStore.empty, rest := () }

theorem firstMatch_everyPath (action : RuleAction) (status : UInt16) :
    (engineWith (everyPath action status)).customRules.firstMatch
        literalExternals (fun _ _ => none) plainCtx = some (everyPath action status) :=
  rfl

theorem reachesCustom_everyPath (action : RuleAction) (status : UInt16) :
    (engineWith (everyPath action status)).ReachesCustom 0 freshState
      plainCtx :=
  ⟨⟨rfl, rfl⟩, rfl⟩

theorem everyPath_block_honoured :
    Honours (everyPath .block 403)
      ((engineWith (everyPath .block 403)).inspect 0 freshState plainCtx).2 :=
  (inspect_honours_iff (reachesCustom_everyPath .block 403) rfl
    (firstMatch_everyPath .block 403)).mpr (Or.inl ⟨rfl, rfl⟩)

/-- A rule that only logs blocks the request. -/
theorem everyPath_log_blocks :
    (engineWith (everyPath .log 403)).ReachesCustom 0 freshState plainCtx ∧
      plainCtx.hostConfig.logOnlyMode = false ∧
      (engineWith (everyPath .log 403)).customRules.firstMatch
        literalExternals (fun _ _ => none) plainCtx = some (everyPath .log 403) ∧
      ((engineWith (everyPath .log 403)).inspect 0 freshState
        plainCtx).2.action = .block 403 (some "bare".toList) ∧ ¬ Honours (everyPath .log 403)
        ((engineWith (everyPath .log 403)).inspect 0 freshState plainCtx).2 :=
  ⟨⟨⟨rfl, rfl⟩, rfl⟩, rfl, rfl, rfl, fun h => by cases h⟩

/-!
## The rate limit

The phases around the rate limit leave its store alone, so an inspection charges what the
check charges if it gets there, and nothing otherwise.
-/

section Limits

variable {engine} {nowMs : Int} {s : EngineState limits rest} {ctx : InspectCtx}

theorem firstAnswer_onRest_limits (checks : List (Check rest InspectCtx DetectionResult))
    (s : EngineState limits rest) (ctx : InspectCtx) :
    (firstAnswer (checks.map onRest) s ctx).1.limits = s.limits := by
  refine firstAnswer_frame EngineState.limits ?_ s
  intro check hcheck s
  rcases List.mem_map.mp hcheck with ⟨_, _, hcheck⟩
  rw [← hcheck]
  rfl

theorem firstAnswer_front_limits (s : EngineState limits rest) :
    (firstAnswer engine.beforeRateLimit s ctx).1.limits = s.limits :=
  firstAnswer_onRest_limits [engine.detectors.ddos, engine.detectors.crowdsec,
    engine.detectors.community, engine.detectors.geo] s ctx

theorem firstAnswer_behind_limits (mid : EngineState limits rest) :
    (firstAnswer (engine.beforeCustom ++ engine.customPhase ::
      engine.afterCustom) mid ctx).1.limits = mid.limits := by
  refine firstAnswer_frame EngineState.limits ?_ mid
  intro check hcheck s
  rcases List.mem_append.mp hcheck with hcheck | hcheck
  · rcases List.mem_map.mp hcheck with ⟨_, _, hcheck⟩
    rw [← hcheck]
    rfl
  · rcases List.mem_cons.mp hcheck with hcheck | hcheck
    · rw [hcheck]
      rfl
    · rcases List.mem_map.mp hcheck with ⟨_, _, hcheck⟩
      rw [← hcheck]
      rfl

variable [RateLimitStore limits]

theorem firstAnswer_rateLimit_limits (mid : EngineState limits rest) :
    (firstAnswer (engine.rateLimitPhase nowMs :: (engine.beforeCustom ++
        engine.customPhase :: engine.afterCustom)) mid ctx).1.limits =
      (RateLimit.check engine.rateLimit nowMs mid.limits ctx).1 := by
  have hlimits : (engine.rateLimitPhase nowMs mid ctx).1.limits =
      (RateLimit.check engine.rateLimit nowMs mid.limits ctx).1 := rfl
  cases hphase : engine.rateLimitPhase nowMs mid ctx with
  | mk s' found =>
    rw [hphase] at hlimits
    cases found with
    | none =>
      rw [firstAnswer_cons_of_none hphase, firstAnswer_behind_limits, hlimits]
    | some result => rw [firstAnswer_cons_of_some hphase, hlimits]

theorem phases_eq (nowMs : Int) :
    engine.phases nowMs = (engine.beforeRateLimit ++
      engine.rateLimitPhase nowMs :: (engine.beforeCustom ++
        engine.customPhase :: engine.afterCustom) :
      List (Check (EngineState limits rest) InspectCtx DetectionResult)) := by
  unfold phases upToCustom
  rw [List.append_assoc, List.cons_append]

theorem inspect_limits_of_reaches (h : engine.ReachesRateLimit s ctx) :
    (engine.inspect nowMs s ctx).1.limits = (RateLimit.check engine.rateLimit nowMs s.limits
        (engine.enriched ctx)).1 := by
  rcases h with ⟨⟨hguard, hlists⟩, hnone⟩
  have hfront : firstAnswer engine.beforeRateLimit s (engine.enriched ctx) =
      ((firstAnswer engine.beforeRateLimit s (engine.enriched ctx)).1, none) := Prod.ext rfl hnone
  unfold inspect
  rw [if_pos hguard]
  dsimp only
  rw [hlists]
  dsimp only
  rw [phases_eq, firstAnswer_append_of_none hfront,
    firstAnswer_rateLimit_limits, firstAnswer_front_limits]

theorem inspect_limits_of_not_reaches (h : ¬ engine.ReachesRateLimit s ctx) :
    (engine.inspect nowMs s ctx).1.limits = s.limits := by
  unfold inspect
  rcases Decidable.em (ctx.hostConfig.guardStatus = true) with hguard | hguard
  · rw [if_pos hguard]
    dsimp only
    cases hlists : engine.listDecision (engine.enriched ctx) with
    | some decision => rfl
    | none =>
      dsimp only
      cases hfront : firstAnswer engine.beforeRateLimit s (engine.enriched ctx) with
      | mk mid found =>
        cases found with
        | none =>
          exact absurd ⟨⟨hguard, hlists⟩, by rw [hfront]⟩ h
        | some result =>
          have hlimits : (firstAnswer engine.beforeRateLimit s
              (engine.enriched ctx)).1.limits = s.limits := firstAnswer_front_limits s
          rw [hfront] at hlimits
          rw [phases_eq, firstAnswer_append_of_some hfront]
          exact hlimits
  · rw [if_neg hguard]

/-- An inspection charges the key of the address once if it gets as far as the
rate limit and the tier has a limit. -/
def Charges (engine : WafEngine regex glob rest) (s : EngineState limits rest)
    (ctx : InspectCtx) : Prop :=
  engine.ReachesRateLimit s ctx ∧ (engine.rateLimit.forTier ctx.tier).isSome = true

instance (engine : WafEngine regex glob rest) (s : EngineState limits rest)
    (ctx : InspectCtx) : Decidable (engine.Charges s ctx) :=
  inferInstanceAs (Decidable (((_ ∧ _) ∧ _) ∧ _))

theorem enriched_keys (engine : WafEngine regex glob rest) (ctx : InspectCtx) :
    ipKey (engine.enriched ctx) = ipKey ctx ∧ (engine.enriched ctx).tier = ctx.tier ∧
      (forall session, sessionKey (engine.enriched ctx) session = sessionKey ctx session) ∧
      chargedKeys engine.rateLimit (engine.enriched ctx) = chargedKeys engine.rateLimit ctx := by
  unfold enriched
  cases engine.geoip with
  | none => exact ⟨rfl, rfl, fun _ => rfl, rfl⟩
  | some lookup => exact ⟨rfl, rfl, fun _ => rfl, rfl⟩

theorem inspect_keeps {P : limits -> Prop}
    (hkeeps : Keeps P engine.rateLimit ctx nowMs) (h : P s.limits) :
    P (engine.inspect nowMs s ctx).1.limits := by
  rcases Classical.em (engine.ReachesRateLimit s ctx) with hreach | hreach
  · rw [inspect_limits_of_reaches hreach]
    refine check_keeps ?_ h
    rcases enriched_keys engine ctx with ⟨hip, htier, hsession, _⟩
    intro key cfg s' hcfg hkey hs'
    rw [htier] at hcfg
    simp only [hip, hsession] at hkey
    exact hkeeps key cfg s' hcfg hkey hs'
  · rw [inspect_limits_of_not_reaches hreach]
    exact h

theorem inspect_limits_of_not_charges (h : ¬ engine.Charges s ctx) :
    (engine.inspect nowMs s ctx).1.limits = s.limits := by
  rcases Classical.em (engine.ReachesRateLimit s ctx) with hreach | hreach
  · have hlimit : engine.rateLimit.forTier (engine.enriched ctx).tier = none := by
      rw [(enriched_keys engine ctx).2.1]
      exact Option.not_isSome_iff_eq_none.mp (fun hsome => h ⟨hreach, hsome⟩)
    rw [inspect_limits_of_reaches hreach]
    unfold RateLimit.check
    rw [hlimit]
  · exact inspect_limits_of_not_reaches hreach

end Limits

section Charges

variable {engine} {store : Type} [RateLimitStore store] {nowMs : Int}
  {s : EngineState (Recorded store) rest} {ctx : InspectCtx}

theorem inspect_chargesOf_ipKey (h : engine.Charges s ctx) :
    (engine.inspect nowMs s ctx).1.limits.chargesOf (ipKey ctx) =
      s.limits.chargesOf (ipKey ctx) + 1 := by
  rcases enriched_keys engine ctx with ⟨hip, htier, _⟩
  have hcheck := check_chargesOf engine.rateLimit nowMs s.limits (engine.enriched ctx)
  rw [hip, htier, if_pos h.2] at hcheck
  rw [inspect_limits_of_reaches h.1, hcheck]

theorem inspect_chargesOf_bounds (engine : WafEngine regex glob rest)
    (nowMs : Int) (s : EngineState (Recorded store) rest) (ctx : InspectCtx) (key : Text) :
    s.limits.chargesOf key ≤ (engine.inspect nowMs s ctx).1.limits.chargesOf key ∧
      (engine.inspect nowMs s ctx).1.limits.chargesOf key ≤ s.limits.chargesOf key +
          if key ∈ chargedKeys engine.rateLimit ctx then 1 else 0 := by
  rcases Classical.em (engine.ReachesRateLimit s ctx) with hreach | hreach
  · have hcheck := check_chargesOf_bounds engine.rateLimit nowMs s.limits (engine.enriched ctx) key
    rw [(enriched_keys engine ctx).2.2.2] at hcheck
    rw [inspect_limits_of_reaches hreach]
    exact hcheck
  · rw [inspect_limits_of_not_reaches hreach]
    exact ⟨le_refl _, Nat.le_add_right _ _⟩

end Charges

end WafEngine

end Engine
end PrxWaf
