import PrxWaf.Engine.Inspect

/-!
# Reports of an inspection

An inspection that does not simply let a request pass tells the attack log, the
security events, the community and the audit stream about it.  Every exit of the
pipeline makes its own choice of these.
-/

namespace PrxWaf
namespace Engine

open Lib Net RateLimit Rules

/-!
## Reports

Every exit of the pipeline reports its decision to some of the receivers. One kind of
report is an audit event.
-/

def Phase.display : Phase -> Text
  | .ipWhitelist => "IP Whitelist".toList
  | .ipBlacklist => "IP Blacklist".toList
  | .urlWhitelist => "URL Whitelist".toList
  | .urlBlacklist => "URL Blacklist".toList
  | .sqlInjection => "SQL Injection".toList
  | .xss => "XSS".toList
  | .rce => "RCE".toList
  | .scanner => "Scanner".toList
  | .dirTraversal => "Directory Traversal".toList
  | .bot => "Bot".toList
  | .rateLimit => "Rate Limit".toList
  | .customRule => "Custom Rule".toList
  | .owasp => "OWASP CRS".toList
  | .sensitive => "Sensitive Data".toList
  | .antiHotlink => "Anti-Hotlink".toList
  | .crowdSec => "CrowdSec".toList
  | .geoIp => "GeoIP".toList
  | .community => "Community".toList
  | .ddos => "DDoS".toList

def tierDebug : Tier -> Text
  | .critical => "Critical".toList
  | .high => "High".toList
  | .medium => "Medium".toList
  | .catchAll => "CatchAll".toList

def actionStr : WafAction -> Text
  | .block _ _ => "block".toList
  | .allow => "allow".toList
  | .logOnly => "log_only".toList
  | .redirect _ => "redirect".toList

inductive AuditEventType where
  | block
  | allow
  | challenge
  | rateLimit
  | logOnly
  deriving DecidableEq

def auditEventType : WafAction -> AuditEventType
  | .block _ _ => .block
  | .allow => .allow
  | .logOnly => .logOnly
  | .redirect _ => .challenge

structure AuditEvent where
  timestamp : Int
  eventType : AuditEventType
  ruleName : Text
  ruleId : Option Text
  phase : Option Text
  clientIp : Text
  host : Text
  method : Text
  path : Text
  tier : Option Text
  detail : Option Text
  reqId : Option Text
  deriving DecidableEq

structure AttackLog where
  hostCode : Text
  host : Text
  clientIp : Text
  method : Text
  path : Text
  query : Option Text
  ruleId : Option Text
  ruleName : Text
  action : Text
  phase : Text
  detail : Option Text
  geoInfo : Option GeoIpInfo

structure SecurityEvent where
  hostCode : Text
  clientIp : Text
  method : Text
  path : Text
  ruleId : Option Text
  ruleName : Text
  action : Text
  detail : Option Text
  geoInfo : Option GeoIpInfo

structure RequestInfo where
  httpMethod : Text
  requestPath : Text
  requestHost : Text
  geoCountry : Option Text

inductive Report where
  | attack (log : AttackLog)
  | security (event : SecurityEvent)
  | signal (ip : IpAddr) (result : DetectionResult) (info : RequestInfo)
  | audit (event : AuditEvent)

def Report.audit? : Report -> Option AuditEvent
  | .audit event => some event
  | _ => none

def audits (reports : List Report) : List AuditEvent :=
  reports.filterMap Report.audit?

theorem audits_append (front back : List Report) :
    audits (front ++ back) = audits front ++ audits back :=
  List.filterMap_append

structure Receivers where
  communityReporter : Bool
  auditSender : Bool

/-- What a report says about the request apart from its context. -/
structure Stamp where
  timestamp : Int
  reqId : Text

def logAttack (ctx : InspectCtx) (decision : WafDecision) : List Report :=
  match decision.result with
  | none => []
  | some result =>
    [.attack {
      hostCode := ctx.hostConfig.code
      host := ctx.host
      clientIp := ctx.clientIp.display
      method := ctx.method
      path := ctx.path
      query := if ctx.query.isEmpty then none else some ctx.query
      ruleId := result.ruleId
      ruleName := result.ruleName
      action := actionStr decision.action
      phase := result.phase.display
      detail := some result.detail
      geoInfo := ctx.geo }]

def logSecurityEvent (ctx : InspectCtx) (decision : WafDecision) : List Report :=
  match decision.result with
  | none => []
  | some result =>
    [.security {
      hostCode := ctx.hostConfig.code
      clientIp := ctx.clientIp.display
      method := ctx.method
      path := ctx.path
      ruleId := result.ruleId
      ruleName := result.ruleName
      action := actionStr decision.action
      detail := some result.detail
      geoInfo := ctx.geo }]

def auditEvent (stamp : Stamp) (ctx : InspectCtx) (action : WafAction)
    (result : DetectionResult) : AuditEvent :=
  { timestamp := stamp.timestamp
    eventType := auditEventType action
    ruleName := result.ruleName
    ruleId := result.ruleId
    phase := some result.phase.display
    clientIp := ctx.clientIp.display
    host := ctx.host
    method := ctx.method
    path := ctx.path
    tier := some (tierDebug ctx.tier)
    detail := some result.detail
    reqId := some stamp.reqId }

def eventsFor (stamp : Stamp) (ctx : InspectCtx) (decision : WafDecision) : List AuditEvent :=
  match decision.result with
  | none => []
  | some result => [auditEvent stamp ctx decision.action result]

section Receivers

variable (receivers : Receivers) (stamp : Stamp) (ctx : InspectCtx)
  (decision : WafDecision)

def sendAuditEvent : List Report :=
  if receivers.auditSender then
    (eventsFor stamp ctx decision).map Report.audit
  else []

def reportCommunitySignal : List Report :=
  if receivers.communityReporter then
    match decision.result with
    | none => []
    | some result =>
      [.signal ctx.clientIp result {
        httpMethod := ctx.method
        requestPath := ctx.path
        requestHost := ctx.host
        geoCountry := ctx.geo.map GeoIpInfo.isoCode }]
  else []

/-- The reports of the lists: those that let a request pass report nothing. -/
def listReports : List Report :=
  if decision.isAllowed then []
  else
    logAttack ctx decision ++ reportCommunitySignal receivers ctx decision ++
      sendAuditEvent receivers stamp ctx decision

/-- Whom a detector tells besides the security events. -/
structure Exit where
  community : Bool
  audit : Bool
  deriving DecidableEq

def detectorReports (exit : Exit) : List Report :=
  logSecurityEvent ctx decision ++
    (if exit.community then reportCommunitySignal receivers ctx decision
      else []) ++
    (if exit.audit then sendAuditEvent receivers stamp ctx decision else [])

theorem audits_logAttack : audits (logAttack ctx decision) = [] := by
  unfold logAttack
  cases decision.result with
  | none => rfl
  | some result => rfl

theorem audits_logSecurityEvent :
    audits (logSecurityEvent ctx decision) = [] := by
  unfold logSecurityEvent
  cases decision.result with
  | none => rfl
  | some result => rfl

theorem audits_reportCommunitySignal :
    audits (reportCommunitySignal receivers ctx decision) = [] := by
  unfold reportCommunitySignal
  split
  · cases decision.result with
    | none => rfl
    | some result => rfl
  · rfl

theorem audits_sendAuditEvent (hsender : receivers.auditSender = true) :
    audits (sendAuditEvent receivers stamp ctx decision) = eventsFor stamp ctx decision := by
  unfold sendAuditEvent eventsFor
  rw [if_pos hsender]
  cases decision.result with
  | none => rfl
  | some result => rfl

theorem audits_listReports (hsender : receivers.auditSender = true)
    (hdenied : decision.isAllowed = false) :
    audits (listReports receivers stamp ctx decision) = eventsFor stamp ctx decision := by
  unfold listReports
  rw [hdenied, if_neg Bool.false_ne_true, audits_append, audits_append,
    audits_logAttack, audits_reportCommunitySignal, audits_sendAuditEvent _ _ _ _ hsender]
  rfl

theorem audits_detectorReports (hsender : receivers.auditSender = true) (exit : Exit) :
    audits (detectorReports receivers stamp ctx decision exit) =
      if exit.audit then eventsFor stamp ctx decision else [] := by
  have hcommunity : audits (if exit.community then
      reportCommunitySignal receivers ctx decision else []) = [] := by
    split
    · exact audits_reportCommunitySignal receivers ctx decision
    · rfl
  unfold detectorReports
  rw [audits_append, audits_append, audits_logSecurityEvent, hcommunity]
  split
  · rw [audits_sendAuditEvent _ _ _ _ hsender]
    rfl
  · rfl

end Receivers

def ddosExit : Exit := { community := true, audit := false }

def communityExit : Exit := { community := false, audit := false }

def fullExit : Exit := { community := true, audit := true }

structure Inspected (limits rest : Type) where
  state : EngineState limits rest
  decision : WafDecision
  reports : List Report

namespace WafEngine

variable {regex glob rest limits : Type} (engine : WafEngine regex glob rest)

section Stages

variable [RateLimitStore limits] (nowMs : Int)

def behindCommunity : List (Check (EngineState limits rest) InspectCtx DetectionResult) :=
  onRest engine.detectors.geo :: engine.rateLimitPhase nowMs ::
    (engine.beforeCustom ++ engine.customPhase :: engine.afterCustom)

def stages : List (Exit × Check (EngineState limits rest) InspectCtx DetectionResult) :=
  (ddosExit, onRest engine.detectors.ddos) :: (fullExit, onRest engine.detectors.crowdsec) ::
    (communityExit, onRest engine.detectors.community) ::
    (engine.behindCommunity nowMs).map (fun check => (fullExit, check))

variable (receivers : Receivers) (stamp : Stamp) (s : EngineState limits rest)
  (ctx : InspectCtx)

def inspectReporting : Inspected limits rest :=
  if ctx.hostConfig.guardStatus then
    let ctx := engine.enriched ctx
    match engine.listDecision ctx with
    | some decision =>
      { state := s
        decision := decision
        reports := listReports receivers stamp ctx decision }
    | none =>
      let found := firstAnswer ((engine.stages nowMs).map tagged) s ctx
      match found.2 with
      | some (exit, result) =>
        let decision := engine.decisionFor ctx result
        { state := found.1
          decision := decision
          reports := detectorReports receivers stamp ctx decision exit }
      | none =>
        { state := found.1
          decision := WafDecision.allow
          reports := [] }
  else
    { state := s
      decision := WafDecision.allow
      reports := [] }

theorem stages_checks :
    (engine.stages nowMs).map Prod.snd = (engine.phases nowMs :
      List (Check (EngineState limits rest) InspectCtx DetectionResult)) := by
  rw [phases_eq]
  unfold stages behindCommunity beforeRateLimit
  rw [List.map_cons, List.map_cons, List.map_cons, List.map_map]
  rfl

theorem inspectReporting_inspect :
    ((engine.inspectReporting nowMs receivers stamp s ctx).state,
        (engine.inspectReporting nowMs receivers stamp s ctx).decision) =
      engine.inspect nowMs s ctx := by
  unfold inspectReporting inspect
  rcases Decidable.em (ctx.hostConfig.guardStatus = true) with hguard | hguard
  · rw [if_pos hguard, if_pos hguard]
    dsimp only
    cases engine.listDecision (engine.enriched ctx) with
    | some decision => rfl
    | none =>
      have htagged := firstAnswer_tagged (engine.stages nowMs) s (engine.enriched ctx)
      rw [stages_checks] at htagged
      dsimp only
      rw [← htagged.1, ← htagged.2]
      cases (firstAnswer ((engine.stages nowMs).map tagged) s (engine.enriched ctx)).2 with
      | none => rfl
      | some found => rfl
  · rw [if_neg hguard, if_neg hguard]

end Stages

/-! ## Audit events

The burst detection and the community blocklist do not tell the audit stream.
-/

/-- The first detector to answer is the burst detection or the community
blocklist. -/
def UnauditedAnswer (s : rest) (ctx : InspectCtx) : Prop :=
  (engine.detectors.ddos s ctx).2.isSome = true ∨
    (firstAnswer [engine.detectors.ddos, engine.detectors.crowdsec] s
        ctx).2 = none ∧
      (engine.detectors.community
        (firstAnswer [engine.detectors.ddos, engine.detectors.crowdsec] s
          ctx).1 ctx).2.isSome = true

def DecidedUnaudited (s : EngineState limits rest) (ctx : InspectCtx) : Prop :=
  engine.PassesLists ctx ∧ engine.UnauditedAnswer s.rest (engine.enriched ctx)

theorem tagged_onRest {check : Check rest InspectCtx DetectionResult}
    {ctx : InspectCtx} {r mid : rest} {found : Option DetectionResult}
    (exit : Exit) (l : limits) (h : check r ctx = (mid, found)) :
    tagged (exit, onRest check) { limits := l, rest := r } ctx =
      ({ limits := l, rest := mid }, found.map (fun a => (exit, a))) := by
  have htag : tagged (exit, onRest check) { limits := l, rest := r } ctx =
      ({ limits := l, rest := (check r ctx).1 }, (check r ctx).2.map (fun a => (exit, a))) := rfl
  rw [htag, h]

section Audit

variable {engine} [RateLimitStore limits] {nowMs : Int} {receivers : Receivers}
  {stamp : Stamp} {s : EngineState limits rest} {ctx : InspectCtx}

variable {result : DetectionResult}

theorem behindCommunity_exit {exit : Exit}
    {mid : EngineState limits rest} (h : (firstAnswer (((engine.behindCommunity nowMs).map
      (fun check => (fullExit, check))).map tagged) mid ctx).2 = some (exit, result)) :
    exit = fullExit := by
  have hmem := firstAnswer_tagged_mem h
  rw [List.map_map] at hmem
  rcases List.mem_map.mp hmem with ⟨_, _, hexit⟩
  exact hexit.symm

theorem stages_audit_iff {exit : Exit}
    (h : (firstAnswer ((engine.stages nowMs).map tagged) s ctx).2 = some (exit, result)) :
    exit.audit = true <-> ¬ engine.UnauditedAnswer s.rest ctx := by
  unfold stages at h
  rw [List.map_cons, List.map_cons, List.map_cons] at h
  unfold UnauditedAnswer
  rcases hddos : engine.detectors.ddos s.rest ctx with ⟨s1, _ | found⟩
  · rw [firstAnswer_cons_of_none (tagged_onRest _ s.limits hddos)] at h
    rw [firstAnswer_cons_of_none hddos]
    rcases hcrowdsec : engine.detectors.crowdsec s1 ctx with ⟨s2, _ | found⟩
    · rw [firstAnswer_cons_of_none (tagged_onRest _ s.limits hcrowdsec)] at h
      rw [firstAnswer_cons_of_none hcrowdsec]
      unfold firstAnswer
      rcases hcommunity : engine.detectors.community s2 ctx with ⟨s3, _ | found⟩
      · rw [firstAnswer_cons_of_none (tagged_onRest _ s.limits hcommunity)] at h
        rw [behindCommunity_exit h]
        simp [fullExit]
      · rw [firstAnswer_cons_of_some (tagged_onRest _ s.limits hcommunity)] at h
        cases h
        simp [communityExit]
    · rw [firstAnswer_cons_of_some (tagged_onRest _ s.limits hcrowdsec)] at h
      rw [firstAnswer_cons_of_some hcrowdsec]
      cases h
      simp [fullExit]
  · rw [firstAnswer_cons_of_some (tagged_onRest _ s.limits hddos)] at h
    cases h
    simp [ddosExit]

theorem listDecision_denied {decision : WafDecision}
    (h : engine.listDecision ctx = some decision) (hdenied : decision.action ≠ .allow) :
    decision.isAllowed = false ∧ exists result, decision.result = some result := by
  unfold listDecision at h
  dsimp only at h
  split at h
  · cases h
    exact absurd rfl hdenied
  · split at h
    · cases h
      exact ⟨rfl, _, rfl⟩
    · split at h
      · cases h
        exact absurd rfl hdenied
      · rcases Option.map_eq_some_iff.mp h with ⟨_, _, h⟩
        cases h
        exact ⟨rfl, _, rfl⟩

theorem decisionFor_result (engine : WafEngine regex glob rest)
    (ctx : InspectCtx) (result : DetectionResult) :
    (engine.decisionFor ctx result).result = some result := by
  unfold decisionFor
  split
  · rfl
  · rfl

theorem eventsFor_of_result {decision : WafDecision} (h : decision.result = some result) :
    eventsFor stamp ctx decision = [auditEvent stamp ctx decision.action result] := by
  unfold eventsFor
  rw [h]

/-- A decision other than to let the request pass leads to one audit event, its
own, exactly when neither the burst detection nor the community blocklist took
it. -/
theorem inspectReporting_audits_iff (hsender : receivers.auditSender = true)
    (hdenied : (engine.inspect nowMs s ctx).2.action ≠ .allow) :
    (exists event, eventsFor stamp (engine.enriched ctx) (engine.inspect nowMs s ctx).2 =
        [event] ∧ audits (engine.inspectReporting nowMs receivers stamp s ctx).reports =
        [event]) <-> ¬ engine.DecidedUnaudited s ctx := by
  rw [← engine.inspectReporting_inspect nowMs receivers stamp s ctx] at hdenied ⊢
  unfold DecidedUnaudited PassesLists
  unfold inspectReporting at hdenied ⊢
  rcases Decidable.em (ctx.hostConfig.guardStatus = true) with hguard | hguard
  · rw [if_pos hguard] at hdenied ⊢
    dsimp only at hdenied ⊢
    cases hlists : engine.listDecision (engine.enriched ctx) with
    | some decision =>
      rw [hlists] at hdenied
      rcases listDecision_denied hlists hdenied with ⟨hisAllowed, result, hresult⟩
      dsimp only
      rw [audits_listReports _ _ _ _ hsender hisAllowed, eventsFor_of_result hresult]
      exact ⟨fun _ hunaudited => (nomatch hunaudited.1.2), fun _ => ⟨_, rfl, rfl⟩⟩
    | none =>
      rw [hlists] at hdenied
      dsimp only at hdenied ⊢
      cases hfound : (firstAnswer ((engine.stages nowMs).map tagged) s (engine.enriched ctx)).2 with
      | none =>
        rw [hfound] at hdenied
        exact absurd rfl hdenied
      | some found =>
        rcases found with ⟨exit, result⟩
        have hevents : eventsFor stamp (engine.enriched ctx)
            (engine.decisionFor (engine.enriched ctx) result) = _ :=
          eventsFor_of_result (engine.decisionFor_result _ result)
        have haudit := stages_audit_iff hfound
        dsimp only
        rw [audits_detectorReports _ _ _ _ hsender, hevents]
        constructor
        · rintro ⟨event, _, hsent⟩ ⟨_, hunaudited⟩
          rw [if_neg (fun h => haudit.mp h hunaudited)] at hsent
          cases hsent
        · intro hnot
          rw [if_pos (haudit.mpr (fun h => hnot ⟨⟨hguard, rfl⟩, h⟩))]
          exact ⟨_, rfl, rfl⟩
  · rw [if_neg hguard] at hdenied
    exact absurd rfl hdenied

end Audit

def allReceivers : Receivers :=
  { communityReporter := true, auditSender := true }

def firstStamp : Stamp :=
  { timestamp := 0, reqId := "r1".toList }

theorem everyPath_block_audited :
    exists event, eventsFor firstStamp ((engineWith (everyPath .block 403)).enriched plainCtx)
        ((engineWith (everyPath .block 403)).inspect 0 freshState plainCtx).2 = [event] ∧
      audits ((engineWith (everyPath .block 403)).inspectReporting 0
        allReceivers firstStamp freshState plainCtx).reports = [event] :=
  (inspectReporting_audits_iff rfl (fun h => by cases h)).mpr (by
      rintro ⟨_, hddos | ⟨_, hcommunity⟩⟩
      · cases hddos
      · cases hcommunity)

def bannedResult : DetectionResult :=
  { ruleId := some "DDOS-BAN".toList
    ruleName := "DDoS Protection".toList
    phase := .ddos
    detail := "IP 192.0.2.7 is currently banned".toList }

def banningEngine : WafEngine Text Text Unit :=
  { quietEngine noLimits CustomRulesEngine.empty with
    detectors := {
      quietDetectors with ddos := fun s _ => (s, some bannedResult) } }

/-- A banned address is blocked and the audit stream does not hear of it. -/
theorem banningEngine_unaudited :
    allReceivers.auditSender = true ∧ (banningEngine.inspect 0 freshState plainCtx).2.action =
        .block 403 (some "DDoS Protection".toList) ∧
      (eventsFor firstStamp (banningEngine.enriched plainCtx)
        (banningEngine.inspect 0 freshState plainCtx).2).length = 1 ∧
      audits (banningEngine.inspectReporting 0 allReceivers firstStamp
        freshState plainCtx).reports = [] :=
  ⟨rfl, rfl, rfl, rfl⟩

end WafEngine

end Engine
end PrxWaf
