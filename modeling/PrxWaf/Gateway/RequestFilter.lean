import PrxWaf.Engine.Inspect
import PrxWaf.Gateway.CacheSafety

/-!
# The request filters

The proxy builds the context of a request, asks the access lists, inspects the
request and looks into the response cache.  While the body arrives, its beginning
is collected and inspected once more.
-/

namespace PrxWaf
namespace Gateway

open Lib Net Http Cache Engine RateLimit

inductive AccessGateOutcome where
  | proceed
  | bypass
  | block (status : UInt16)

structure WafProxy (regex glob rest : Type) where
  router : HostRouter
  registry : Option TierRegistry
  settings : HostConfig -> HostSettings
  failMode : Tier -> FailMode
  accessLists : Option (Text -> IpAddr -> Tier -> AccessGateOutcome)
  engine : WafEngine regex glob rest

structure ProxyState (limits rest store : Type) where
  engine : EngineState limits rest
  cache : Option (ResponseCache store)

/-- A request with the addresses it is known by: that of the relay detector, that
of the connection and that of the forwarding headers. -/
structure Session where
  request : Request
  identity : Option IpAddr
  peer : Option IpAddr
  forwarded : IpAddr

structure GatewayCtx where
  requestCtx : Option InspectCtx
  accessBypass : Bool
  bodyBuf : Bytes
  bodyInspected : Bool
  pending : Option ResponseCachePending

inductive FilterOutcome where
  | refused (status : UInt16)
  | decided (decision : WafDecision)
  | cached (entry : CachedResponse)
  | forward (gctx : GatewayCtx)

/-- How far a request gets before the cache is asked. -/
inductive Admission where
  | refused (status : UInt16)
  | decided (decision : WafDecision)
  | bypassed (ctx : InspectCtx)
  | passed (ctx : InspectCtx)

def contentLength (headers : TextMap) : Nat :=
  ((headers.lookup "content-length".toList).bind (Text.parseUnsigned (2 ^ 64))).getD 0

namespace WafProxy

variable {regex glob rest limits store : Type}
  (proxy : WafProxy regex glob rest)

def buildCtx (session : Session) : Option InspectCtx :=
  (proxy.router.resolve session.request.hostHeader).map (fun config =>
    let base := buildRequestCtx proxy.registry config session.request
    { base with
      clientIp := session.identity.getD session.forwarded
      bodyPreview := []
      contentLength := contentLength base.headers
      hostConfig := proxy.settings config
      geo := none
      failMode := proxy.failMode base.tier })

def gate (session : Session) (ctx : InspectCtx) : AccessGateOutcome :=
  match proxy.accessLists with
  | none => .proceed
  | some evaluate =>
    evaluate ctx.host (session.identity.getD (session.peer.getD ctx.clientIp)) ctx.tier

section Filter

variable [RateLimitStore limits]

/-- The part of `request_filter` before the cache. -/
def admission (nowMs : Int) (s : EngineState limits rest) (session : Session) :
    EngineState limits rest × Admission :=
  match proxy.buildCtx session with
  | none => (s, .refused 503)
  | some ctx =>
    if ctx.path = "/health".toList ∧ ctx.method = "GET".toList then
      (s, .refused 200)
    else
      match proxy.gate session ctx with
      | .block status => (s, .refused status)
      | .bypass => (s, .bypassed ctx)
      | .proceed =>
        let inspected := proxy.engine.inspect nowMs s ctx
        (inspected.1,
          if inspected.2.isAllowed then .passed ctx
          else .decided inspected.2)

def forwardWith (ctx : InspectCtx) (accessBypass : Bool)
    (pending : Option ResponseCachePending) : FilterOutcome :=
  .forward {
    requestCtx := some ctx
    accessBypass := accessBypass
    bodyBuf := []
    bodyInspected := false
    pending := pending }

def requestFilter [CacheBackend store] (nowMs : Int) (now : Time)
    (s : ProxyState limits rest store) (session : Session) :
    ProxyState limits rest store × FilterOutcome :=
  let admitted := proxy.admission nowMs s.engine session
  let s := { s with engine := admitted.1 }
  match admitted.2 with
  | .refused status => (s, .refused status)
  | .decided decision => (s, .decided decision)
  | .bypassed ctx => (s, forwardWith ctx true none)
  | .passed ctx =>
    match s.cache with
    | none => (s, forwardWith ctx false none)
    | some cache =>
      let looked := cacheLookup cache now ctx.toRequestCtx
      ({ s with cache := some looked.1 },
        match looked.2 with
        | .hit entry => .cached entry
        | .missed pending => forwardWith ctx false (some pending)
        | .skipped => forwardWith ctx false none)

end Filter

def bodyPreviewLimit : Nat := 64 * 1024

structure BodyCall where
  nowMs : Int
  chunk : Option Bytes
  endOfStream : Bool

def collect (buf : Bytes) (chunk : Option Bytes) : Bytes :=
  buf ++ (chunk.getD []).take (bodyPreviewLimit - buf.length)

end WafProxy

namespace GatewayCtx

/-- The request with what the call adds to the beginning of its body. -/
def collected (gctx : GatewayCtx) (call : WafProxy.BodyCall) : GatewayCtx :=
  if gctx.bodyInspected || gctx.accessBypass then gctx
  else { gctx with bodyBuf := WafProxy.collect gctx.bodyBuf call.chunk }

/-- The beginning of the body, if the call has it inspected. -/
def preview (gctx : GatewayCtx) (call : WafProxy.BodyCall) : Option Bytes :=
  let buf := (gctx.collected call).bodyBuf
  if gctx.bodyInspected || gctx.accessBypass then none
  else if WafProxy.bodyPreviewLimit ≤ buf.length ∨ call.endOfStream = true ∧ buf ≠ [] then some buf
  else none

end GatewayCtx

namespace WafProxy

/-- The body filter over any way to inspect a context.  The answer is the decision
that stops the request. -/
def requestBodyFilterWith {state : Type}
    (inspect : Int -> state -> InspectCtx -> state × WafDecision) (s : state)
    (gctx : GatewayCtx) (call : BodyCall) : state × GatewayCtx × Option WafDecision :=
  match gctx.preview call with
  | none => (s, gctx.collected call, none)
  | some buf =>
    let gctx := { gctx.collected call with bodyInspected := true }
    match gctx.requestCtx with
    | none => (s, gctx, none)
    | some ctx =>
      let inspected := inspect call.nowMs s { ctx with bodyPreview := buf }
      (inspected.1, gctx, if inspected.2.isAllowed then none else some inspected.2)

def requestBodyFilter {regex glob rest limits : Type} [RateLimitStore limits]
    (proxy : WafProxy regex glob rest) (s : EngineState limits rest)
    (gctx : GatewayCtx) (call : BodyCall) :
    EngineState limits rest × GatewayCtx × Option WafDecision :=
  requestBodyFilterWith proxy.engine.inspect s gctx call

end WafProxy

/-!
## Requests that carry credentials

The cache sees the headers of the request context. Lines that are not UTF-8 are missing
there, and so are cookies without a name.
-/

def authorizationName : HeaderName :=
  headerName "authorization"

def cookieName : HeaderName :=
  headerName "cookie"

/-- Some line of the header is UTF-8. -/
def SeesAuthorization (req : Request) : Prop :=
  exists value, value ∈ HeaderMap.getAll req.headers authorizationName ∧ value.fromUtf8.isSome

/-- The last UTF-8 line of the header has a pair with a name. -/
def SeesCookie (req : Request) : Prop :=
  exists text, ((HeaderMap.getAll req.headers cookieName).filterMap
      HeaderValue.fromUtf8).getLast? = some text ∧
    exists part, part ∈ text.splitOn ';' ∧ parseCookiePair part ≠ none

/-- The request was not answered from the cache and its response will not be
captured for it. -/
def BypassesCache : FilterOutcome -> Prop
  | .cached _ => False
  | .forward gctx => gctx.pending = none
  | _ => True

variable (registry : Option TierRegistry) (config : HostConfig) (req : Request)

theorem buildRequestCtx_authorization :
    (buildRequestCtx registry config req).headers.lookup "authorization".toList = none <->
      ¬ SeesAuthorization req := by
  have hlookup := lookup_collectHeaders authorizationName req.headers
  change (collectHeaders req.headers).lookup authorizationName.text = none <-> _
  rw [hlookup, List.getLast?_eq_none_iff, List.filterMap_eq_nil_iff]
  unfold SeesAuthorization
  simp

theorem buildRequestCtx_cookies :
    (buildRequestCtx registry config req).cookies.keys = [] <-> ¬ SeesCookie req := by
  have hlookup : (collectHeaders req.headers).lookup "cookie".toList = _ :=
    lookup_collectHeaders cookieName req.headers
  unfold buildRequestCtx SeesCookie
  dsimp only
  rw [hlookup]
  cases ((HeaderMap.getAll req.headers cookieName).filterMap HeaderValue.fromUtf8).getLast? with
  | none => simp
  | some text =>
    dsimp only
    rw [keys_parseCookieHeader]
    simp

section Bypass

variable {regex glob rest limits store : Type} [RateLimitStore limits]
  {proxy : WafProxy regex glob rest} {nowMs : Int} {session : Session}

theorem admission_of_no_ctx {s : EngineState limits rest} (hctx : proxy.buildCtx session = none) :
    proxy.admission nowMs s session = (s, .refused 503) := by
  unfold WafProxy.admission
  rw [hctx]

theorem admission_cases (nowMs : Int) (s : EngineState limits rest) {ctx : InspectCtx}
    (hctx : proxy.buildCtx session = some ctx) :
    (exists status, proxy.admission nowMs s session = (s, .refused status)) ∨
      proxy.admission nowMs s session = (s, .bypassed ctx) ∨ proxy.admission nowMs s session =
        ((proxy.engine.inspect nowMs s ctx).1,
          if (proxy.engine.inspect nowMs s ctx).2.isAllowed then .passed ctx
          else .decided (proxy.engine.inspect nowMs s ctx).2) := by
  unfold WafProxy.admission
  rw [hctx]
  dsimp only
  split
  · exact Or.inl ⟨_, rfl⟩
  split
  · exact Or.inl ⟨_, rfl⟩
  · exact Or.inr (Or.inl rfl)
  · exact Or.inr (Or.inr rfl)

theorem admission_engine (nowMs : Int) (s : EngineState limits rest) {ctx : InspectCtx}
    (hctx : proxy.buildCtx session = some ctx) :
    (proxy.admission nowMs s session).1 = s ∨ (proxy.admission nowMs s session).1 =
        (proxy.engine.inspect nowMs s ctx).1 := by
  rcases admission_cases nowMs s hctx with hrefused | hbypassed | hinspected
  · rcases hrefused with ⟨status, hrefused⟩
    exact Or.inl (congrArg Prod.fst hrefused)
  · exact Or.inl (congrArg Prod.fst hbypassed)
  · exact Or.inr (congrArg Prod.fst hinspected)

theorem admission_passed {s : EngineState limits rest} {ctx : InspectCtx}
    (h : (proxy.admission nowMs s session).2 = .passed ctx) :
    proxy.buildCtx session = some ctx ∧ (proxy.admission nowMs s session).1 =
        (proxy.engine.inspect nowMs s ctx).1 := by
  cases hctx : proxy.buildCtx session with
  | none =>
    rw [admission_of_no_ctx hctx] at h
    cases h
  | some built =>
    rcases admission_cases nowMs s hctx with hrefused | hbypassed | hinspected
    · rcases hrefused with ⟨status, hrefused⟩
      rw [hrefused] at h
      cases h
    · rw [hbypassed] at h
      cases h
    · rw [hinspected] at h ⊢
      dsimp only at h ⊢
      split at h
      · injection h with h
        rw [h]
        exact ⟨rfl, rfl⟩
      · cases h

theorem cacheEligible_buildCtx {ctx : InspectCtx} (h : proxy.buildCtx session = some ctx) :
    CacheEligible ctx.toRequestCtx <-> eqIgnoreAsciiCase ctx.method "GET".toList = true ∧
        ctx.cachePolicy ≠ .noCache ∧
        ¬ SeesAuthorization session.request ∧ ¬ SeesCookie session.request := by
  unfold WafProxy.buildCtx at h
  rcases Option.map_eq_some_iff.mp h with ⟨config, _, hctx⟩
  have hauth := buildRequestCtx_authorization proxy.registry config session.request
  have hcookie := buildRequestCtx_cookies proxy.registry config session.request
  rw [← hauth, ← hcookie, ← hctx]
  rfl

theorem bypassesCache_passed [CacheBackend store]
    {s : ProxyState limits rest store} {now : Time} {ctx : InspectCtx}
    (h : (proxy.admission nowMs s.engine session).2 = .passed ctx) :
    BypassesCache (proxy.requestFilter nowMs now s session).2 <->
      s.cache = none ∨ ¬ CacheEligible ctx.toRequestCtx := by
  unfold WafProxy.requestFilter
  dsimp only
  rw [h]
  dsimp only
  cases s.cache with
  | none => exact ⟨fun _ => Or.inl rfl, fun _ => rfl⟩
  | some cache =>
    dsimp only
    unfold cacheLookup
    rcases Decidable.em (CacheEligible ctx.toRequestCtx) with helig | helig
    · rw [if_pos helig]
      constructor
      · intro hbypass
        exfalso
        dsimp only at hbypass
        cases hget : (cache.get now (cacheKey ctx.toRequestCtx) ctx.tier).2 with
        | none =>
          rw [hget] at hbypass
          cases hbypass
        | some entry =>
          rw [hget] at hbypass
          exact hbypass
      · rintro (hnone | hnot)
        · cases hnone
        · exact absurd helig hnot
    · rw [if_neg helig]
      exact ⟨fun _ => Or.inr helig, fun _ => rfl⟩

theorem bypassesCache_of_not_passed [CacheBackend store]
    {s : ProxyState limits rest store} {now : Time}
    (h : forall ctx, (proxy.admission nowMs s.engine session).2 ≠ .passed ctx) :
    BypassesCache (proxy.requestFilter nowMs now s session).2 := by
  unfold WafProxy.requestFilter
  dsimp only
  cases hadmission : (proxy.admission nowMs s.engine session).2 with
  | passed ctx => exact absurd hadmission (h ctx)
  | refused status => trivial
  | decided decision => trivial
  | bypassed ctx => rfl

/-- A request bypasses the cache exactly when it does not get as far as a lookup
or its credentials are seen: some `Authorization` line is UTF-8, or the last
UTF-8 `Cookie` line has a pair with a name. -/
theorem bypassesCache_iff [CacheBackend store] (proxy : WafProxy regex glob rest)
    (nowMs : Int) (now : Time) (s : ProxyState limits rest store) (session : Session) :
    BypassesCache (proxy.requestFilter nowMs now s session).2 <->
      (forall ctx, (proxy.admission nowMs s.engine session).2 = .passed ctx ->
        s.cache = none ∨ eqIgnoreAsciiCase ctx.method "GET".toList = false ∨
          ctx.cachePolicy = .noCache) ∨
      SeesAuthorization session.request ∨ SeesCookie session.request := by
  rcases Classical.em (exists ctx,
      (proxy.admission nowMs s.engine session).2 = .passed ctx) with hpassed | hnot
  · rcases hpassed with ⟨ctx, hadmission⟩
    have hforall : (forall other, (proxy.admission nowMs s.engine session).2 = .passed other ->
          s.cache = none ∨ eqIgnoreAsciiCase other.method "GET".toList = false ∨
            other.cachePolicy = .noCache) <->
        s.cache = none ∨ eqIgnoreAsciiCase ctx.method "GET".toList = false ∨
          ctx.cachePolicy = .noCache := by
      rw [hadmission]
      constructor
      · exact fun h => h ctx rfl
      · intro h other hother
        injection hother with hother
        rw [← hother]
        exact h
    rw [bypassesCache_passed hadmission,
      cacheEligible_buildCtx (admission_passed hadmission).1, hforall, ← Bool.not_eq_true]
    tauto
  · have hbypass : BypassesCache (proxy.requestFilter nowMs now s session).2 :=
      bypassesCache_of_not_passed (fun ctx h => hnot ⟨ctx, h⟩)
    exact ⟨fun _ => Or.inl (fun ctx h => absurd ⟨ctx, h⟩ hnot), fun _ => hbypass⟩

end Bypass

def FilterOutcome.pending? : FilterOutcome -> Option ResponseCachePending
  | forward gctx => gctx.pending
  | _ => none

theorem not_bypassesCache_of_pending {outcome : FilterOutcome}
    (h : outcome.pending?.isSome = true) : ¬ BypassesCache outcome := by
  intro hbypass
  cases outcome with
  | forward gctx =>
    rw [FilterOutcome.pending?, hbypass] at h
    cases h
  | refused status => cases h
  | decided decision => cases h
  | cached entry => cases h

def quietProxy (config : RateLimitConfig) : WafProxy Text Text Unit :=
  { router := sites
    registry := some cachingTiers
    settings := fun config =>
      { code := config.host, guardStatus := true, logOnlyMode := false }
    failMode := fun _ => .failOpen
    accessLists := none
    engine := WafEngine.quietEngine config Rules.CustomRulesEngine.empty }

def sessionOf (req : Request) : Session :=
  { request := req
    identity := none
    peer := none
    forwarded := .v4 (Ipv4Addr.new 192 0 2 7) }

def emptyState : ProxyState MemoryStore Unit MokaStore :=
  { engine := WafEngine.freshState
    cache := some (ResponseCache.withRules 60 3600 .empty) }

def shopHost : HeaderValue :=
  line "shop.test"

def getRootWith (name : HeaderName) (value : HeaderValue) : Request :=
  { getRoot shopHost with headers := [(hostName, shopHost), (name, value)] }

/-- A cookie without a value, and credentials that are not UTF-8, are not
seen. -/
theorem credentials_overlooked :
    ¬ BypassesCache ((quietProxy WafEngine.noLimits).requestFilter 0 0 emptyState
        (sessionOf (getRootWith cookieName (line "sessionid")))).2 ∧
      ¬ BypassesCache ((quietProxy WafEngine.noLimits).requestFilter 0 0
        emptyState (sessionOf (getRootWith authorizationName
          { bytes := [0xff], valid := by decide }))).2 := by
  refine ⟨not_bypassesCache_of_pending ?_, not_bypassesCache_of_pending ?_⟩
  · decide +kernel
  · decide +kernel

end Gateway
end PrxWaf
