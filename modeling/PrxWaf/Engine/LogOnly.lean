import PrxWaf.Engine.Audit

/-!
# Log-only mode

A site in log-only mode is watched and not defended: what would have been blocked
is only logged.  Each exit of the pipeline asks for the mode by itself.  The block
lists come first and do not ask.
-/

namespace PrxWaf
namespace Engine

open Lib Net RateLimit Rules

namespace WafEngine

variable {regex glob rest limits : Type}

/-- A block list knows the request, and no allow list that is asked before it
does. -/
def DeniedByLists (engine : WafEngine regex glob rest) (ctx : InspectCtx) : Prop :=
  let code := ctx.hostConfig.code
  engine.store.allowIps code ctx.clientIp = false ∧
    (engine.store.blockIps code ctx.clientIp = true ∨
      engine.store.allowUrls code ctx.path = none ∧ engine.store.blockUrls code ctx.path ≠ none)

theorem deniedByLists_enriched (engine : WafEngine regex glob rest) (ctx : InspectCtx) :
    engine.DeniedByLists (engine.enriched ctx) <-> engine.DeniedByLists ctx := by
  unfold enriched
  cases engine.geoip with
  | none => exact Iff.rfl
  | some lookup => exact Iff.rfl

variable {engine : WafEngine regex glob rest} {ctx : InspectCtx}

theorem listDecision_of_denied (h : engine.DeniedByLists ctx) :
    exists decision body, engine.listDecision ctx = some decision ∧
      decision.action = .block 403 body := by
  obtain ⟨hallow, hblock⟩ := h
  unfold listDecision
  dsimp only
  rw [if_neg (by rw [hallow]; exact Bool.false_ne_true)]
  rcases Decidable.em (engine.store.blockIps ctx.hostConfig.code ctx.clientIp = true) with hip | hip
  · rw [if_pos hip]
    exact ⟨_, _, rfl, rfl⟩
  · rcases hblock with hblock | ⟨hallow, hblock⟩
    · exact absurd hblock hip
    · obtain ⟨ruleId, hruleId⟩ := Option.ne_none_iff_exists'.mp hblock
      rw [if_neg hip, hallow, hruleId]
      exact ⟨_, _, rfl, rfl⟩

theorem listDecision_of_not_denied (h : ¬ engine.DeniedByLists ctx)
    {decision : WafDecision} (hlists : engine.listDecision ctx = some decision) :
    decision.action = .allow := by
  unfold listDecision at hlists
  dsimp only at hlists
  split at hlists
  · cases hlists
    rfl
  · rename_i hallow
    have hallow := Bool.eq_false_of_not_eq_true hallow
    split at hlists
    · rename_i hblock
      exact absurd ⟨hallow, Or.inl hblock⟩ h
    · split at hlists
      · cases hlists
        rfl
      · rename_i hurl
        rcases Option.map_eq_some_iff.mp hlists with ⟨ruleId, hruleId, _⟩
        have hblock := Option.ne_none_iff_exists'.mpr ⟨ruleId, hruleId⟩
        exact absurd ⟨hallow, Or.inr ⟨hurl, hblock⟩⟩ h

section Mode

variable [RateLimitStore limits] {engine : WafEngine regex glob rest}
  {nowMs : Int} {s : EngineState limits rest} {ctx : InspectCtx}

def Detects (engine : WafEngine regex glob rest) (nowMs : Int)
    (s : EngineState limits rest) (ctx : InspectCtx) : Prop :=
  ctx.hostConfig.guardStatus = true ∧
    (engine.DeniedByLists ctx ∨
      engine.listDecision (engine.enriched ctx) = none ∧
        (firstAnswer (engine.phases nowMs) s (engine.enriched ctx)).2 ≠ none)

/-- The request is not blocked, and logged if it is detected. -/
def OnlyLogged (engine : WafEngine regex glob rest) (nowMs : Int)
    (s : EngineState limits rest) (ctx : InspectCtx) : Prop :=
  (forall status body,
      (engine.inspect nowMs s ctx).2.action ≠ .block status body) ∧
    (engine.Detects nowMs s ctx -> (engine.inspect nowMs s ctx).2.action = .logOnly)

theorem inspect_of_unguarded (h : ctx.hostConfig.guardStatus ≠ true) :
    engine.inspect nowMs s ctx = (s, WafDecision.allow) :=
  if_neg h

theorem inspect_of_list (hguard : ctx.hostConfig.guardStatus = true) {decision : WafDecision}
    (h : engine.listDecision (engine.enriched ctx) = some decision) :
    (engine.inspect nowMs s ctx).2 = decision := by
  unfold inspect
  rw [if_pos hguard]
  dsimp only
  rw [h]

theorem inspect_of_passesLists (h : engine.PassesLists ctx)
    (hlog : ctx.hostConfig.logOnlyMode = true) :
    (engine.inspect nowMs s ctx).2.action =
      if (firstAnswer (engine.phases nowMs) s (engine.enriched ctx)).2 = none
        then .allow
      else .logOnly := by
  unfold inspect
  rw [if_pos h.1]
  dsimp only
  rw [h.2]
  dsimp only
  cases (firstAnswer (engine.phases nowMs) s (engine.enriched ctx)).2 with
  | none => rfl
  | some result =>
    dsimp only
    rw [if_neg (Option.some_ne_none _), decisionFor, enriched_hostConfig, hlog, if_pos rfl]

theorem onlyLogged_of_unguarded (h : ctx.hostConfig.guardStatus ≠ true) :
    engine.OnlyLogged nowMs s ctx := by
  refine ⟨?_, fun hdetects => absurd hdetects.1 h⟩
  rw [inspect_of_unguarded h]
  intro status body hblock
  cases hblock

theorem onlyLogged_of_not_denied (hlog : ctx.hostConfig.logOnlyMode = true)
    (hguard : ctx.hostConfig.guardStatus = true)
    (h : ¬ engine.DeniedByLists ctx) : engine.OnlyLogged nowMs s ctx := by
  have henriched := (deniedByLists_enriched engine ctx).not.mpr h
  unfold OnlyLogged
  cases hlists : engine.listDecision (engine.enriched ctx) with
  | some decision =>
    rw [inspect_of_list hguard hlists, listDecision_of_not_denied henriched hlists]
    constructor
    · intro status body hblock
      cases hblock
    · rintro ⟨_, hdenied | ⟨hpassed, _⟩⟩
      · exact absurd hdenied h
      · rw [hlists] at hpassed
        cases hpassed
  | none =>
    rw [inspect_of_passesLists ⟨hguard, hlists⟩ hlog]
    constructor
    · intro status body
      split
      · intro hblock
        cases hblock
      · intro hblock
        cases hblock
    · rintro ⟨_, hdenied | ⟨_, hfound⟩⟩
      · exact absurd hdenied h
      · exact if_neg hfound

theorem not_onlyLogged_of_denied (hguard : ctx.hostConfig.guardStatus = true)
    (h : engine.DeniedByLists ctx) : ¬ engine.OnlyLogged nowMs s ctx := by
  intro honly
  obtain ⟨decision, body, hlists, hblock⟩ :=
    listDecision_of_denied ((deniedByLists_enriched engine ctx).mpr h)
  refine honly.1 403 body ?_
  rw [inspect_of_list hguard hlists, hblock]

/-- On a site in log-only mode a request is not blocked, and logged if it is
detected, exactly when no block list denies it. -/
theorem onlyLogged_iff (engine : WafEngine regex glob rest) (nowMs : Int)
    (s : EngineState limits rest) (hlog : ctx.hostConfig.logOnlyMode = true) :
    engine.OnlyLogged nowMs s ctx <-> (ctx.hostConfig.guardStatus = true ->
        ¬ engine.DeniedByLists ctx) := by
  rcases Decidable.em (ctx.hostConfig.guardStatus = true) with hguard | hguard
  · constructor
    · intro honly _ hdenied
      exact not_onlyLogged_of_denied hguard hdenied honly
    · intro hnot
      exact onlyLogged_of_not_denied hlog hguard (hnot hguard)
  · exact ⟨fun _ h => absurd h hguard, fun _ => onlyLogged_of_unguarded hguard⟩

end Mode

def watchedCtx : InspectCtx :=
  { plainCtx with
    hostConfig := { plainCtx.hostConfig with logOnlyMode := true } }

theorem everyPath_only_logged :
    (engineWith (everyPath .block 403)).Detects 0 freshState watchedCtx ∧
      (engineWith (everyPath .block 403)).OnlyLogged 0 freshState
        watchedCtx := by
  refine ⟨⟨rfl, Or.inr ⟨rfl, Option.some_ne_none _⟩⟩, ?_⟩
  refine (onlyLogged_iff _ _ _ rfl).mpr ?_
  rintro _ ⟨_, hip | ⟨_, hurl⟩⟩
  · cases hip
  · exact hurl rfl

def blockingEngine : WafEngine Text Text Unit :=
  { quietEngine noLimits CustomRulesEngine.empty with
    store := {
      allowIps := fun _ _ => false
      blockIps := fun _ ip => decide (ip = watchedCtx.clientIp)
      allowUrls := fun _ _ => none
      blockUrls := fun _ _ => none } }

/-- The address list blocks on a site in log-only mode. -/
theorem watched_address_blocked :
    watchedCtx.hostConfig.logOnlyMode = true ∧
      (blockingEngine.inspect 0 freshState watchedCtx).2.action =
        .block 403 (some "Access denied.".toList) ∧
      ¬ blockingEngine.OnlyLogged 0 freshState watchedCtx := by
  have hdenied : blockingEngine.DeniedByLists watchedCtx := ⟨rfl, Or.inl (by decide)⟩
  exact ⟨rfl, rfl, not_onlyLogged_of_denied rfl hdenied⟩

end WafEngine
end Engine
end PrxWaf
