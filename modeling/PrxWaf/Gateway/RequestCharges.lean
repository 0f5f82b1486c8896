import PrxWaf.Gateway.RequestFilter

/-!
# What a request is charged

A request is inspected when its head has arrived, and once more when the
beginning of its body has.  Requests are in flight beside each other and share
the engine.  The charges of a request are followed through its filters, and
those of a key through every interleaving of requests.
-/

namespace PrxWaf
namespace Gateway

open Lib Net Http Cache Engine RateLimit

section Filters

variable {regex glob rest limits store : Type} [RateLimitStore limits]
  {proxy : WafProxy regex glob rest} {nowMs : Int} {session : Session}

theorem requestFilter_engine [CacheBackend store] (now : Time) (s : ProxyState limits rest store) :
    (proxy.requestFilter nowMs now s session).1.engine =
      (proxy.admission nowMs s.engine session).1 := by
  unfold WafProxy.requestFilter
  dsimp only
  split
  · rfl
  · rfl
  · rfl
  · split
    · rfl
    · rfl

/-- What the request filter hands to the body filter. -/
structure Handed (ctx : InspectCtx) (gctx : GatewayCtx) : Prop where
  requestCtx : gctx.requestCtx = some ctx
  bodyBuf : gctx.bodyBuf = []
  bodyInspected : gctx.bodyInspected = false

theorem handed_of_forwardWith {ctx : InspectCtx} {accessBypass : Bool}
    {pending : Option ResponseCachePending} {gctx : GatewayCtx}
    (h : WafProxy.forwardWith ctx accessBypass pending = .forward gctx) :
    Handed ctx gctx ∧ gctx.accessBypass = accessBypass := by
  injection h with h
  rw [← h]
  exact ⟨⟨rfl, rfl, rfl⟩, rfl⟩

/-- A request is forwarded with the context that was built for it; if it does
not bypass the engine it has been inspected. -/
theorem requestFilter_forward [CacheBackend store] {now : Time}
    {s : ProxyState limits rest store} {ctx : InspectCtx} {gctx : GatewayCtx}
    (hctx : proxy.buildCtx session = some ctx)
    (h : (proxy.requestFilter nowMs now s session).2 = .forward gctx) :
    Handed ctx gctx ∧ (gctx.accessBypass = false -> (proxy.admission nowMs s.engine session).1 =
        (proxy.engine.inspect nowMs s.engine ctx).1) := by
  unfold WafProxy.requestFilter at h
  dsimp only at h
  rcases admission_cases nowMs s.engine hctx with hrefused | hbypassed | hinspected
  · rcases hrefused with ⟨status, hrefused⟩
    rw [hrefused] at h
    cases h
  · rw [hbypassed] at h
    rcases handed_of_forwardWith h with ⟨hhanded, hbypass⟩
    exact ⟨hhanded, fun hnot => absurd (hbypass.symm.trans hnot) Bool.noConfusion⟩
  · rw [hinspected] at h ⊢
    refine ⟨?_, fun _ => rfl⟩
    cases hallowed : (proxy.engine.inspect nowMs s.engine ctx).2.isAllowed with
    | false =>
      rw [hallowed] at h
      cases h
    | true =>
      rw [hallowed, if_pos rfl] at h
      dsimp only at h
      cases hcache : s.cache with
      | none =>
        rw [hcache] at h
        exact (handed_of_forwardWith h).1
      | some cache =>
        rw [hcache] at h
        dsimp only at h
        split at h
        · cases h
        · exact (handed_of_forwardWith h).1
        · exact (handed_of_forwardWith h).1

theorem requestCtx_collected (gctx : GatewayCtx) (call : WafProxy.BodyCall) :
    (gctx.collected call).requestCtx = gctx.requestCtx ∧
      (gctx.collected call).accessBypass = gctx.accessBypass ∧
      (gctx.collected call).bodyInspected = gctx.bodyInspected := by
  unfold GatewayCtx.collected
  split
  · exact ⟨rfl, rfl, rfl⟩
  · exact ⟨rfl, rfl, rfl⟩

section Inspect

variable {state : Type} (inspect : Int -> state -> InspectCtx -> state × WafDecision) (s : state)
  {gctx : GatewayCtx} {call : WafProxy.BodyCall}

theorem requestBodyFilterWith_of_none (h : gctx.preview call = none) :
    WafProxy.requestBodyFilterWith inspect s gctx call = (s, gctx.collected call, none) := by
  unfold WafProxy.requestBodyFilterWith
  rw [h]

theorem requestBodyFilterWith_of_some {buf : Bytes} {ctx : InspectCtx}
    (h : gctx.preview call = some buf) (hctx : gctx.requestCtx = some ctx) :
    let inspected := inspect call.nowMs s { ctx with bodyPreview := buf }
    WafProxy.requestBodyFilterWith inspect s gctx call =
      (inspected.1, { gctx.collected call with bodyInspected := true },
        if inspected.2.isAllowed then none else some inspected.2) := by
  unfold WafProxy.requestBodyFilterWith
  rw [h]
  dsimp only
  rw [(requestCtx_collected gctx call).1, hctx]

end Inspect

theorem requestBodyFilter_of_none (proxy : WafProxy regex glob rest) (s : EngineState limits rest)
    {gctx : GatewayCtx} {call : WafProxy.BodyCall} (h : gctx.preview call = none) :
    proxy.requestBodyFilter s gctx call = (s, gctx.collected call, none) :=
  requestBodyFilterWith_of_none proxy.engine.inspect s h

theorem requestBodyFilter_of_some (proxy : WafProxy regex glob rest)
    (s : EngineState limits rest)
    {gctx : GatewayCtx} {call : WafProxy.BodyCall} {buf : Bytes}
    {ctx : InspectCtx} (h : gctx.preview call = some buf)
    (hctx : gctx.requestCtx = some ctx) :
    let inspected := proxy.engine.inspect call.nowMs s
      { ctx with bodyPreview := buf }
    proxy.requestBodyFilter s gctx call =
      (inspected.1, { gctx.collected call with bodyInspected := true },
        if inspected.2.isAllowed then none else some inspected.2) :=
  requestBodyFilterWith_of_some proxy.engine.inspect s h hctx

theorem requestBodyFilter_keeps (s : EngineState limits rest)
    {gctx : GatewayCtx} {ctx : InspectCtx} (call : WafProxy.BodyCall)
    (hctx : gctx.requestCtx = some ctx) :
    (proxy.requestBodyFilter s gctx call).2.1.requestCtx = some ctx ∧
      (proxy.requestBodyFilter s gctx call).2.1.accessBypass =
        gctx.accessBypass := by
  rcases requestCtx_collected gctx call with ⟨hkept, hbypass, _⟩
  rw [hctx] at hkept
  cases hpreview : gctx.preview call with
  | none =>
    rw [requestBodyFilter_of_none proxy s hpreview]
    exact ⟨hkept, hbypass⟩
  | some buf =>
    rw [requestBodyFilter_of_some proxy s hpreview hctx]
    exact ⟨hkept, hbypass⟩

end Filters

/-!
## The beginning of a body

A body arrives in parts.  Which call has its beginning inspected, and what the
engine is shown of it, depends on the parts alone.
-/

/-- A call of the body filter with the state that it finds the engine in. -/
abbrev Visit (limits rest : Type) : Type :=
  EngineState limits rest × WafProxy.BodyCall

section Beginning

variable {rest limits : Type}

def chunkOf (visit : Visit limits rest) : Bytes :=
  visit.2.chunk.getD []

def bodyOf (visits : List (Visit limits rest)) : Bytes :=
  visits.flatMap chunkOf

def previewOf (body : Bytes) : Bytes :=
  body.take WafProxy.bodyPreviewLimit

/-- The call that completes the beginning of a body of which some bytes have been
seen, and that beginning. -/
def inspectionVisit (seen : Bytes) : List (Visit limits rest) -> Option (Visit limits rest × Bytes)
  | [] => none
  | visit :: later =>
    let seen := seen ++ chunkOf visit
    if WafProxy.bodyPreviewLimit ≤ seen.length ∨ visit.2.endOfStream = true ∧ seen ≠ [] then
      some (visit, previewOf seen)
    else inspectionVisit seen later

variable {gctx : GatewayCtx} {ctx : InspectCtx} {visit : Visit limits rest}
  {visits later : List (Visit limits rest)}

theorem bodyOf_cons :
    bodyOf (visit :: later) = chunkOf visit ++ bodyOf later :=
  List.flatMap_cons

/-- The request is waiting for more of the beginning of its body. -/
structure Waiting (ctx : InspectCtx) (gctx : GatewayCtx) : Prop where
  requestCtx : gctx.requestCtx = some ctx
  bypass : gctx.accessBypass = false
  inspected : gctx.bodyInspected = false
  room : gctx.bodyBuf.length < WafProxy.bodyPreviewLimit

theorem Handed.waiting (h : Handed ctx gctx) (hbypass : gctx.accessBypass = false) :
    Waiting ctx gctx where
  requestCtx := h.requestCtx
  bypass := hbypass
  inspected := h.bodyInspected
  room := by
    rw [h.bodyBuf]
    decide

theorem collect_eq_previewOf {buf : Bytes} {chunk : Option Bytes}
    (h : buf.length ≤ WafProxy.bodyPreviewLimit) :
    WafProxy.collect buf chunk = previewOf (buf ++ chunk.getD []) := by
  unfold WafProxy.collect previewOf
  rw [List.take_append, List.take_of_length_le h]

theorem bodyBuf_collected (h : Waiting ctx gctx) (visit : Visit limits rest) :
    (gctx.collected visit.2).bodyBuf = previewOf (gctx.bodyBuf ++ chunkOf visit) := by
  unfold GatewayCtx.collected
  rw [h.inspected, h.bypass, Bool.or_false, if_neg Bool.false_ne_true]
  exact collect_eq_previewOf (Nat.le_of_lt h.room)

theorem preview_of_waiting (h : Waiting ctx gctx) (visit : Visit limits rest) :
    gctx.preview visit.2 =
      if WafProxy.bodyPreviewLimit ≤ (gctx.bodyBuf ++ chunkOf visit).length ∨
          visit.2.endOfStream = true ∧ gctx.bodyBuf ++ chunkOf visit ≠ [] then
        some (previewOf (gctx.bodyBuf ++ chunkOf visit))
      else none := by
  have hlimit : 0 < WafProxy.bodyPreviewLimit := by decide
  unfold GatewayCtx.preview
  rw [bodyBuf_collected h, h.inspected, h.bypass, Bool.or_false, if_neg Bool.false_ne_true]
  refine if_congr ?_ rfl rfl
  rw [← List.length_pos_iff, ← List.length_pos_iff, previewOf, List.length_take]
  lia

theorem waiting_collected (h : Waiting ctx gctx)
    (hroom : (gctx.bodyBuf ++ chunkOf visit).length < WafProxy.bodyPreviewLimit) :
    Waiting ctx (gctx.collected visit.2) ∧
      (gctx.collected visit.2).bodyBuf = gctx.bodyBuf ++ chunkOf visit := by
  obtain ⟨hctx, hbypass, hinspected⟩ := requestCtx_collected gctx visit.2
  have hbuf : (gctx.collected visit.2).bodyBuf = gctx.bodyBuf ++ chunkOf visit := by
    rw [bodyBuf_collected h]
    exact List.take_of_length_le (Nat.le_of_lt hroom)
  refine ⟨⟨hctx.trans h.requestCtx, hbypass.trans h.bypass, hinspected.trans h.inspected, ?_⟩, hbuf⟩
  rw [hbuf]
  exact hroom

end Beginning

/-- A request, how far it is, and what has been charged for it. -/
structure Flow where
  ctx : InspectCtx
  outcome : FilterOutcome
  charged : Text -> Nat
  known : forall gctx, outcome = .forward gctx -> gctx.requestCtx = some ctx

def afterBody (filtered : GatewayCtx × Option WafDecision) : FilterOutcome :=
  match filtered.2 with
  | none => .forward filtered.1
  | some decision => .decided decision

theorem afterBody_forward {filtered : GatewayCtx × Option WafDecision}
    {gctx : GatewayCtx} (h : afterBody filtered = .forward gctx) :
    filtered.1 = gctx := by
  unfold afterBody at h
  split at h
  · injection h
  · cases h

section Flow

variable {regex glob rest limits store : Type} [RateLimitStore limits]
  (proxy : WafProxy regex glob rest)

def WafProxy.arrive [CacheBackend store] (nowMs : Int) (now : Time)
    (s : ProxyState (Recorded limits) rest store) (session : Session) :
    ProxyState (Recorded limits) rest store × Option Flow :=
  let filtered := proxy.requestFilter nowMs now s session
  (filtered.1,
    match hctx : proxy.buildCtx session with
    | none => none
    | some ctx =>
      some {
        ctx := ctx
        outcome := filtered.2
        charged := fun key =>
          filtered.1.engine.limits.chargesOf key - s.engine.limits.chargesOf key
        known := fun _ h => (requestFilter_forward hctx h).1.requestCtx })

namespace Flow

def receive (flow : Flow) (s : EngineState (Recorded limits) rest)
    (call : WafProxy.BodyCall) : EngineState (Recorded limits) rest × Flow :=
  match hgctx : flow.outcome with
  | .forward gctx =>
    let filtered := proxy.requestBodyFilter s gctx call
    (filtered.1, {
      ctx := flow.ctx
      outcome := afterBody filtered.2
      charged := fun key =>
        flow.charged key + (filtered.1.limits.chargesOf key - s.limits.chargesOf key)
      known := fun _ h => by
        rw [← afterBody_forward h]
        exact (requestBodyFilter_keeps s call (flow.known gctx hgctx)).1 })
  | _ => (s, flow)

def inspection (flow : Flow) (call : WafProxy.BodyCall) : Option InspectCtx :=
  match flow.outcome with
  | .forward gctx =>
    (gctx.preview call).map (fun buf => { flow.ctx with bodyPreview := buf })
  | _ => none

/-- The request went through the filters so far: it is neither blocked nor
answered, and it did not bypass the engine. -/
def Passed (flow : Flow) : Prop :=
  exists gctx, flow.outcome = .forward gctx ∧ gctx.accessBypass = false

instance (flow : Flow) : Decidable flow.Passed :=
  match hgctx : flow.outcome with
  | .forward gctx =>
    decidable_of_iff (gctx.accessBypass = false)
      ⟨fun h => ⟨gctx, hgctx, h⟩, fun ⟨_, hother, h⟩ => by
        injection hgctx.symm.trans hother with hsame
        rw [hsame]
        exact h⟩
  | .refused _ => isFalse (fun ⟨_, h, _⟩ => by
      rw [hgctx] at h
      cases h)
  | .decided _ => isFalse (fun ⟨_, h, _⟩ => by
      rw [hgctx] at h
      cases h)
  | .cached _ => isFalse (fun ⟨_, h, _⟩ => by
      rw [hgctx] at h
      cases h)

def Done (flow : Flow) : Prop :=
  forall gctx, flow.outcome = .forward gctx -> (gctx.bodyInspected || gctx.accessBypass) = true

variable {proxy} {flow : Flow} {s : EngineState (Recorded limits) rest}
  {call : WafProxy.BodyCall} {ctx : InspectCtx}

theorem receive_ctx :
    (flow.receive proxy s call).2.ctx = flow.ctx := by
  unfold receive
  split
  · rfl
  · rfl

theorem charged_receive (proxy : WafProxy regex glob rest) (flow : Flow)
    (s : EngineState (Recorded limits) rest) (call : WafProxy.BodyCall) (key : Text) :
    (flow.receive proxy s call).2.charged key = flow.charged key +
      ((flow.receive proxy s call).1.limits.chargesOf key - s.limits.chargesOf key) := by
  unfold receive
  split
  · rfl
  · rw [Nat.sub_self, Nat.add_zero]

theorem passed_of_receive (h : (flow.receive proxy s call).2.Passed) :
    flow.Passed := by
  unfold receive at h
  split at h
  · rename_i gctx hgctx
    rcases h with ⟨after, hafter, hbypass⟩
    rw [← afterBody_forward hafter] at hbypass
    refine ⟨gctx, hgctx, ?_⟩
    rw [← (requestBodyFilter_keeps s call (flow.known gctx hgctx)).2]
    exact hbypass
  · exact h

theorem inspection_keys (h : flow.inspection call = some ctx) :
    ipKey ctx = ipKey flow.ctx ∧
      forall config, chargedKeys config ctx = chargedKeys config flow.ctx := by
  unfold inspection at h
  split at h
  · rcases Option.map_eq_some_iff.mp h with ⟨buf, _, hctx⟩
    rw [← hctx]
    exact ⟨rfl, fun _ => rfl⟩
  · cases h

theorem receive_of_none (proxy : WafProxy regex glob rest) (s : EngineState (Recorded limits) rest)
    (h : flow.inspection call = none) :
    (flow.receive proxy s call).1 = s := by
  unfold inspection at h
  unfold receive
  split
  · rename_i gctx hgctx
    rw [hgctx] at h
    exact congrArg Prod.fst (requestBodyFilter_of_none proxy s (Option.map_eq_none_iff.mp h))
  · rfl

theorem receive_of_some (proxy : WafProxy regex glob rest) (s : EngineState (Recorded limits) rest)
    (h : flow.inspection call = some ctx) :
    (flow.receive proxy s call).1 = (proxy.engine.inspect call.nowMs s ctx).1 ∧
      (flow.receive proxy s call).2.Done := by
  unfold inspection at h
  unfold receive
  split
  · rename_i gctx hgctx
    rw [hgctx] at h
    rcases Option.map_eq_some_iff.mp h with ⟨buf, hpreview, hctx⟩
    have hfiltered := requestBodyFilter_of_some proxy s hpreview (flow.known gctx hgctx)
    dsimp only at hfiltered
    rw [hctx] at hfiltered
    refine ⟨congrArg Prod.fst hfiltered, ?_⟩
    intro after hafter
    rw [← afterBody_forward hafter, hfiltered]
    rfl
  · rename_i hover
    split at h
    · rename_i gctx hgctx
      exact absurd hgctx (hover gctx)
    · cases h

theorem inspection_of_done (h : flow.Done) (call : WafProxy.BodyCall) :
    flow.inspection call = none := by
  unfold inspection
  split
  · rename_i gctx hgctx
    unfold GatewayCtx.preview
    rw [if_pos (h gctx hgctx)]
    rfl
  · rfl

theorem receive_done (h : flow.Done) :
    (flow.receive proxy s call).2.Done := by
  unfold receive
  split
  · rename_i gctx hgctx
    have hpreview : gctx.preview call = none := if_pos (h gctx hgctx)
    rcases requestCtx_collected gctx call with ⟨_, hbypass, hinspected⟩
    intro after hafter
    rw [← afterBody_forward hafter, requestBodyFilter_of_none proxy s hpreview]
    dsimp only
    rw [hbypass, hinspected]
    exact h gctx hgctx
  · exact h

/-- The request after some parts of its body.  Between them other requests may
have changed the engine, so each part comes with the state that it finds. -/
def follow (proxy : WafProxy regex glob rest) (flow : Flow) :
    List (Visit (Recorded limits) rest) -> Flow
  | [] => flow
  | (s, call) :: visits => ((flow.receive proxy s call).2).follow proxy visits

/-- The rest of a body, of which some bytes have been seen, is inspected, and that
charges the request. -/
def BodyChargesFrom (proxy : WafProxy regex glob rest) (flow : Flow) (seen : Bytes)
    (visits : List (Visit (Recorded limits) rest)) : Prop :=
  exists visit preview, inspectionVisit seen visits = some (visit, preview) ∧
    proxy.engine.Charges visit.1 { flow.ctx with bodyPreview := preview }

def BodyCharges (proxy : WafProxy regex glob rest) (flow : Flow)
    (visits : List (Visit (Recorded limits) rest)) : Prop :=
  flow.BodyChargesFrom proxy [] visits

instance (proxy : WafProxy regex glob rest) (flow : Flow)
    (visits : List (Visit (Recorded limits) rest)) : Decidable (flow.BodyCharges proxy visits) :=
  match hbody : inspectionVisit [] visits with
  | none => isFalse (fun ⟨_, _, h, _⟩ => by
      rw [hbody] at h
      cases h)
  | some (visit, preview) =>
    decidable_of_iff (proxy.engine.Charges visit.1 { flow.ctx with bodyPreview := preview })
      ⟨fun h => ⟨visit, preview, hbody, h⟩, fun ⟨_, _, hother, h⟩ => by
        injection hbody.symm.trans hother with hsame
        injection hsame with hvisit hpreview
        rw [hvisit, hpreview]
        exact h⟩

variable {visits : List (Visit (Recorded limits) rest)}

theorem passed_of_follow (h : (flow.follow proxy visits).Passed) :
    flow.Passed := by
  induction visits generalizing flow with
  | nil => exact h
  | cons visit rest ih => exact passed_of_receive (ih h)

theorem charged_receive_of_limits
    (h : (flow.receive proxy s call).1.limits = s.limits) (key : Text) :
    (flow.receive proxy s call).2.charged key = flow.charged key := by
  rw [charged_receive, h, Nat.sub_self, Nat.add_zero]

theorem charged_follow_of_done (h : flow.Done) (key : Text) :
    (flow.follow proxy visits).charged key = flow.charged key := by
  induction visits generalizing flow with
  | nil => rfl
  | cons visit rest ih =>
    have hsame := receive_of_none proxy visit.1 (inspection_of_done h visit.2)
    rw [follow, ih (receive_done h), charged_receive_of_limits (congrArg EngineState.limits hsame)]

omit [RateLimitStore limits] in
theorem inspection_of_waiting {gctx : GatewayCtx} (hgctx : flow.outcome = .forward gctx)
    (h : Waiting flow.ctx gctx) (visit : Visit (Recorded limits) rest) :
    flow.inspection visit.2 =
      if WafProxy.bodyPreviewLimit ≤ (gctx.bodyBuf ++ chunkOf visit).length ∨
          visit.2.endOfStream = true ∧ gctx.bodyBuf ++ chunkOf visit ≠ [] then
        some { flow.ctx with bodyPreview := previewOf (gctx.bodyBuf ++ chunkOf visit) }
      else none := by
  unfold inspection
  rw [hgctx]
  dsimp only
  rw [preview_of_waiting h visit]
  split
  · rfl
  · rfl

theorem outcome_receive_of_none (proxy : WafProxy regex glob rest)
    (s : EngineState (Recorded limits) rest) {gctx : GatewayCtx}
    (hgctx : flow.outcome = .forward gctx) (h : gctx.preview call = none) :
    (flow.receive proxy s call).2.outcome = .forward (gctx.collected call) := by
  unfold receive
  split
  · rename_i gctx' hgctx'
    injection hgctx.symm.trans hgctx' with hsame
    subst hsame
    dsimp only
    rw [requestBodyFilter_of_none proxy s h]
    rfl
  · rename_i hover
    exact absurd hgctx (hover gctx)

theorem charged_follow_from (proxy : WafProxy regex glob rest) {gctx : GatewayCtx}
    (hgctx : flow.outcome = .forward gctx) (h : Waiting flow.ctx gctx)
    (visits : List (Visit (Recorded limits) rest)) :
    (flow.BodyChargesFrom proxy gctx.bodyBuf visits ->
        (flow.follow proxy visits).charged (ipKey flow.ctx) =
          flow.charged (ipKey flow.ctx) + 1) ∧
      (¬ flow.BodyChargesFrom proxy gctx.bodyBuf visits ->
        (flow.follow proxy visits).charged (ipKey flow.ctx) = flow.charged (ipKey flow.ctx)) := by
  induction visits generalizing flow gctx with
  | nil =>
    refine ⟨?_, fun _ => rfl⟩
    rintro ⟨visit, preview, hnone, -⟩
    cases hnone
  | cons visit rest ih =>
    have hpreview := preview_of_waiting h visit
    have hinspection := inspection_of_waiting hgctx h visit
    unfold BodyChargesFrom
    rw [follow, inspectionVisit]
    dsimp only
    split at hinspection
    · rename_i hcomplete
      rw [if_pos hcomplete]
      obtain ⟨hinspected, hdone⟩ := receive_of_some proxy visit.1 hinspection
      rw [charged_follow_of_done hdone]
      constructor
      · rintro ⟨found, preview, hsome, hcharges⟩
        injection hsome with hpair
        injection hpair with hvisit hfound
        rw [← hvisit, ← hfound] at hcharges
        rw [charged_receive, hinspected, ← (inspection_keys hinspection).1,
          WafEngine.inspect_chargesOf_ipKey hcharges, Nat.add_sub_cancel_left]
      · intro hnot
        refine charged_receive_of_limits ?_ _
        rw [hinspected]
        exact WafEngine.inspect_limits_of_not_charges (fun hcharges => hnot ⟨_, _, rfl, hcharges⟩)
    · rename_i hincomplete
      rw [if_neg hincomplete] at hpreview
      rw [if_neg hincomplete]
      obtain ⟨hwaiting, hbuf⟩ := waiting_collected h
        (Nat.lt_of_not_le (fun hfull => hincomplete (Or.inl hfull)))
      have hsame := receive_of_none proxy visit.1 hinspection
      have hcharged := charged_receive_of_limits
        (congrArg EngineState.limits hsame) (ipKey flow.ctx)
      have hctx : (flow.receive proxy visit.1 visit.2).2.ctx = flow.ctx := receive_ctx
      have hrest := ih (outcome_receive_of_none proxy visit.1 hgctx hpreview)
        (by rw [hctx]; exact hwaiting)
      unfold BodyChargesFrom at hrest
      rw [hctx, hcharged, hbuf] at hrest
      exact hrest

end Flow

variable {proxy} [CacheBackend store] {nowMs : Int} {now : Time}
  {s : ProxyState (Recorded limits) rest store} {session : Session}
  {flow : Flow}

theorem arrive_engine :
    (proxy.arrive nowMs now s session).1.engine = (proxy.admission nowMs s.engine session).1 :=
  requestFilter_engine now s

theorem arrive_some (h : (proxy.arrive nowMs now s session).2 = some flow) :
    proxy.buildCtx session = some flow.ctx ∧
      flow.outcome = (proxy.requestFilter nowMs now s session).2 ∧ forall key, flow.charged key =
        (proxy.arrive nowMs now s session).1.engine.limits.chargesOf key -
          s.engine.limits.chargesOf key := by
  unfold WafProxy.arrive at h
  dsimp only at h
  split at h
  · cases h
  · rename_i ctx hctx
    injection h with h
    rw [← h]
    exact ⟨hctx, rfl, fun _ => rfl⟩

theorem charged_arrive (h : (proxy.arrive nowMs now s session).2 = some flow)
    (hpassed : flow.Passed) :
    (proxy.engine.Charges s.engine flow.ctx -> flow.charged (ipKey flow.ctx) = 1) ∧
    (¬ proxy.engine.Charges s.engine flow.ctx -> flow.charged (ipKey flow.ctx) = 0) := by
  rcases arrive_some h with ⟨hctx, houtcome, hcharged⟩
  rcases hpassed with ⟨gctx, hgctx, hbypass⟩
  have hinspected := (requestFilter_forward hctx (houtcome.symm.trans hgctx)).2 hbypass
  rw [hcharged, arrive_engine, hinspected]
  constructor
  · intro hcharges
    rw [WafEngine.inspect_chargesOf_ipKey hcharges, Nat.add_sub_cancel_left]
  · intro hnot
    rw [WafEngine.inspect_limits_of_not_charges hnot, Nat.sub_self]

theorem charged_follow_eq_one_iff (h : (proxy.arrive nowMs now s session).2 = some flow)
    {visits : List (Visit (Recorded limits) rest)}
    (hpassed : (flow.follow proxy visits).Passed) :
    (flow.follow proxy visits).charged (ipKey flow.ctx) = 1 <->
      ¬ (proxy.engine.Charges s.engine flow.ctx <-> flow.BodyCharges proxy visits) := by
  obtain ⟨gctx, hgctx, hbypass⟩ := Flow.passed_of_follow hpassed
  obtain ⟨hctx, houtcome, -⟩ := arrive_some h
  have hhanded := (requestFilter_forward hctx (houtcome.symm.trans hgctx)).1
  rcases charged_arrive h ⟨gctx, hgctx, hbypass⟩ with ⟨hone, hzero⟩
  have hbody := Flow.charged_follow_from proxy hgctx (hhanded.waiting hbypass) visits
  rw [hhanded.bodyBuf] at hbody
  obtain ⟨hmore, hsame⟩ := hbody
  rcases Classical.em (proxy.engine.Charges s.engine flow.ctx) with hfirst | hfirst
  · rcases Classical.em (flow.BodyCharges proxy visits) with hbody | hbody
    · rw [hmore hbody, hone hfirst]
      simp [hfirst, hbody]
    · rw [hsame hbody, hone hfirst]
      simp [hfirst, hbody]
  · rcases Classical.em (flow.BodyCharges proxy visits) with hbody | hbody
    · rw [hmore hbody, hzero hfirst]
      simp [hfirst, hbody]
    · rw [hsame hbody, hzero hfirst]
      simp [hfirst, hbody]

theorem arrive_keeps {P : Recorded limits -> Prop} (hcharge : forall key cfg nowMs s, P s ->
      P (RateLimitStore.checkAndConsume key cfg nowMs s).1) (h : P s.engine.limits) :
    P (proxy.arrive nowMs now s session).1.engine.limits := by
  rw [arrive_engine]
  cases hctx : proxy.buildCtx session with
  | none =>
    rw [admission_of_no_ctx hctx]
    exact h
  | some ctx =>
    rcases admission_engine nowMs s.engine hctx with hsame | hinspected
    · rw [hsame]
      exact h
    · rw [hinspected]
      exact WafEngine.inspect_keeps (fun key cfg s' _ _ hs' => hcharge key cfg nowMs s' hs') h

theorem receive_keeps {P : Recorded limits -> Prop} (hcharge : forall key cfg nowMs s, P s ->
      P (RateLimitStore.checkAndConsume key cfg nowMs s).1)
    {e : EngineState (Recorded limits) rest} (call : WafProxy.BodyCall)
    (h : P e.limits) : P (flow.receive proxy e call).1.limits := by
  cases hinspection : flow.inspection call with
  | none =>
    rw [Flow.receive_of_none proxy e hinspection]
    exact h
  | some ctx =>
    rw [(Flow.receive_of_some proxy e hinspection).1]
    exact WafEngine.inspect_keeps (fun key cfg s' _ _ hs' => hcharge key cfg call.nowMs s' hs') h

theorem arrive_chargesOf_le (h : (proxy.arrive nowMs now s session).2 = some flow) (key : Text) :
    flow.charged key ≤
      if key ∈ chargedKeys proxy.engine.rateLimit flow.ctx then 1 else 0 := by
  rcases arrive_some h with ⟨hctx, _, hcharged⟩
  rw [hcharged, arrive_engine]
  rcases admission_engine nowMs s.engine hctx with hsame | hinspected
  · rw [hsame, Nat.sub_self]
    exact Nat.zero_le _
  · rw [hinspected]
    have hbounds := WafEngine.inspect_chargesOf_bounds proxy.engine nowMs s.engine flow.ctx key
    exact Nat.sub_le_iff_le_add'.mpr hbounds.2

theorem arrive_engine_of_none (h : (proxy.arrive nowMs now s session).2 = none) :
    (proxy.arrive nowMs now s session).1.engine = s.engine := by
  rw [arrive_engine]
  unfold WafProxy.arrive at h
  dsimp only at h
  split at h
  · rename_i hctx
    rw [admission_of_no_ctx hctx]
  · cases h

end Flow

/-!
## Requests beside each other

Requests interleave: parts of one body arrive between those of another. The charges on a
key are summed up over all requests so far.
-/

structure Traffic (rest store : Type) where
  proxy : ProxyState (Recorded MemoryStore) rest store
  flows : List Flow

/-- A request arrives, a part of the body of one of the requests does, or the
store of the limits is cleaned up. -/
inductive TrafficEvent where
  | arrive (nowMs : Int) (now : Time) (session : Session)
  | body (index : Nat) (call : WafProxy.BodyCall)
  | cleanup (nowMs : Int)

namespace Traffic

variable {regex glob rest store : Type}

def start (limits : MemoryStore) (others : rest)
    (cache : Option (ResponseCache store)) : Traffic rest store :=
  { proxy := {
      engine := {
        limits := { inner := limits, charges := [] }
        rest := others }
      cache := cache }
    flows := [] }

def limits (t : Traffic rest store) : Recorded MemoryStore :=
  t.proxy.engine.limits

def step [CacheBackend store] (proxy : WafProxy regex glob rest)
    (t : Traffic rest store) : TrafficEvent -> Option (Traffic rest store)
  | .arrive nowMs now session =>
    let arrived := proxy.arrive nowMs now t.proxy session
    some { proxy := arrived.1, flows := t.flows ++ arrived.2.toList }
  | .body index call =>
    match t.flows[index]? with
    | none => none
    | some flow =>
      let received := flow.receive proxy t.proxy.engine call
      some {
        proxy := { t.proxy with engine := received.1 }
        flows := t.flows.set index received.2 }
  | .cleanup nowMs =>
    some { t with
      proxy := { t.proxy with
        engine := { t.proxy.engine with
          limits := { t.proxy.engine.limits with
            inner := t.proxy.engine.limits.inner.cleanup nowMs } } } }

/-- The body of a request that has been charged is not inspected as far as the
rate limit again. -/
def ChargedOnce (proxy : WafProxy regex glob rest) (t : Traffic rest store) : TrafficEvent -> Prop
  | .body index call =>
    forall flow, t.flows[index]? = some flow ->
      forall ctx, flow.inspection call = some ctx ->
        proxy.engine.Charges t.proxy.engine ctx -> forall key, flow.charged key = 0
  | _ => True

def requestsOf (proxy : WafProxy regex glob rest) (key : Text) (t : Traffic rest store) : Nat :=
  t.flows.countP (fun flow =>
    (chargedKeys proxy.engine.rateLimit flow.ctx).contains key)

/-- All charges of the key belong to requests, each of which is charged once at
most. -/
structure Balanced (proxy : WafProxy regex glob rest) (key : Text)
    (t : Traffic rest store) : Prop where
  recorded : t.limits.chargesOf key ≤ (t.flows.map (fun flow => flow.charged key)).sum
  once : forall flow, flow ∈ t.flows -> flow.charged key ≤
    if key ∈ chargedKeys proxy.engine.rateLimit flow.ctx then 1 else 0

variable {proxy : WafProxy regex glob rest} {key : Text}
  {t t' : Traffic rest store} {event : TrafficEvent}

theorem sum_charged_le {flows : List Flow} (honce : forall flow, flow ∈ flows -> flow.charged key ≤
      if key ∈ chargedKeys proxy.engine.rateLimit flow.ctx then 1 else 0) :
    (flows.map (fun flow => flow.charged key)).sum ≤ flows.countP (fun flow =>
      (chargedKeys proxy.engine.rateLimit flow.ctx).contains key) := by
  induction flows with
  | nil => exact le_refl _
  | cons flow rest ih =>
    rw [List.forall_mem_cons] at honce
    have hrest := ih honce.2
    have hflow := honce.1
    rw [List.map_cons, List.sum_cons, List.countP_cons]
    simp only [List.contains_iff_mem]
    lia

theorem Balanced.chargesOf_le (h : Balanced proxy key t) :
    t.limits.chargesOf key ≤ t.requestsOf proxy key :=
  h.recorded.trans (sum_charged_le h.once)

theorem charged_receive_le {e : EngineState (Recorded MemoryStore) rest}
    {call : WafProxy.BodyCall} {flow : Flow} (h : flow.charged key ≤
      if key ∈ chargedKeys proxy.engine.rateLimit flow.ctx then 1 else 0)
    (hok : forall ctx, flow.inspection call = some ctx ->
      proxy.engine.Charges e ctx -> forall key, flow.charged key = 0) :
    (flow.receive proxy e call).2.charged key ≤
      if key ∈ chargedKeys proxy.engine.rateLimit flow.ctx then 1 else 0 := by
  cases hinspection : flow.inspection call with
  | none =>
    have hsame := Flow.receive_of_none proxy e hinspection
    rw [Flow.charged_receive_of_limits (congrArg EngineState.limits hsame)]
    exact h
  | some ctx =>
    have hinspected := (Flow.receive_of_some proxy e hinspection).1
    rcases Classical.em (proxy.engine.Charges e ctx) with hcharges | hnot
    · have hbounds := WafEngine.inspect_chargesOf_bounds proxy.engine call.nowMs e ctx key
      rw [(Flow.inspection_keys hinspection).2] at hbounds
      rw [Flow.charged_receive, hok ctx hinspection hcharges key, hinspected, Nat.zero_add]
      exact Nat.sub_le_iff_le_add'.mpr hbounds.2
    · refine le_of_eq_of_le (Flow.charged_receive_of_limits ?_ key) h
      rw [hinspected]
      exact WafEngine.inspect_limits_of_not_charges hnot

theorem balanced_body (h : Balanced proxy key t) {index : Nat}
    {call : WafProxy.BodyCall} (hok : ChargedOnce proxy t (.body index call))
    {flow : Flow} (hflow : t.flows[index]? = some flow) :
    Balanced proxy key {
      proxy := { t.proxy with
        engine := (flow.receive proxy t.proxy.engine call).1 }
      flows := t.flows.set index
        (flow.receive proxy t.proxy.engine call).2 } := by
  rcases List.getElem?_eq_some_iff.mp hflow with ⟨hindex, hget⟩
  rcases @List.exists_of_set _ index (flow.receive proxy t.proxy.engine call).2
    t.flows hindex with ⟨front, back, hflows, _, hset⟩
  rw [hget] at hflows
  have hcharged := Flow.charged_receive proxy flow t.proxy.engine call key
  have hrecorded := h.recorded
  unfold limits at hrecorded
  rw [hset]
  refine ⟨?_, ?_⟩
  · rw [hflows] at hrecorded
    unfold limits
    simp only [List.map_append, List.map_cons, List.sum_append, List.sum_cons] at hrecorded ⊢
    lia
  · intro other hother
    rcases List.mem_append.mp hother with hfront | hrest
    · exact h.once other (hflows ▸ List.mem_append.mpr (Or.inl hfront))
    rcases List.mem_cons.mp hrest with hsame | hback
    · rw [hsame, Flow.receive_ctx]
      exact charged_receive_le (h.once flow
        (hflows ▸ List.mem_append.mpr (Or.inr List.mem_cons_self))) (hok flow hflow)
    · exact h.once other (hflows ▸ List.mem_append.mpr (Or.inr (List.mem_cons_of_mem _ hback)))

variable [CacheBackend store]

theorem balanced_arrive (h : Balanced proxy key t) (nowMs : Int) (now : Time) (session : Session) :
    Balanced proxy key {
      proxy := (proxy.arrive nowMs now t.proxy session).1
      flows := t.flows ++
        (proxy.arrive nowMs now t.proxy session).2.toList } := by
  cases harrive : (proxy.arrive nowMs now t.proxy session).2 with
  | none =>
    have hengine := arrive_engine_of_none harrive
    refine ⟨?_, ?_⟩
    · unfold limits
      dsimp only
      rw [hengine, Option.toList_none, List.append_nil]
      exact h.recorded
    · rw [Option.toList_none, List.append_nil]
      exact h.once
  | some flow =>
    have hcharged := (arrive_some harrive).2.2 key
    have hrecorded := h.recorded
    unfold limits at hrecorded
    refine ⟨?_, ?_⟩
    · unfold limits
      dsimp only
      rw [Option.toList_some, List.map_append, List.sum_append,
        List.map_singleton, List.sum_singleton]
      lia
    · intro other hother
      rcases List.mem_append.mp hother with hold | hnew
      · exact h.once other hold
      · rw [List.mem_singleton.mp hnew]
        exact arrive_chargesOf_le harrive key

theorem balanced_step (h : Balanced proxy key t)
    (hok : ChargedOnce proxy t event) (hstep : step proxy t event = some t') :
    Balanced proxy key t' := by
  cases event with
  | arrive nowMs now session =>
    injection hstep with hstep
    rw [← hstep]
    exact balanced_arrive h nowMs now session
  | body index call =>
    rw [step] at hstep
    cases hflow : t.flows[index]? with
    | none =>
      rw [hflow] at hstep
      cases hstep
    | some flow =>
      rw [hflow] at hstep
      injection hstep with hstep
      rw [← hstep]
      exact balanced_body h hok hflow
  | cleanup nowMs =>
    injection hstep with hstep
    rw [← hstep]
    exact ⟨h.recorded, h.once⟩

variable {cfg : LimitCfg} {nowMs : Int} {limits : MemoryStore} {others : rest}
  {cache : Option (ResponseCache store)} {events : List TrafficEvent}

theorem solvent_step (h : Solvent key cfg nowMs t.limits) (hstep : step proxy t event = some t') :
    Solvent key cfg nowMs t'.limits := by
  have hcharge : forall charged chargedCfg chargedMs s, Solvent key cfg nowMs s ->
        Solvent key cfg nowMs (RateLimitStore.checkAndConsume charged chargedCfg chargedMs s).1 :=
    fun charged chargedCfg chargedMs _ hs =>
      solvent_checkAndConsume hs charged chargedCfg chargedMs
  cases event with
  | arrive arrivedMs now session =>
    injection hstep with hstep
    rw [← hstep]
    exact arrive_keeps hcharge h
  | body index call =>
    rw [step] at hstep
    cases hflow : t.flows[index]? with
    | none =>
      rw [hflow] at hstep
      cases hstep
    | some flow =>
      rw [hflow] at hstep
      injection hstep with hstep
      rw [← hstep]
      exact receive_keeps hcharge call h
  | cleanup cleanedMs =>
    injection hstep with hstep
    rw [← hstep]
    exact solvent_cleanup h cleanedMs

theorem burst_of_run (hmeet : StepsMeet (step proxy) (ChargedOnce proxy)
      (start limits others cache) events)
    (hrun : runFrom (step proxy) (start limits others cache) events = some t)
    (hfull : cfg.capacity ≤ limits.tokensAt key cfg nowMs)
    (hinstant : forall charge, charge ∈ t.limits.charges -> charge.key = key ->
      charge.cfg = cfg ∧ charge.nowMs = nowMs)
    (hfew : t.requestsOf proxy key ≤ cfg.burstCapacity.toNat) :
    forall charge, charge ∈ t.limits.charges -> charge.key = key ->
      charge.decision ≠ some .burstExceeded := by
  have hbalanced : Balanced proxy key t :=
    runFrom_invariant balanced_step ⟨le_refl _, List.forall_mem_nil _⟩ hmeet hrun
  have hsolvent : Solvent key cfg nowMs t.limits :=
    runFrom_invariant (I := fun t => Solvent key cfg nowMs t.limits)
      (fun h _ hstep => solvent_step h hstep) (solvent_start hfull) hmeet hrun
  exact (hsolvent hinstant (hbalanced.chargesOf_le.trans hfew)).2

end Traffic

section Once

variable {regex glob rest store : Type} [CacheBackend store]

/-- A request that gets through both filters is charged exactly once if exactly
one of its two inspections reaches a rate limit.  In a run in which no request
is charged twice, a client that sends no more requests at one instant than its
full bucket has tokens is never answered that the burst is exceeded. -/
theorem one_request_one_token (proxy : WafProxy regex glob rest) :
    (forall {limits : Type} [RateLimitStore limits] {nowMs : Int} {now : Time}
      {s : ProxyState (Recorded limits) rest store} {session : Session} {flow : Flow}
      {visits : List (Visit (Recorded limits) rest)},
      (proxy.arrive nowMs now s session).2 = some flow -> (flow.follow proxy visits).Passed ->
        ((flow.follow proxy visits).charged (ipKey flow.ctx) = 1 <->
          ¬ (proxy.engine.Charges s.engine flow.ctx <-> flow.BodyCharges proxy visits))) ∧
    (forall {limits : MemoryStore} {others : rest}
      {cache : Option (ResponseCache store)} {events : List TrafficEvent}
      {t : Traffic rest store} {key : Text} {cfg : LimitCfg} {nowMs : Int},
      StepsMeet (Traffic.step proxy) (Traffic.ChargedOnce proxy)
        (Traffic.start limits others cache) events ->
      runFrom (Traffic.step proxy) (Traffic.start limits others cache) events = some t ->
      cfg.capacity ≤ limits.tokensAt key cfg nowMs ->
      (forall charge, charge ∈ t.limits.charges -> charge.key = key ->
        charge.cfg = cfg ∧ charge.nowMs = nowMs) ->
      t.requestsOf proxy key ≤ cfg.burstCapacity.toNat ->
        forall charge, charge ∈ t.limits.charges -> charge.key = key ->
          charge.decision ≠ some .burstExceeded) :=
  ⟨fun h hpassed => charged_follow_eq_one_iff h hpassed, Traffic.burst_of_run⟩

end Once

def burstCfg (capacity : UInt32) : LimitCfg :=
  { burstCapacity := capacity
    burstRefillPerS := 1
    windowSecs := 60
    windowLimit := 100 }

def burstProxy (capacity : UInt32) : WafProxy Text Text Unit :=
  quietProxy {
    sessionCookie := "SESSIONID".toList
    tiers := fun _ => some (burstCfg capacity) }

def idle : Traffic Unit MokaStore :=
  Traffic.start MemoryStore.empty () none

def getSession : Session :=
  sessionOf (getRoot shopHost)

def postSession : Session :=
  sessionOf { getRoot shopHost with
    method := "POST".toList
    isToken := by decide }

def lastPart (chunk : Option Bytes) : WafProxy.BodyCall :=
  { nowMs := 0, chunk := chunk, endOfStream := true }

def clientKey : Text :=
  "ip:shop.test:192.0.2.7".toList

theorem getSession_chargedOnce :
    StepsMeet (Traffic.step (burstProxy 1)) (Traffic.ChargedOnce (burstProxy 1)) idle
      [.arrive 0 0 getSession, .body 0 (lastPart none)] := by
  refine ⟨trivial, ?_, trivial⟩
  intro flow hflow ctx hctx
  obtain ⟨arrived, harrive⟩ : exists arrived,
      ((burstProxy 1).arrive 0 0 idle.proxy getSession).2 = some arrived := ⟨_, rfl⟩
  have hnone : (((burstProxy 1).arrive 0 0 idle.proxy getSession).2).all
      (fun flow => (flow.inspection (lastPart none)).isNone) = true := by
    decide +kernel
  dsimp only at hflow
  rw [harrive] at hflow hnone
  injection hflow with hflow
  rw [Option.all_some, hflow, hctx] at hnone
  cases hnone

theorem getSession_one_token :
    (exists flow, ((burstProxy 1).arrive 0 0 idle.proxy getSession).2 = some flow ∧
      (flow.follow (burstProxy 1) [(idle.proxy.engine, lastPart none)]).charged
        (ipKey flow.ctx) = 1) ∧
    exists t, runFrom (Traffic.step (burstProxy 1)) idle
        [.arrive 0 0 getSession, .body 0 (lastPart none)] = some t ∧
      forall charge, charge ∈ t.limits.charges -> charge.key = clientKey ->
        charge.decision ≠ some .burstExceeded := by
  constructor
  · obtain ⟨flow, harrive⟩ : exists flow,
        ((burstProxy 1).arrive 0 0 idle.proxy getSession).2 = some flow := ⟨_, rfl⟩
    have hfacts : (((burstProxy 1).arrive 0 0 idle.proxy getSession).2).all (fun flow =>
          (flow.follow (burstProxy 1) [(idle.proxy.engine, lastPart none)]).Passed ∧
          (burstProxy 1).engine.Charges idle.proxy.engine flow.ctx ∧
          ¬ flow.BodyCharges (burstProxy 1) [(idle.proxy.engine, lastPart none)]) = true := by
      decide +kernel
    rw [harrive, Option.all_some, decide_eq_true_eq] at hfacts
    rcases hfacts with ⟨hpassed, hfirst, hbody⟩
    exact ⟨flow, harrive, ((one_request_one_token (burstProxy 1)).1 harrive
      hpassed).mpr (fun hiff => hbody (hiff.mp hfirst))⟩
  · obtain ⟨t, hrun⟩ : exists t, runFrom (Traffic.step (burstProxy 1)) idle
        [.arrive 0 0 getSession, .body 0 (lastPart none)] = some t := ⟨_, rfl⟩
    have hfacts : (runFrom (Traffic.step (burstProxy 1)) idle
        [.arrive 0 0 getSession, .body 0 (lastPart none)]).all (fun t =>
          t.limits.charges.all (fun charge =>
            charge.cfg = burstCfg 1 ∧ charge.nowMs = 0) ∧ t.requestsOf (burstProxy 1) clientKey ≤
            (burstCfg 1).burstCapacity.toNat) = true := by
      decide +kernel
    have hfull : (burstCfg 1).capacity ≤ MemoryStore.empty.tokensAt clientKey (burstCfg 1) 0 := by
      decide +kernel
    rw [hrun, Option.all_some, decide_eq_true_eq, List.all_eq_true] at hfacts
    refine ⟨t, hrun, (one_request_one_token (burstProxy 1)).2
      getSession_chargedOnce hrun hfull ?_ hfacts.2⟩
    intro charge hcharge _
    exact of_decide_eq_true (hfacts.1 charge hcharge)

def chargeOf (decision : Decision) : Charge :=
  { key := clientKey
    cfg := burstCfg 1
    nowMs := 0
    decision := some decision }

/-- A request with a body of one byte is charged twice; if the bucket has one
token, the request itself exceeds the burst. -/
theorem postSession_two_tokens :
    (runFrom (Traffic.step (burstProxy 2)) idle
        [.arrive 0 0 postSession, .body 0 (lastPart (some [42]))]).map (fun t =>
          t.flows.map (fun flow =>
            (decide flow.Passed, flow.charged (ipKey flow.ctx)))) = some [(true, 2)] ∧
    (runFrom (Traffic.step (burstProxy 1)) idle
        [.arrive 0 0 postSession, .body 0 (lastPart (some [42]))]).map (fun t =>
          (t.requestsOf (burstProxy 1) clientKey, t.limits.charges)) =
      some (1, [chargeOf .burstExceeded, chargeOf .allow]) := by
  refine ⟨?_, ?_⟩
  · decide +kernel
  · decide +kernel

end Gateway
end PrxWaf
