import PrxWaf.Gateway.RequestCharges

/-!
# Bodies that are blocked

A body arrives in chunks, and each chunk is sent on as soon as the body filter has
let it pass.  The filter inspects the beginning of the body once, when it has
collected enough of it or the body ends.  Whether a blocked body still reaches the
upstream depends on how much of it came before that call.
-/

namespace PrxWaf
namespace Gateway

open Lib Cache Engine RateLimit

variable {regex glob rest limits : Type}

def lastChunk (visits : List (Visit limits rest)) : Bytes :=
  (visits.getLast?.map chunkOf).getD []

/-- The last call, and no other, is flagged as the end of the body. -/
def EndsOnce : List (Visit limits rest) -> Prop
  | [] => False
  | [visit] => visit.2.endOfStream = true
  | visit :: later => visit.2.endOfStream = false ∧ EndsOnce later

/-- What the calls pass on until one of them fails, and the decision of that
call. -/
def WafProxy.passBody [RateLimitStore limits] (proxy : WafProxy regex glob rest) :
    GatewayCtx -> List (Visit limits rest) -> Bytes × Option WafDecision
  | _, [] => ([], none)
  | gctx, visit :: later =>
    let filtered := proxy.requestBodyFilter visit.1 gctx visit.2
    match filtered.2.2 with
    | some decision => ([], some decision)
    | none =>
      let passed := proxy.passBody filtered.2.1 later
      (chunkOf visit ++ passed.1, passed.2)

def Blocks [RateLimitStore limits] (proxy : WafProxy regex glob rest)
    (ctx : InspectCtx) (preview : Bytes) (visit : Visit limits rest) : Prop :=
  exists status page,
    (proxy.engine.inspect visit.2.nowMs visit.1
      { ctx with bodyPreview := preview }).2.action = .block status page

def StoppedInTime [RateLimitStore limits] (proxy : WafProxy regex glob rest) (gctx : GatewayCtx)
    (visits : List (Visit limits rest)) : Prop :=
  (proxy.passBody gctx visits).2.isSome = true ∧
    (proxy.passBody gctx visits).1.length < (bodyOf visits).length

variable {gctx : GatewayCtx} {ctx : InspectCtx}
  {visit : Visit limits rest} {later : List (Visit limits rest)}

theorem lastChunk_cons_cons {next : Visit limits rest} :
    lastChunk (visit :: next :: later) = lastChunk (next :: later) := by
  unfold lastChunk
  rw [List.getLast?_cons_cons]

section Passing

variable [RateLimitStore limits] {proxy : WafProxy regex glob rest}

theorem passBody_of_complete {preview : Bytes} (hctx : gctx.requestCtx = some ctx)
    (hpreview : gctx.preview visit.2 = some preview) (hblocks : Blocks proxy ctx preview visit)
    (later : List (Visit limits rest)) :
    (proxy.passBody gctx (visit :: later)).1 = [] ∧
      (proxy.passBody gctx (visit :: later)).2.isSome = true := by
  obtain ⟨status, page, haction⟩ := hblocks
  have hfiltered := requestBodyFilter_of_some proxy visit.1 hpreview hctx
  have hdenied : (proxy.engine.inspect visit.2.nowMs visit.1
      { ctx with bodyPreview := preview }).2.isAllowed = false := by
    unfold WafDecision.isAllowed
    rw [haction]
  dsimp only at hfiltered
  rw [hdenied, if_neg Bool.false_ne_true] at hfiltered
  unfold WafProxy.passBody
  dsimp only
  rw [hfiltered]
  exact ⟨rfl, rfl⟩

theorem passBody_of_incomplete (hpreview : gctx.preview visit.2 = none) :
    proxy.passBody gctx (visit :: later) =
      (chunkOf visit ++ (proxy.passBody (gctx.collected visit.2) later).1,
        (proxy.passBody (gctx.collected visit.2) later).2) := by
  have hfiltered := requestBodyFilter_of_none proxy visit.1 hpreview
  rw [WafProxy.passBody]
  dsimp only
  rw [hfiltered]

variable {visits : List (Visit limits rest)}

theorem stoppedInTime_of_complete (h : Waiting ctx gctx)
    (hcomplete : WafProxy.bodyPreviewLimit ≤ (gctx.bodyBuf ++ chunkOf visit).length ∨
      visit.2.endOfStream = true ∧ gctx.bodyBuf ++ chunkOf visit ≠ [])
    (hpreview : previewOf (gctx.bodyBuf ++ bodyOf (visit :: later)) =
      previewOf (gctx.bodyBuf ++ chunkOf visit)) (hblocks : forall found preview,
      inspectionVisit gctx.bodyBuf (visit :: later) = some (found, preview) ->
        Blocks proxy ctx (previewOf (gctx.bodyBuf ++ bodyOf (visit :: later))) found) :
    StoppedInTime proxy gctx (visit :: later) <-> bodyOf (visit :: later) ≠ [] := by
  have hfound : inspectionVisit gctx.bodyBuf (visit :: later) =
      some (visit, previewOf (gctx.bodyBuf ++ chunkOf visit)) := if_pos hcomplete
  have hsome := preview_of_waiting h visit
  rw [if_pos hcomplete] at hsome
  have hblocked := hblocks visit _ hfound
  rw [hpreview] at hblocked
  obtain ⟨hpassed, hfailed⟩ := passBody_of_complete h.requestCtx hsome hblocked later
  unfold StoppedInTime
  rw [hpassed, hfailed, List.length_nil, List.length_pos_iff]
  exact ⟨fun hstopped => hstopped.2, fun hbody => ⟨rfl, hbody⟩⟩

theorem stoppedInTime_of_incomplete (hincomplete : gctx.preview visit.2 = none) :
    StoppedInTime proxy gctx (visit :: later) <->
      StoppedInTime proxy (gctx.collected visit.2) later := by
  unfold StoppedInTime
  rw [passBody_of_incomplete hincomplete, bodyOf_cons]
  simp only [List.length_append, Nat.add_lt_add_iff_left]

theorem stoppedInTime_last (h : Waiting ctx gctx) (hends : visit.2.endOfStream = true)
    (hblocks : forall found preview,
      inspectionVisit gctx.bodyBuf [visit] = some (found, preview) ->
        Blocks proxy ctx (previewOf (gctx.bodyBuf ++ bodyOf [visit])) found) :
    StoppedInTime proxy gctx [visit] <-> chunkOf visit ≠ [] := by
  have hbody : bodyOf [visit] = chunkOf visit := List.append_nil _
  rcases Decidable.em (gctx.bodyBuf ++ chunkOf visit = []) with hnone | hsome
  · have hincomplete := preview_of_waiting h visit
    rw [hnone, if_neg (by simp [WafProxy.bodyPreviewLimit])] at hincomplete
    have hchunk : chunkOf visit = [] := (List.append_eq_nil_iff.mp hnone).2
    rw [stoppedInTime_of_incomplete hincomplete, hchunk]
    constructor
    · intro hstopped
      cases hstopped.1
    · intro hne
      exact absurd rfl hne
  · rw [stoppedInTime_of_complete h (Or.inr ⟨hends, hsome⟩) (by rw [hbody]) hblocks, hbody]

theorem stoppedInTime_of_waiting (h : Waiting ctx gctx) (hends : EndsOnce visits)
    (hblocks : forall found preview,
      inspectionVisit gctx.bodyBuf visits = some (found, preview) ->
        Blocks proxy ctx (previewOf (gctx.bodyBuf ++ bodyOf visits)) found) :
    StoppedInTime proxy gctx visits <->
      WafProxy.bodyPreviewLimit ≤ (gctx.bodyBuf ++ bodyOf visits).length ∨
        lastChunk visits ≠ [] := by
  have hroom := h.room
  induction visits generalizing gctx with
  | nil => cases hends
  | cons visit later ih =>
    cases later with
    | nil =>
      have hbody : bodyOf [visit] = chunkOf visit := List.append_nil _
      have hlast : lastChunk [visit] = chunkOf visit := rfl
      rw [stoppedInTime_last h hends hblocks, hlast, hbody,
        List.length_append, ← List.length_pos_iff]
      lia
    | cons next rest =>
      obtain ⟨hopen, hends⟩ := hends
      rw [lastChunk_cons_cons]
      rcases Decidable.em (WafProxy.bodyPreviewLimit ≤
          (gctx.bodyBuf ++ chunkOf visit).length) with hfull | hfull
      · have hpreview : previewOf (gctx.bodyBuf ++ bodyOf (visit :: next :: rest)) =
            previewOf (gctx.bodyBuf ++ chunkOf visit) := by
          rw [bodyOf_cons, ← List.append_assoc]
          exact List.take_append_of_le_length hfull
        rw [stoppedInTime_of_complete h (Or.inl hfull) hpreview hblocks,
          ← List.length_pos_iff, bodyOf_cons]
        rw [List.length_append] at hfull
        simp only [List.length_append]
        lia
      · have hincomplete := preview_of_waiting h visit
        rw [if_neg (by rw [hopen]; simpa using hfull)] at hincomplete
        obtain ⟨hwaiting, hbuf⟩ := waiting_collected h (Nat.lt_of_not_le hfull)
        have hseen : (gctx.collected visit.2).bodyBuf ++ bodyOf (next :: rest) =
              gctx.bodyBuf ++ bodyOf (visit :: next :: rest) := by
          rw [hbuf, List.append_assoc, ← bodyOf_cons]
        have hlater := ih hwaiting hends (by
          intro found preview hfound
          rw [hseen]
          refine hblocks found preview ?_
          rw [hbuf] at hfound
          rw [inspectionVisit, if_neg (by rw [hopen]; simpa using hfull)]
          exact hfound) hwaiting.room
        rw [hseen] at hlater
        exact (stoppedInTime_of_incomplete hincomplete).trans hlater

theorem passBody_of_bypass (hbypass : gctx.accessBypass = true) :
    (proxy.passBody gctx visits).2 = none := by
  induction visits generalizing gctx with
  | nil => rfl
  | cons visit later ih =>
    have hpreview : gctx.preview visit.2 = none := if_pos (by rw [hbypass, Bool.or_true])
    rw [passBody_of_incomplete hpreview]
    exact ih ((requestCtx_collected gctx visit.2).2.1.trans hbypass)

/-- A body that the engine blocks is stopped in time exactly when the request does
not bypass the engine, and the body either fills the preview or ends with a call
that brings some of it. -/
theorem stoppedInTime_iff (hhanded : Handed ctx gctx) (hends : EndsOnce visits)
    (hblocks : forall found preview, inspectionVisit [] visits = some (found, preview) ->
      Blocks proxy ctx (previewOf (bodyOf visits)) found) :
    StoppedInTime proxy gctx visits <->
      gctx.accessBypass = false ∧
        (WafProxy.bodyPreviewLimit ≤ (bodyOf visits).length ∨
          lastChunk visits ≠ []) := by
  have hempty := hhanded.bodyBuf
  cases hbypass : gctx.accessBypass with
  | true =>
    constructor
    · intro hstopped
      have hfailed := hstopped.1
      rw [passBody_of_bypass hbypass] at hfailed
      cases hfailed
    · intro hcases
      cases hcases.1
  | false =>
    have hblocked : forall found preview,
        inspectionVisit gctx.bodyBuf visits = some (found, preview) ->
          Blocks proxy ctx (previewOf (gctx.bodyBuf ++ bodyOf visits))
            found := by
      rw [hempty]
      exact hblocks
    have hwaiting := hhanded.waiting hbypass
    rw [stoppedInTime_of_waiting hwaiting hends hblocked, hempty,
      List.nil_append]
    exact ⟨fun hcases => ⟨rfl, hcases⟩, fun hcases => hcases.2⟩

end Passing

def evilRule : Rules.CustomRule :=
  { Rules.bareRule with
    conditions := [{
      field := .body
      operator := .contains
      value := .str "evil".toList }] }

def evilProxy : WafProxy Text Text Unit :=
  { quietProxy WafEngine.noLimits with
    engine := WafEngine.engineWith evilRule }

def handedCtx : GatewayCtx :=
  { requestCtx := some plainCtx
    accessBypass := false
    bodyBuf := []
    bodyInspected := false
    pending := none }

def part (chunk : Option Bytes) (endOfStream : Bool) : Visit MemoryStore Unit :=
  (WafEngine.freshState,
    { nowMs := 0
      chunk := chunk
      endOfStream := endOfStream })

theorem split_word_stopped :
    StoppedInTime evilProxy handedCtx
      [part (some [101, 118]) false, part (some [105, 108]) true] := by
  have hhanded : Handed plainCtx handedCtx := ⟨rfl, rfl, rfl⟩
  have hends : EndsOnce [part (some [101, 118]) false, part (some [105, 108]) true] := ⟨rfl, rfl⟩
  refine (stoppedInTime_iff hhanded hends ?_).mpr (by decide)
  intro found preview hfound
  cases hfound
  exact ⟨403, _, rfl⟩

/-- The body ends with a call of its own.  The engine blocks it, but only after
all of it has passed. -/
theorem separate_end_not_stopped :
    Blocks evilProxy plainCtx (previewOf (bodyOf [part (some [101, 118, 105, 108]) false,
          part none true])) (part none true) ∧ (evilProxy.passBody handedCtx
        [part (some [101, 118, 105, 108]) false, part none true]).1 = [101, 118, 105, 108] ∧
      ¬ StoppedInTime evilProxy handedCtx
        [part (some [101, 118, 105, 108]) false, part none true] := by
  refine ⟨⟨403, _, rfl⟩, rfl, ?_⟩
  intro hstopped
  exact absurd hstopped.2 (by decide)

end Gateway
end PrxWaf
