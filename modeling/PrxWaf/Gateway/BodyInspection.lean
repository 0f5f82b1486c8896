import PrxWaf.Gateway.BodyBlocking

/-!
# What is inspected of a body

The engine is shown the beginning of a body, however the body is cut into chunks.
The body filter is run here over an engine that notes each context that it is asked
to inspect, along the calls for one body.
-/

namespace PrxWaf
namespace Gateway

open Lib Cache Engine RateLimit

variable {regex glob rest limits : Type}

/-- The engine, with the contexts that it has inspected so far. -/
def WafProxy.inspectNoting [RateLimitStore limits] (proxy : WafProxy regex glob rest)
    (nowMs : Int) (s : EngineState limits rest × List InspectCtx) (ctx : InspectCtx) :
    (EngineState limits rest × List InspectCtx) × WafDecision :=
  let inspected := proxy.engine.inspect nowMs s.1 ctx
  ((inspected.1, s.2 ++ [ctx]), inspected.2)

/-- The contexts that the engine is asked to inspect along the calls, until one of
them fails. -/
def WafProxy.inspections [RateLimitStore limits] (proxy : WafProxy regex glob rest) :
    GatewayCtx -> List (Visit limits rest) -> List InspectCtx
  | _, [] => []
  | gctx, visit :: later =>
    let filtered := WafProxy.requestBodyFilterWith proxy.inspectNoting (visit.1, [])
      gctx visit.2
    filtered.1.2 ++
      match filtered.2.2 with
      | some _ => []
      | none => proxy.inspections filtered.2.1 later

section Inspections

variable [RateLimitStore limits] {proxy : WafProxy regex glob rest}
  {gctx : GatewayCtx} {ctx : InspectCtx}
  {visit : Visit limits rest} {visits later : List (Visit limits rest)}

/-- Noting what is inspected changes nothing else. -/
theorem requestBodyFilter_noted (proxy : WafProxy regex glob rest) (s : EngineState limits rest)
    (log : List InspectCtx) (gctx : GatewayCtx) (call : WafProxy.BodyCall) :
    ((WafProxy.requestBodyFilterWith proxy.inspectNoting (s, log) gctx call).1.1,
        (WafProxy.requestBodyFilterWith proxy.inspectNoting (s, log) gctx call).2) =
      proxy.requestBodyFilter s gctx call := by
  unfold WafProxy.requestBodyFilter WafProxy.requestBodyFilterWith
  cases gctx.preview call with
  | none => rfl
  | some buf =>
    dsimp only
    split
    · rfl
    · rfl

theorem inspections_of_incomplete (h : gctx.preview visit.2 = none) :
    proxy.inspections gctx (visit :: later) = proxy.inspections (gctx.collected visit.2) later := by
  rw [WafProxy.inspections, requestBodyFilterWith_of_none _ _ h]
  rfl

theorem inspections_of_inspected (h : gctx.bodyInspected = true) :
    proxy.inspections gctx visits = [] := by
  induction visits with
  | nil => rfl
  | cons visit later ih =>
    have hclosed : (gctx.bodyInspected || gctx.accessBypass) = true := by
      rw [h, Bool.true_or]
    have hpreview : gctx.preview visit.2 = none := if_pos hclosed
    have hsame : gctx.collected visit.2 = gctx := if_pos hclosed
    rw [inspections_of_incomplete hpreview, hsame]
    exact ih

theorem inspections_of_complete {preview : Bytes} (hctx : gctx.requestCtx = some ctx)
    (hpreview : gctx.preview visit.2 = some preview) :
    proxy.inspections gctx (visit :: later) = [{ ctx with bodyPreview := preview }] := by
  have hfiltered := requestBodyFilterWith_of_some proxy.inspectNoting (visit.1, [])
    hpreview hctx
  dsimp only at hfiltered
  rw [WafProxy.inspections, hfiltered]
  dsimp only
  split
  · rfl
  · rw [inspections_of_inspected rfl]
    rfl

theorem inspections_of_waiting (proxy : WafProxy regex glob rest)
    (h : Waiting ctx gctx) (hends : EndsOnce visits) :
    proxy.inspections gctx visits =
      if gctx.bodyBuf ++ bodyOf visits = [] then []
      else [{ ctx with
        bodyPreview := previewOf (gctx.bodyBuf ++ bodyOf visits) }] := by
  induction visits generalizing gctx with
  | nil => cases hends
  | cons visit later ih =>
    have hpreview := preview_of_waiting h visit
    rw [bodyOf_cons, ← List.append_assoc]
    rcases Decidable.em (WafProxy.bodyPreviewLimit ≤
        (gctx.bodyBuf ++ chunkOf visit).length) with hfull | hroom
    · -- The rest of the body comes after the limit.
      rw [if_pos (Or.inl hfull)] at hpreview
      have hlimit : 0 < WafProxy.bodyPreviewLimit := by decide
      have hnonempty : gctx.bodyBuf ++ chunkOf visit ++ bodyOf later ≠ [] := by
        rw [← List.length_pos_iff, List.length_append]
        lia
      have hcut : previewOf (gctx.bodyBuf ++ chunkOf visit ++ bodyOf later) =
            previewOf (gctx.bodyBuf ++ chunkOf visit) := List.take_append_of_le_length hfull
      rw [inspections_of_complete h.requestCtx hpreview, if_neg hnonempty, hcut]
    · cases later with
      | nil =>
        have hend : visit.2.endOfStream = true := hends
        have hbody : bodyOf ([] : List (Visit limits rest)) = [] := rfl
        rw [hbody, List.append_nil]
        rcases Decidable.em (gctx.bodyBuf ++ chunkOf visit = []) with hnone | hsome
        · rw [hnone, if_neg (by simp [WafProxy.bodyPreviewLimit])] at hpreview
          rw [inspections_of_incomplete hpreview, if_pos hnone]
          rfl
        · rw [if_pos (Or.inr ⟨hend, hsome⟩)] at hpreview
          rw [inspections_of_complete h.requestCtx hpreview, if_neg hsome]
      | cons next rest =>
        obtain ⟨hopen, hends⟩ := hends
        rw [if_neg (by rw [hopen]; simpa using hroom)] at hpreview
        obtain ⟨hwaiting, hbuf⟩ := waiting_collected h (Nat.lt_of_not_le hroom)
        rw [inspections_of_incomplete hpreview, ih hwaiting hends, hbuf]

/-- A body that does not bypass the engine is inspected once if it is not empty
and never if it is.  The engine sees its beginning, whatever the chunks are. -/
theorem inspections_eq (hhanded : Handed ctx gctx)
    (hbypass : gctx.accessBypass = false) (hends : EndsOnce visits) :
    proxy.inspections gctx visits =
      if bodyOf visits = [] then []
      else [{ ctx with
        bodyPreview :=
          (bodyOf visits).take
            (min (bodyOf visits).length WafProxy.bodyPreviewLimit) }] := by
  have hall := inspections_of_waiting proxy (hhanded.waiting hbypass) hends
  rw [hhanded.bodyBuf, List.nil_append] at hall
  rw [hall, previewOf, List.take_eq_take_min, Nat.min_comm]

end Inspections

theorem split_word_inspected :
    evilProxy.inspections handedCtx [part (some [101, 118]) false, part (some [105, 108]) true] =
      [{ plainCtx with bodyPreview := [101, 118, 105, 108] }] := by
  have hhanded : Handed plainCtx handedCtx := ⟨rfl, rfl, rfl⟩
  have hends : EndsOnce [part (some [101, 118]) false, part (some [105, 108]) true] := ⟨rfl, rfl⟩
  exact inspections_eq hhanded rfl hends

end Gateway
end PrxWaf
