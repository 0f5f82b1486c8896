import PrxWaf.Cache.Capture
import PrxWaf.Lib.Search

/-!
# Masking of response bodies

The matches of the configured patterns in a response body are replaced by a mask
token.  The body comes in chunks: the end of what has arrived is held back, so
that a match which goes on in the next chunk is still seen as a whole.  After a
ceiling of bytes the rest of the body is forwarded as it is.
-/

namespace PrxWaf
namespace Gateway

open Lib Cache

def maxTailBytes : Nat := 1024

/-- A compiled expression: the start and the end of its matches in a text. -/
structure Regex where
  findIter : Bytes -> List (Nat × Nat)
  bounds : forall s m, m ∈ findIter s -> m.1 ≤ m.2 ∧ m.2 ≤ s.length

/-- The library of expressions: which patterns it accepts, and what it makes of
an alternation of patterns. -/
structure RegexEngine where
  accepts : Bytes -> Bool
  alternation : List Bytes -> Option Regex

def literalRegex (patterns : List Bytes) : Regex :=
  { findIter := Search.findAll patterns
    bounds := fun s _ hm => by
      have hbounds := Search.bounds_of_mem_findFrom hm
      rw [Nat.zero_add] at hbounds
      exact hbounds }

/-- The library on patterns without special characters. -/
def literalEngine : RegexEngine :=
  { accepts := fun _ => true
    alternation := fun patterns => some (literalRegex patterns) }

structure CompiledMask where
  regex : Option Regex
  mask : Bytes
  maxBytes : Nat
  keepTail : Nat

namespace CompiledMask

/-- Patterns that do not compile are dropped. -/
def build (engine : RegexEngine) (patterns : List Bytes) (maskToken : Bytes)
    (maxBytes : Nat) : CompiledMask :=
  let valid := patterns.filter engine.accepts
  { regex := if valid = [] then none else engine.alternation valid
    mask := maskToken
    maxBytes := maxBytes
    keepTail := min ((valid.map List.length).foldl max 0 - 1) maxTailBytes }

def IsNoop (compiled : CompiledMask) : Prop :=
  compiled.regex = none

end CompiledMask

structure BodyMaskState where
  enabled : Bool
  tail : Bytes
  processed : Nat
  ceilingLogged : Bool

/-- The state that `response_filter` leaves for a response to be masked. -/
def BodyMaskState.start : BodyMaskState :=
  { enabled := true
    tail := []
    processed := 0
    ceilingLogged := false }

def slice (buf : Bytes) (first last : Nat) : Bytes :=
  if first ≤ last ∧ last ≤ buf.length then (buf.take last).drop first else []

/-- The loop over the matches: what is put out, and what is held back. -/
def scanMatches (mask buf : Bytes) (split : Nat) : Nat -> Bytes -> List (Nat × Nat) -> Bytes × Bytes
  | cursor, out, [] =>
    let flushTo := max split cursor
    (out ++ slice buf cursor flushTo, buf.drop flushTo)
  | cursor, out, m :: rest =>
    if split < m.2 then
      let newSplit := max m.1 cursor
      (out ++ slice buf cursor newSplit, buf.drop newSplit)
    else
      scanMatches mask buf split m.2 (out ++ slice buf cursor m.1 ++ mask) rest

def scanAndReplace (regex : Regex) (mask buf : Bytes) (keepTail : Nat) : Bytes × Bytes :=
  scanMatches mask buf (buf.length - keepTail) 0 [] (regex.findIter buf)

def BodyMaskState.buffer (state : BodyMaskState) (body : Option Bytes) : Bytes :=
  state.tail ++ body.getD []

/-- The state and the body to forward after one chunk. -/
def applyChunk (state : BodyMaskState) (compiled : CompiledMask)
    (body : Option Bytes) (eos : Bool) : BodyMaskState × Option Bytes :=
  match compiled.regex with
  | none => (state, body)
  | some regex =>
    if state.enabled = false then (state, body)
    else if compiled.maxBytes ≤ state.processed then
      ({ state with ceilingLogged := true }, body)
    else
      let result := scanAndReplace regex compiled.mask (state.buffer body)
        (if eos then 0 else compiled.keepTail)
      ({ state with
          tail := result.2
          processed := state.processed + (body.getD []).length },
        if result.1 = [] then none else some result.1)

def maskStream (compiled : CompiledMask) : BodyMaskState -> List (Option Bytes × Bool) -> Bytes
  | _, [] => []
  | state, (body, eos) :: rest =>
    let result := applyChunk state compiled body eos
    result.2.getD [] ++ maskStream compiled result.1 rest

def forwarded (compiled : CompiledMask) (chunks : List (Option Bytes))
    (last : Option Bytes) : Bytes :=
  maskStream compiled .start (stream chunks last)

section Chunk

variable {compiled : CompiledMask} {state : BodyMaskState}

theorem getD_ite_nil (out : Bytes) :
    (if out = [] then none else some out).getD [] = out := by
  split
  · rename_i hnil
    rw [hnil]
    rfl
  · rfl

theorem applyChunk_of_noop (h : compiled.IsNoop) (body : Option Bytes)
    (eos : Bool) : applyChunk state compiled body eos = (state, body) := by
  unfold applyChunk
  rw [h]

variable {regex : Regex}

theorem applyChunk_over_ceiling
    (hregex : compiled.regex = some regex) (henabled : state.enabled = true)
    (hover : compiled.maxBytes ≤ state.processed) (body : Option Bytes) (eos : Bool) :
    (applyChunk state compiled body eos).1.enabled = true ∧
      (applyChunk state compiled body eos).1.processed = state.processed ∧
      (applyChunk state compiled body eos).1.tail = state.tail ∧
      (applyChunk state compiled body eos).2 = body := by
  unfold applyChunk
  rw [hregex]
  simp only [henabled, Bool.true_eq_false, if_false, if_pos hover, and_self]

theorem applyChunk_below_ceiling
    (hregex : compiled.regex = some regex) (henabled : state.enabled = true)
    (hbelow : state.processed < compiled.maxBytes) (body : Option Bytes) (eos : Bool) :
    (applyChunk state compiled body eos).1.enabled = true ∧
      (applyChunk state compiled body eos).1.processed = state.processed + (body.getD []).length ∧
      (applyChunk state compiled body eos).2.getD [] =
        (scanAndReplace regex compiled.mask (state.buffer body)
          (if eos then 0 else compiled.keepTail)).1 ∧ (applyChunk state compiled body eos).1.tail =
        (scanAndReplace regex compiled.mask (state.buffer body)
          (if eos then 0 else compiled.keepTail)).2 := by
  unfold applyChunk
  rw [hregex]
  simp only [henabled, Bool.true_eq_false, if_false,
    if_neg (Nat.not_le_of_lt hbelow), getD_ite_nil, and_self]

theorem maskStream_last (last : Option Bytes) :
    maskStream compiled state (stream [] last) = (applyChunk state compiled last true).2.getD [] :=
  List.append_nil _

theorem maskStream_stream_cons (chunk : Option Bytes)
    (rest : List (Option Bytes)) (last : Option Bytes) :
    maskStream compiled state (stream (chunk :: rest) last) =
      (applyChunk state compiled chunk false).2.getD [] ++
        maskStream compiled (applyChunk state compiled chunk false).1 (stream rest last) :=
  rfl

theorem maskStream_noop (h : compiled.IsNoop) (chunks : List (Option Bytes)) (last : Option Bytes) :
    maskStream compiled state (stream chunks last) = streamBody chunks last := by
  induction chunks with
  | nil =>
    rw [maskStream_last, applyChunk_of_noop h]
    rfl
  | cons chunk rest ih =>
    rw [maskStream_stream_cons, applyChunk_of_noop h, ih, streamBody_cons]

theorem maskStream_over_ceiling
    (hregex : compiled.regex = some regex) (henabled : state.enabled = true)
    (hover : compiled.maxBytes ≤ state.processed)
    (chunks : List (Option Bytes)) (last : Option Bytes) :
    maskStream compiled state (stream chunks last) = streamBody chunks last := by
  induction chunks generalizing state with
  | nil =>
    rw [maskStream_last, (applyChunk_over_ceiling hregex henabled hover last
        true).right.right.right]
    rfl
  | cons chunk rest ih =>
    rcases applyChunk_over_ceiling hregex henabled hover chunk false with
      ⟨hnext, hprocessed, _, hout⟩
    rw [maskStream_stream_cons, hout, ih hnext (hprocessed ▸ hover), streamBody_cons]

end Chunk

/-!
## Bodies of which nothing is replaced or lost

A buffer in which no match is replaced is cut in two: its front is put out, its end
is held back.  What an expression finds in a buffer need not be found in the whole
body, where more stands around it.  So the buffers are followed along the calls:
each is what was held back and the next chunk.
-/

/-- Where a buffer is cut if no match in it is replaced: before the bytes that are
to be held back, or before a match that reaches into them. -/
def Regex.cutAt (regex : Regex) (keepTail : Nat) (buf : Bytes) : Option Nat :=
  match regex.findIter buf with
  | [] => some (buf.length - keepTail)
  | m :: _ => if buf.length - keepTail < m.2 then some m.1 else none

/-- As long as the ceiling is ahead no match is replaced, and nothing is held back
when it has been reached. -/
def Kept (regex : Regex) (keepTail maxBytes : Nat) (last : Option Bytes) :
    Bytes -> Nat -> List (Option Bytes) -> Prop
  | held, seen, [] =>
    if seen < maxBytes then regex.findIter (held ++ last.getD []) = [] else held = []
  | held, seen, chunk :: rest =>
    if seen < maxBytes then
      exists cut, regex.cutAt keepTail (held ++ chunk.getD []) = some cut ∧
        Kept regex keepTail maxBytes last ((held ++ chunk.getD []).drop cut)
          (seen + (chunk.getD []).length) rest
    else held = []

variable {regex : Regex} {buf : Bytes} {keepTail cut : Nat}

theorem cutAt_of_clean (h : regex.findIter buf = []) (keepTail : Nat) :
    regex.cutAt keepTail buf = some (buf.length - keepTail) := by
  unfold Regex.cutAt
  rw [h]

theorem scanAndReplace_of_cut (h : regex.cutAt keepTail buf = some cut) (mask : Bytes) :
    scanAndReplace regex mask buf keepTail = (buf.take cut, buf.drop cut) := by
  unfold Regex.cutAt at h
  unfold scanAndReplace
  cases hfound : regex.findIter buf with
  | nil =>
    rw [hfound] at h
    cases h
    simp only [scanMatches, Nat.max_zero, slice, Nat.zero_le, Nat.sub_le, and_self, if_true,
      List.drop_zero, List.nil_append]
  | cons m rest =>
    rw [hfound] at h
    dsimp only at h
    split at h
    · rename_i hreaches
      cases h
      have hbounds := regex.bounds buf m (by rw [hfound]; exact List.mem_cons_self)
      simp only [scanMatches, if_pos hreaches, Nat.max_zero, slice, Nat.zero_le, true_and,
        hbounds.1.trans hbounds.2, if_true, List.drop_zero, List.nil_append]
    · cases h

theorem length_scanMatches (mask buf : Bytes) (split cursor : Nat) (out : Bytes)
    (found : List (Nat × Nat)) :
    out.length ≤ (scanMatches mask buf split cursor out found).1.length := by
  induction found generalizing cursor out with
  | nil =>
    rw [scanMatches, List.length_append]
    exact Nat.le_add_right _ _
  | cons m rest ih =>
    rw [scanMatches]
    split
    · rw [List.length_append]
      exact Nat.le_add_right _ _
    · refine Nat.le_trans ?_ (ih _ _)
      rw [List.length_append, List.length_append, Nat.add_assoc]
      exact Nat.le_add_right _ _

/-- A match that is replaced leaves the whole mask. -/
theorem length_mask_le_of_replaced (h : regex.cutAt keepTail buf = none) (mask : Bytes) :
    mask.length ≤ (scanAndReplace regex mask buf keepTail).1.length := by
  unfold Regex.cutAt at h
  unfold scanAndReplace
  cases hfound : regex.findIter buf with
  | nil =>
    rw [hfound] at h
    cases h
  | cons m rest =>
    rw [hfound] at h
    dsimp only at h
    split at h
    · cases h
    · rename_i hends
      rw [scanMatches, if_neg hends]
      refine Nat.le_trans ?_ (length_scanMatches mask buf _ _ _ rest)
      rw [List.length_append]
      exact Nat.le_add_left _ _

theorem cutAt_zero_eq_none (h : regex.findIter buf ≠ []) : regex.cutAt 0 buf = none := by
  unfold Regex.cutAt
  cases hfound : regex.findIter buf with
  | nil => exact absurd hfound h
  | cons m rest =>
    have hbounds := regex.bounds buf m (by rw [hfound]; exact List.mem_cons_self)
    exact if_neg (Nat.not_lt_of_le hbounds.2)

section Runs

variable {compiled : CompiledMask} {state : BodyMaskState}
  {chunks : List (Option Bytes)} {last : Option Bytes}

def BodyMaskState.afterCut (state : BodyMaskState) (body : Option Bytes) (cut : Nat) :
    BodyMaskState :=
  { state with
    tail := (state.buffer body).drop cut
    processed := state.processed + (body.getD []).length }

theorem BodyMaskState.tail_afterCut (body : Option Bytes) (cut : Nat) :
    (state.afterCut body cut).tail = (state.buffer body).drop cut :=
  rfl

theorem applyChunk_of_cut (hregex : compiled.regex = some regex) (henabled : state.enabled = true)
    (hbelow : state.processed < compiled.maxBytes) {body : Option Bytes} (eos : Bool)
    (hcut : regex.cutAt (if eos then 0 else compiled.keepTail) (state.buffer body) = some cut) :
    applyChunk state compiled body eos =
      (state.afterCut body cut, if (state.buffer body).take cut = [] then none
        else some ((state.buffer body).take cut)) := by
  unfold applyChunk
  rw [hregex]
  dsimp only
  rw [if_neg (by rw [henabled]; exact Bool.noConfusion), if_neg (Nat.not_le_of_lt hbelow),
    scanAndReplace_of_cut hcut]
  rfl

theorem length_mask_le_applyChunk (hregex : compiled.regex = some regex)
    (henabled : state.enabled = true) (hbelow : state.processed < compiled.maxBytes)
    (body : Option Bytes) (eos : Bool)
    (hcut : regex.cutAt (if eos then 0 else compiled.keepTail) (state.buffer body) = none) :
    compiled.mask.length ≤ ((applyChunk state compiled body eos).2.getD []).length := by
  rw [(applyChunk_below_ceiling hregex henabled hbelow body eos).2.2.1]
  exact length_mask_le_of_replaced hcut compiled.mask

theorem maskStream_of_cut (hregex : compiled.regex = some regex) (henabled : state.enabled = true)
    (hbelow : state.processed < compiled.maxBytes) {chunk : Option Bytes}
    (hcut : regex.cutAt compiled.keepTail (state.buffer chunk) = some cut)
    (rest : List (Option Bytes)) (last : Option Bytes) :
    maskStream compiled state (stream (chunk :: rest) last) =
      (state.buffer chunk).take cut ++
        maskStream compiled (state.afterCut chunk cut) (stream rest last) := by
  rw [maskStream_stream_cons, applyChunk_of_cut hregex henabled hbelow false hcut, getD_ite_nil]

theorem append_streamBody_of_cut (chunk : Option Bytes) (rest : List (Option Bytes)) :
    state.tail ++ streamBody (chunk :: rest) last =
      (state.buffer chunk).take cut ++
        ((state.afterCut chunk cut).tail ++ streamBody rest last) := by
  rw [BodyMaskState.tail_afterCut, streamBody_cons, ← List.append_assoc, ← List.append_assoc,
    List.take_append_drop, BodyMaskState.buffer]

theorem maskStream_of_kept (hregex : compiled.regex = some regex) (henabled : state.enabled = true)
    (h : Kept regex compiled.keepTail compiled.maxBytes last state.tail state.processed chunks) :
    maskStream compiled state (stream chunks last) = state.tail ++ streamBody chunks last := by
  induction chunks generalizing state with
  | nil =>
    unfold Kept at h
    split at h
    · rename_i hbelow
      have hcut : regex.cutAt 0 (state.buffer last) = _ := cutAt_of_clean h 0
      rw [maskStream_last, applyChunk_of_cut hregex henabled hbelow true hcut, getD_ite_nil,
        Nat.sub_zero]
      exact List.take_length
    · rename_i hover
      rw [maskStream_over_ceiling hregex henabled (Nat.le_of_not_lt hover), h, List.nil_append]
  | cons chunk rest ih =>
    unfold Kept at h
    split at h
    · rename_i hbelow
      obtain ⟨cut, hcut, hrest⟩ := h
      rw [maskStream_of_cut hregex henabled hbelow hcut, append_streamBody_of_cut,
        @ih (state.afterCut chunk cut) henabled hrest]
    · rename_i hover
      rw [maskStream_over_ceiling hregex henabled (Nat.le_of_not_lt hover), h, List.nil_append]

theorem tail_eq_nil_of_over (hregex : compiled.regex = some regex) (henabled : state.enabled = true)
    (hover : ¬ state.processed < compiled.maxBytes)
    (h : maskStream compiled state (stream chunks last) = state.tail ++ streamBody chunks last) :
    state.tail = [] := by
  rw [maskStream_over_ceiling hregex henabled (Nat.le_of_not_lt hover)] at h
  exact List.self_eq_append_left.mp h

/-- With a mask that is longer than all that is forwarded, a match that is replaced shows. -/
theorem exists_cut_of_maskStream (hregex : compiled.regex = some regex)
    (henabled : state.enabled = true) (hbelow : state.processed < compiled.maxBytes)
    {body : Option Bytes} {eos : Bool} {calls : List (Option Bytes × Bool)} {out : Bytes}
    (h : forall mask,
      maskStream { compiled with mask := mask } state ((body, eos) :: calls) = out) :
    exists cut,
      regex.cutAt (if eos then 0 else compiled.keepTail) (state.buffer body) = some cut := by
  refine Option.ne_none_iff_exists'.mp ?_
  intro hnone
  let longMask : Bytes := List.replicate out.length.succ 0
  have hmasked : ({ compiled with mask := longMask } : CompiledMask).regex = some regex := hregex
  have hlength := length_mask_le_applyChunk hmasked henabled hbelow body eos hnone
  have hall := congrArg List.length (h longMask)
  rw [maskStream, List.length_append] at hall
  rw [List.length_replicate] at hlength
  lia

theorem kept_of_maskStream (hregex : compiled.regex = some regex) (henabled : state.enabled = true)
    (h : forall mask, maskStream { compiled with mask := mask } state (stream chunks last) =
      state.tail ++ streamBody chunks last) :
    Kept regex compiled.keepTail compiled.maxBytes last state.tail state.processed chunks := by
  induction chunks generalizing state with
  | nil =>
    unfold Kept
    split
    · rename_i hbelow
      by_contra hfound
      obtain ⟨cut, hcut⟩ := exists_cut_of_maskStream hregex henabled hbelow h
      cases (cutAt_zero_eq_none hfound).symm.trans hcut
    · rename_i hover
      exact tail_eq_nil_of_over hregex henabled hover (h compiled.mask)
  | cons chunk rest ih =>
    unfold Kept
    split
    · rename_i hbelow
      obtain ⟨cut, hcut⟩ := exists_cut_of_maskStream hregex henabled hbelow h
      refine ⟨cut, hcut, @ih (state.afterCut chunk cut) henabled ?_⟩
      intro mask
      have hmasked : ({ compiled with mask := mask } : CompiledMask).regex = some regex := hregex
      have hall := h mask
      rw [maskStream_of_cut hmasked henabled hbelow hcut, append_streamBody_of_cut] at hall
      exact List.append_cancel_left hall
    · rename_i hover
      exact tail_eq_nil_of_over hregex henabled hover (h compiled.mask)

end Runs

/-!
An expression that looks at nothing but the matched text finds no match in a part
of a text in which it finds none.  For such expressions it is enough to look at
the whole body.
-/

def Regex.SeesParts (regex : Regex) : Prop :=
  forall front part back, regex.findIter (front ++ part ++ back) = [] -> regex.findIter part = []

section Parts

variable (hparts : regex.SeesParts) {front held : Bytes} {seen maxBytes : Nat}
  {chunks : List (Option Bytes)} {last : Option Bytes}
include hparts

theorem clean_of_body {chunk : Option Bytes}
    (hbody : regex.findIter (front ++ (held ++ streamBody (chunk :: chunks) last)) = []) :
    regex.findIter (held ++ chunk.getD []) = [] := by
  apply hparts front _ (streamBody chunks last)
  rw [streamBody_cons] at hbody
  rw [List.append_assoc, List.append_assoc]
  exact hbody

omit hparts in
theorem clean_after_cut {chunk : Option Bytes} (cut : Nat)
    (hbody : regex.findIter (front ++ (held ++ streamBody (chunk :: chunks) last)) = []) :
    regex.findIter (front ++ (held ++ chunk.getD []).take cut ++
      ((held ++ chunk.getD []).drop cut ++ streamBody chunks last)) = [] := by
  rw [List.append_assoc, ← List.append_assoc (List.take _ _), List.take_append_drop,
    List.append_assoc, ← streamBody_cons]
  exact hbody

theorem kept_of_seesParts
    (hbody : regex.findIter (front ++ (held ++ streamBody chunks last)) = [])
    (h : held = [] ∧ (keepTail = 0 ∨ maxBytes ≤ seen) ∨
      seen + (chunkBytes chunks).length < maxBytes) :
    Kept regex keepTail maxBytes last held seen chunks := by
  induction chunks generalizing front held seen with
  | nil =>
    unfold Kept
    split
    · apply hparts front _ []
      rw [List.append_nil]
      exact hbody
    · rename_i hover
      rcases h with hempty | hbelow
      · exact hempty.1
      · exact absurd hbelow hover
  | cons chunk rest ih =>
    rw [chunkBytes_cons, List.length_append] at h
    unfold Kept
    split
    · rename_i hbelow
      refine ⟨_, cutAt_of_clean (clean_of_body hparts hbody) keepTail,
        ih (clean_after_cut _ hbody) ?_⟩
      rcases h with ⟨hempty, hzero | hover⟩ | hnext
      · refine Or.inl ⟨?_, Or.inl hzero⟩
        rw [hzero, Nat.sub_zero, List.drop_length]
      · exact absurd hbelow (Nat.not_lt_of_le hover)
      · exact Or.inr (by lia)
    · rename_i hover
      rcases h with hempty | hbelow
      · exact hempty.1
      · lia

theorem maskStream_length_lt {compiled : CompiledMask} {state : BodyMaskState}
    (hregex : compiled.regex = some regex) (henabled : state.enabled = true)
    (hkeep : 0 < compiled.keepTail)
    (hbody : regex.findIter (front ++ (state.tail ++ streamBody chunks last)) = [])
    (hbelow : state.processed < compiled.maxBytes)
    (hreached : compiled.maxBytes ≤ state.processed + (chunkBytes chunks).length) :
    (maskStream compiled state (stream chunks last)).length <
      state.tail.length + (streamBody chunks last).length := by
  induction chunks generalizing state front with
  | nil => exact absurd hreached (Nat.not_le_of_lt hbelow)
  | cons chunk rest ih =>
    rw [chunkBytes_cons, List.length_append] at hreached
    have hcut : regex.cutAt compiled.keepTail (state.buffer chunk) =
        some ((state.buffer chunk).length - compiled.keepTail) :=
      cutAt_of_clean (clean_of_body hparts hbody) compiled.keepTail
    have hnext := clean_after_cut ((state.buffer chunk).length - compiled.keepTail) hbody
    have hbuf : (state.buffer chunk).length =
        state.tail.length + (chunk.getD []).length := List.length_append
    have hbodyLength : (streamBody (chunk :: rest) last).length =
        (chunk.getD []).length + (streamBody rest last).length := by
      rw [streamBody_cons, List.length_append]
    rw [maskStream_of_cut hregex henabled hbelow hcut, hbodyLength, List.length_append,
      List.length_take]
    rcases Nat.lt_or_ge (state.processed + (chunk.getD []).length)
      compiled.maxBytes with hstill | hover
    · have hrest := @ih _ (state.afterCut chunk ((state.buffer chunk).length - compiled.keepTail))
        henabled hnext hstill (by
          rw [BodyMaskState.afterCut, Nat.add_assoc]
          exact hreached)
      rw [BodyMaskState.tail_afterCut, List.length_drop] at hrest
      lia
    · rw [maskStream_over_ceiling hregex (by exact henabled) hover]
      lia

end Parts

theorem seesParts_literal {patterns : List Bytes} (hne : [] ∉ patterns) :
    (literalRegex patterns).SeesParts := by
  intro front part back hwhole
  have hnone := (Search.findFrom_eq_nil_iff hne).mp hwhole
  refine (Search.findFrom_eq_nil_iff hne).mpr ?_
  intro p hp hin
  exact hnone p hp (hin.trans ⟨front, back, rfl⟩)

def ascii (s : String) : Bytes :=
  s.toList.map (fun c => UInt8.ofNat c.toNat)

/-- With every mask token everything of a body is forwarded exactly if no match is
replaced in a buffer and nothing is held back at the ceiling.  Where an expression
that looks at the matched text only finds nothing in the body, this says that the
ceiling is not reached before the last call, or nothing is ever held back. -/
theorem forwarded_eq_body_iff (compiled : CompiledMask)
    (chunks : List (Option Bytes)) (last : Option Bytes)
    (hnone : forall regex, compiled.regex = some regex ->
      regex.findIter (streamBody chunks last) = []) :
    ((forall mask, forwarded { compiled with mask := mask } chunks last =
        streamBody chunks last) <->
      compiled.IsNoop ∨ exists regex, compiled.regex = some regex ∧
        Kept regex compiled.keepTail compiled.maxBytes last [] 0 chunks) ∧
    ((forall regex, compiled.regex = some regex -> regex.SeesParts) ->
      (forwarded compiled chunks last = streamBody chunks last <->
        compiled.IsNoop ∨ compiled.keepTail = 0 ∨ compiled.maxBytes = 0 ∨
          (chunkBytes chunks).length < compiled.maxBytes)) := by
  unfold forwarded
  rcases Option.eq_none_or_eq_some compiled.regex with hnoop | ⟨regex, hregex⟩
  · refine ⟨iff_of_true ?_ (Or.inl hnoop), fun _ => iff_of_true ?_ (Or.inl hnoop)⟩
    · intro mask
      have hmasked : ({ compiled with mask := mask } : CompiledMask).IsNoop := hnoop
      exact maskStream_noop hmasked chunks last
    · exact maskStream_noop hnoop chunks last
  · have hsome : ¬ compiled.IsNoop := by
      rw [CompiledMask.IsNoop, hregex]
      exact nofun
    have henabled : BodyMaskState.start.enabled = true := rfl
    refine ⟨?_, fun hsees => ?_⟩
    · rw [or_iff_right hsome]
      constructor
      · intro hall
        exact ⟨regex, hregex, kept_of_maskStream hregex henabled hall⟩
      · rintro ⟨other, hother, hkept⟩ mask
        have hmasked : ({ compiled with mask := mask } : CompiledMask).regex = some other := hother
        exact maskStream_of_kept hmasked henabled hkept
    · have hparts := hsees regex hregex
      have hbody : regex.findIter ([] ++ (BodyMaskState.start.tail ++ streamBody chunks last)) =
          [] := hnone regex hregex
      rw [or_iff_right hsome]
      constructor
      · intro heq
        rcases Nat.eq_zero_or_pos compiled.keepTail with hkeep | hkeep
        · exact Or.inl hkeep
        · rcases Nat.eq_zero_or_pos compiled.maxBytes with hzero | hpos
          · exact Or.inr (Or.inl hzero)
          · refine Or.inr (Or.inr (Nat.lt_of_not_le ?_))
            intro hreached
            have hlt := maskStream_length_lt hparts hregex henabled hkeep hbody hpos
              (by rw [BodyMaskState.start, Nat.zero_add]; exact hreached)
            rw [heq, BodyMaskState.start, List.length_nil, Nat.zero_add] at hlt
            exact Nat.lt_irrefl _ hlt
      · intro hcases
        refine maskStream_of_kept hregex henabled (kept_of_seesParts hparts hbody ?_)
        rcases hcases with hkeep | hzero | hbelow
        · exact Or.inl ⟨rfl, Or.inl hkeep⟩
        · exact Or.inl ⟨rfl, Or.inr (by rw [hzero]; exact Nat.zero_le _)⟩
        · exact Or.inr (by rw [BodyMaskState.start, Nat.zero_add]; exact hbelow)

def smallMask : CompiledMask :=
  .build literalEngine [ascii "abc"] (ascii "[redacted]") 4

theorem forwarded_short_body :
    forwarded smallMask [some (ascii "xxx")] (some (ascii "yy")) = ascii "xxxyy" := by
  have hregex : smallMask.regex = some (literalRegex [ascii "abc"]) := rfl
  refine ((forwarded_eq_body_iff smallMask [some (ascii "xxx")] (some (ascii "yy")) ?_).2 ?_).mpr
    (Or.inr (Or.inr (Or.inr (by decide))))
  · intro regex hsome
    cases hregex.symm.trans hsome
    decide
  · intro regex hsome
    cases hregex.symm.trans hsome
    exact seesParts_literal (by decide)

/-- The two bytes that were held back at the ceiling are lost. -/
theorem held_bytes_lost_at_ceiling :
    Search.findAll [ascii "abc"] (ascii "xxxxyy") = [] ∧
      forwarded smallMask [some (ascii "xxxx")] (some (ascii "yy")) = ascii "xxyy" := by
  decide

end Gateway
end PrxWaf
