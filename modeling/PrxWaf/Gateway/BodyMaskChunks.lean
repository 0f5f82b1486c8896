import PrxWaf.Gateway.BodyMask

/-!
# Masking and the split into chunks

For patterns without special characters the result of masking a body should not
depend on how the body is split.  What has been put out, followed by the
replacement of what is held back and what is still to come, is the replacement
of the whole body; this is kept by every chunk, unless a pattern stands inside
another one and is found before the longer one has arrived.
-/

namespace PrxWaf
namespace Gateway

open Lib Cache

theorem scanMatches_tail_length_le (mask buf : Bytes) (split cursor : Nat)
    (out : Bytes) (found : List (Nat × Nat)) :
    (scanMatches mask buf split cursor out found).2.length ≤ buf.length := by
  induction found generalizing cursor out with
  | nil =>
    rw [scanMatches, List.length_drop]
    exact Nat.sub_le _ _
  | cons m rest ih =>
    rw [scanMatches]
    split
    · rw [List.length_drop]
      exact Nat.sub_le _ _
    · exact ih _ _

theorem scanAndReplace_tail_length_le (regex : Regex) (mask buf : Bytes) (keepTail : Nat) :
    (scanAndReplace regex mask buf keepTail).2.length ≤ buf.length :=
  scanMatches_tail_length_le mask buf _ 0 [] _

variable {patterns : List Bytes}

theorem slice_eq_take_drop {buf : Bytes} {first n : Nat} (h : first + n ≤ buf.length) :
    slice buf first (first + n) = (buf.drop first).take n := by
  rw [slice, if_pos ⟨Nat.le_add_right first n, h⟩, List.drop_take, Nat.add_sub_cancel_left]

section Buffer

variable (hne : [] ∉ patterns)
variable {buf later : Bytes} {split : Nat}

/-- What follows does not change the matches before the split. -/
def DecidedBefore (patterns : List Bytes) (buf later : Bytes) (split : Nat) : Prop :=
  forall j, j < split ->
    Search.headMatch patterns (buf.drop j ++ later) = Search.headMatch patterns (buf.drop j)

/-- No match that needs what follows begins before a match in the buffer. -/
def NoneBeforeMatch (patterns : List Bytes) (buf later : Bytes) : Prop :=
  forall j a q, j < a ->
    Search.headMatch patterns (buf.drop j) = none ->
    Search.headMatch patterns (buf.drop a) = some q ->
    Search.headMatch patterns (buf.drop j ++ later) = none

variable (mask : Bytes) {q s out : Bytes} {cursor keepTail : Nat} {found : List (Nat × Nat)}

theorem match_end_le {a : Nat} (h : Search.headMatch patterns (buf.drop a) = some q) (hq : q ≠ []) :
    a + q.length ≤ buf.length := by
  have hle := (Search.headMatch_some h).right.length_le
  have hpos := List.length_pos_iff.mpr hq
  rw [List.length_drop] at hle
  lia

include hne in
theorem ne_nil_of_headMatch (h : Search.headMatch patterns s = some q) : q ≠ [] :=
  fun hnil => hne (hnil ▸ (Search.headMatch_some h).left)

theorem replaceAll_drop_gap {n : Nat} (hle : cursor + n ≤ buf.length)
    (hnone : forall j, j < n -> Search.headMatch patterns (buf.drop (cursor + j) ++ later) = none) :
    Search.replaceAll patterns mask (buf.drop cursor ++ later) =
      (buf.drop cursor).take n ++ Search.replaceAll patterns mask
        (buf.drop (cursor + n) ++ later) := by
  rw [Search.replaceAll_gap n later, List.drop_drop]
  · rw [List.length_drop]
    lia
  · intro j hj
    rw [List.drop_drop]
    exact hnone j hj

include hne

theorem scanMatches_replaceAll
    (hfound : found = Search.findFrom patterns 0 cursor (buf.drop cursor))
    (hsplit : split ≤ buf.length) (hcursor : cursor ≤ split)
    (hdecided : DecidedBefore patterns buf later split)
    (hbefore : NoneBeforeMatch patterns buf later) :
    (scanMatches mask buf split cursor out found).1 ++ Search.replaceAll patterns mask
          ((scanMatches mask buf split cursor out found).2 ++ later) =
      out ++ Search.replaceAll patterns mask (buf.drop cursor ++ later) := by
  induction found generalizing cursor out with
  | nil =>
    have hend : cursor + (split - cursor) = split := by lia
    have hgap := replaceAll_drop_gap mask (hend.le.trans hsplit) (by
      intro j hj
      rw [hdecided _ (by lia), ← List.drop_drop]
      exact Search.headMatch_drop_of_findFrom_nil hne hfound.symm j)
    have hslice : slice buf cursor split = (buf.drop cursor).take (split - cursor) := by
      rw [← hend, slice_eq_take_drop (by lia), hend]
    rw [scanMatches, Nat.max_eq_left hcursor, hslice, hgap, hend, List.append_assoc]
  | cons m rest ih =>
    rcases Search.findFrom_eq_cons hne hfound.symm with ⟨n, q, hm, hmatch, hnone, hrest⟩
    rw [List.drop_drop] at hmatch hrest
    have hend := match_end_le hmatch (ne_nil_of_headMatch hne hmatch)
    have hgap := replaceAll_drop_gap mask (show cursor + n ≤ buf.length by lia) (by
        intro j hj
        have hhere := hnone j hj
        rw [List.drop_drop] at hhere
        exact hbefore _ (cursor + n) q (by lia) hhere hmatch)
    have hslice : slice buf cursor (cursor + n) =
        (buf.drop cursor).take n := slice_eq_take_drop (by lia)
    rw [scanMatches, hm]
    simp only
    split
    · rw [Nat.max_eq_left (Nat.le_add_right cursor n), hslice, hgap, List.append_assoc]
    · rename_i hnot
      have hle : cursor + n + q.length ≤ split := Nat.le_of_not_lt hnot
      have hwhole : Search.headMatch patterns (buf.drop (cursor + n) ++ later) = some q := by
        have hpos := List.length_pos_iff.mpr (ne_nil_of_headMatch hne hmatch)
        rw [hdecided _ (by lia)]
        exact hmatch
      rw [ih (by rw [hrest, Nat.add_assoc]) hle, hslice, hgap, Search.replaceAll_of_some hne hwhole,
        List.drop_append_of_le_length (by rw [List.length_drop]; lia), List.drop_drop]
      simp only [List.append_assoc]

theorem scanMatches_tail_nil (hfound : found = Search.findFrom patterns 0 cursor (buf.drop cursor))
    (hcursor : cursor ≤ buf.length) :
    (scanMatches mask buf buf.length cursor out found).2 = [] := by
  induction found generalizing cursor out with
  | nil => rw [scanMatches, Nat.max_eq_left hcursor, List.drop_length]
  | cons m rest ih =>
    rcases Search.findFrom_eq_cons hne hfound.symm with ⟨n, q, hm, hmatch, _, hrest⟩
    rw [List.drop_drop] at hmatch hrest
    have hend := match_end_le hmatch (ne_nil_of_headMatch hne hmatch)
    rw [scanMatches, hm]
    simp only
    rw [if_neg (Nat.not_lt_of_le hend)]
    exact ih (by rw [hrest, Nat.add_assoc]) hend

theorem scanAndReplace_replaceAll
    (hdecided : DecidedBefore patterns buf later (buf.length - keepTail))
    (hbefore : NoneBeforeMatch patterns buf later) :
    (scanAndReplace (literalRegex patterns) mask buf keepTail).1 ++
        Search.replaceAll patterns mask
          ((scanAndReplace (literalRegex patterns) mask buf keepTail).2 ++ later) =
      Search.replaceAll patterns mask (buf ++ later) :=
  scanMatches_replaceAll hne mask rfl (Nat.sub_le _ _) (Nat.zero_le _) hdecided hbefore

theorem scanAndReplace_last :
    scanAndReplace (literalRegex patterns) mask buf 0 =
      (Search.replaceAll patterns mask buf, []) := by
  have htail : (scanAndReplace (literalRegex patterns) mask buf 0).2 = [] :=
    scanMatches_tail_nil hne mask rfl (Nat.zero_le _)
  have hdecided : DecidedBefore patterns buf [] (buf.length - 0) := by
    intro j _
    rw [List.append_nil]
  have hbefore : NoneBeforeMatch patterns buf [] := by
    intro j a q _ hnone _
    rw [List.append_nil]
    exact hnone
  have hall := scanAndReplace_replaceAll hne mask hdecided hbefore
  rw [htail, List.append_nil, List.append_nil] at hall
  rw [← hall, Prod.ext_iff]
  exact ⟨(List.append_nil _).symm, htail⟩

theorem scanAndReplace_short (hshort : buf.length ≤ keepTail)
    (hfirst : Search.headMatch patterns buf = none) {q : Bytes}
    (hq : q ∈ patterns) (hin : q <:+: buf) :
    exists n r, 0 < n ∧ n ≤ buf.length ∧ Search.headMatch patterns (buf.drop n) = some r ∧
      scanAndReplace (literalRegex patterns) mask buf keepTail = (buf.take n, buf.drop n) := by
  cases hfound : Search.findFrom patterns 0 0 buf with
  | nil => exact absurd hin ((Search.findFrom_eq_nil_iff hne).mp hfound q hq)
  | cons m rest =>
    rcases Search.findFrom_eq_cons hne hfound with ⟨n, r, hm, hmatch, _, _⟩
    have hend := match_end_le hmatch (ne_nil_of_headMatch hne hmatch)
    have hpos : 0 < n := by
      apply Nat.pos_of_ne_zero
      intro hzero
      rw [hzero, List.drop_zero, hfirst] at hmatch
      cases hmatch
    refine ⟨n, r, hpos, by lia, hmatch, ?_⟩
    apply scanAndReplace_of_cut
    have hall : (literalRegex patterns).findIter buf = m :: rest := hfound
    unfold Regex.cutAt
    rw [hall, hm, Nat.sub_eq_zero_of_le hshort, Nat.zero_add]
    exact if_pos (Nat.lt_of_lt_of_le hpos (Nat.le_add_right n _))

theorem mask_length_le {r : Bytes} (h : Search.headMatch patterns s = some r) (later : Bytes) :
    mask.length ≤ (Search.replaceAll patterns mask (s ++ later)).length := by
  cases hhead : Search.headMatch patterns (s ++ later) with
  | none =>
    rcases Search.headMatch_some h with ⟨hr, hpre⟩
    exact absurd (hpre.trans (List.prefix_append _ later))
      (Search.headMatch_eq_none_iff.mp hhead r hr)
  | some r' =>
    rw [Search.replaceAll_of_some hne hhead, List.length_append]
    exact Nat.le_add_right _ _

theorem replaceAll_shortest {p : Bytes} (hp : p ∈ patterns)
    (hshortest : forall r, r ∈ patterns -> r <+: p -> r = p) :
    Search.replaceAll patterns mask p = mask := by
  cases hhead : Search.headMatch patterns p with
  | none =>
    exact absurd (List.prefix_refl p) (Search.headMatch_eq_none_iff.mp hhead p hp)
  | some r =>
    rcases Search.headMatch_some hhead with ⟨hr, hpre⟩
    rw [Search.replaceAll_of_some hne hhead, hshortest r hr hpre, List.drop_length]
    exact List.append_nil _

end Buffer

/-!
## Patterns inside patterns

A pattern that may be matched whole, and that holds another pattern behind its
first and before its last byte, can be cut so that the inner one is found first.
-/

def Nested (patterns : List Bytes) (maxBytes : Nat) : Prop :=
  exists p, p ∈ patterns ∧ p.length ≤ maxBytes ∧
    (forall r, r ∈ patterns -> r <+: p -> r = p) ∧
    exists front q back, q ∈ patterns ∧ front ≠ [] ∧ back ≠ [] ∧ p = front ++ q ++ back

theorem exists_shortest {s q : Bytes} (hq : q ∈ patterns) (hpre : q <+: s) :
    exists p, p ∈ patterns ∧ p <+: s ∧ forall r, r ∈ patterns -> r <+: p -> r = p := by
  induction hlen : q.length using Nat.strongRecOn generalizing q with
  | _ n ih =>
    rcases Classical.em (exists r, r ∈ patterns ∧ r <+: q ∧ r ≠ q) with ⟨r, hr, hrq, hne⟩ | hnone
    · have hshort : r.length < q.length := by
        apply Nat.lt_of_le_of_ne hrq.length_le
        intro heq
        exact hne (hrq.eq_of_length heq)
      exact ih r.length (hlen ▸ hshort) hr (hrq.trans hpre) rfl
    · refine ⟨q, hq, hpre, ?_⟩
      intro r hr hrq
      apply Classical.byContradiction
      intro hne
      exact hnone ⟨r, hr, hrq, hne⟩

theorem noneBeforeMatch_of_not_nested {maxBytes : Nat}
    (h : ¬ Nested patterns maxBytes) {buf later : Bytes} (hlen : (buf ++ later).length ≤ maxBytes) :
    NoneBeforeMatch patterns buf later := by
  intro j a q hja hnone hmatch
  rw [Search.headMatch_eq_none_iff] at hnone ⊢
  intro r hr hpre
  rcases exists_shortest hr hpre with ⟨p, hp, hfront, hshortest⟩
  have hlonger : (buf.drop j).length < p.length := by
    apply Nat.lt_of_not_le
    intro hle
    exact hnone p hp (List.prefix_of_prefix_length_le hfront (List.prefix_append _ later) hle)
  rcases List.prefix_of_prefix_length_le (List.prefix_append _ later) hfront
    (Nat.le_of_lt hlonger) with ⟨missing, hmissing⟩
  rcases Search.headMatch_some hmatch with ⟨hq, hinner⟩
  rcases hinner with ⟨behind, hbehind⟩
  have hcut : buf.drop j = (buf.drop j).take (a - j) ++ q ++ behind := by
    rw [List.append_assoc, hbehind, show a = j + (a - j) by lia,
      ← List.drop_drop, show j + (a - j) - j = a - j by lia, List.take_append_drop]
  have hlength := hfront.length_le
  rw [List.length_append, List.length_drop] at hlength
  rw [List.length_append] at hlen
  refine h ⟨p, hp, by lia, hshortest, (buf.drop j).take (a - j), q,
    behind ++ missing, hq, ?_, ?_, ?_⟩
  · intro hnil
    rw [List.take_eq_nil_iff] at hnil
    rcases hnil with hzero | hempty
    · lia
    · apply hnone q hq
      rw [hempty, List.take_nil, List.nil_append] at hcut
      rw [hempty]
      exact ⟨behind, hcut.symm⟩
  · intro hnil
    rw [(List.append_eq_nil_iff.mp hnil).right, List.append_nil] at hmissing
    rw [hmissing] at hlonger
    exact Nat.lt_irrefl _ hlonger
  · rw [← hmissing]
    conv_lhs => rw [hcut]
    simp only [List.append_assoc]

def maskState (compiled : CompiledMask) : BodyMaskState -> List (Option Bytes) -> BodyMaskState
  | state, [] => state
  | state, chunk :: rest =>
    maskState compiled (applyChunk state compiled chunk false).1 rest

def maskOutput (compiled : CompiledMask) : BodyMaskState -> List (Option Bytes) -> Bytes
  | _, [] => []
  | state, chunk :: rest =>
    (applyChunk state compiled chunk false).2.getD [] ++
      maskOutput compiled (applyChunk state compiled chunk false).1 rest

theorem maskStream_stream (compiled : CompiledMask) (state : BodyMaskState)
    (chunks : List (Option Bytes)) (last : Option Bytes) :
    maskStream compiled state (stream chunks last) = maskOutput compiled state chunks ++
        (applyChunk (maskState compiled state chunks) compiled last true).2.getD [] := by
  induction chunks generalizing state with
  | nil => exact maskStream_last last
  | cons chunk rest ih =>
    rw [maskStream_stream_cons, ih, maskOutput, maskState, List.append_assoc]

def heldBack (compiled : CompiledMask) (chunks : List (Option Bytes)) : Bytes :=
  (maskState compiled .start chunks).tail

/-- The ceiling is still ahead at the last call, or nothing that would be
forwarded is held back. -/
def LosesNothing (compiled : CompiledMask) (patterns : List Bytes)
    (chunks : List (Option Bytes)) : Prop :=
  (chunkBytes chunks).length < compiled.maxBytes ∨
    Search.replaceAll patterns compiled.mask (heldBack compiled chunks) = []

section Chunks

variable {compiled : CompiledMask}

/-- The mask searches for the patterns, and holds back enough for each. -/
structure Masks (compiled : CompiledMask) (patterns : List Bytes) : Prop where
  nonempty : [] ∉ patterns
  regex : compiled.regex = some (literalRegex patterns)
  keeps : forall p, p ∈ patterns -> p.length ≤ compiled.keepTail + 1

variable {state : BodyMaskState}

theorem applyChunk_replaceAll (hmasks : Masks compiled patterns)
    (hapart : ¬ Nested patterns compiled.maxBytes) (henabled : state.enabled = true)
    (hbelow : state.processed < compiled.maxBytes) (chunk : Option Bytes) {later : Bytes}
    (hlen : (state.buffer chunk ++ later).length ≤ compiled.maxBytes) :
    (applyChunk state compiled chunk false).2.getD [] ++ Search.replaceAll patterns compiled.mask
          ((applyChunk state compiled chunk false).1.tail ++ later) =
      Search.replaceAll patterns compiled.mask (state.buffer chunk ++ later) := by
  rcases applyChunk_below_ceiling hmasks.regex henabled hbelow chunk false with ⟨_, _, hout, htail⟩
  have hdecided : DecidedBefore patterns (state.buffer chunk) later
      ((state.buffer chunk).length - compiled.keepTail) := by
    intro j hj
    apply Search.headMatch_append
    intro p hp
    have hkeeps := hmasks.keeps p hp
    rw [List.length_drop]
    lia
  rw [if_neg Bool.false_ne_true] at hout htail
  rw [hout, htail]
  exact scanAndReplace_replaceAll hmasks.nonempty compiled.mask hdecided
    (noneBeforeMatch_of_not_nested hapart hlen)

theorem applyChunk_last (hmasks : Masks compiled patterns) (henabled : state.enabled = true)
    (hbelow : state.processed < compiled.maxBytes) (last : Option Bytes) :
    (applyChunk state compiled last true).2.getD [] =
      Search.replaceAll patterns compiled.mask (state.buffer last) := by
  rcases applyChunk_below_ceiling hmasks.regex henabled hbelow last true with ⟨_, _, hout, _⟩
  rw [hout, if_pos rfl, scanAndReplace_last hmasks.nonempty]

theorem maskOutput_replaceAll (hmasks : Masks compiled patterns)
    (hapart : ¬ Nested patterns compiled.maxBytes) (henabled : state.enabled = true)
    (hheld : state.tail.length ≤ state.processed) {chunks : List (Option Bytes)} {later : Bytes}
    (hlen : state.processed + (chunkBytes chunks ++ later).length ≤ compiled.maxBytes) :
    (maskState compiled state chunks).enabled = true ∧ (maskState compiled state chunks).processed =
        state.processed + (chunkBytes chunks).length ∧ maskOutput compiled state chunks ++
          Search.replaceAll patterns compiled.mask
            ((maskState compiled state chunks).tail ++ later) =
        Search.replaceAll patterns compiled.mask (state.tail ++ (chunkBytes chunks ++ later)) := by
  induction chunks generalizing state with
  | nil => exact ⟨henabled, rfl, rfl⟩
  | cons chunk rest ih =>
    rw [chunkBytes_cons, List.append_assoc, List.length_append] at hlen
    rw [maskState, maskOutput, chunkBytes_cons]
    rcases Nat.lt_or_ge state.processed compiled.maxBytes with hbelow | hover
    · rcases applyChunk_below_ceiling hmasks.regex henabled hbelow chunk false
        with ⟨hnext, hprocessed, _, htail⟩
      have hbuf : (state.buffer chunk).length =
          state.tail.length + (chunk.getD []).length := List.length_append
      have hnextHeld : (applyChunk state compiled chunk false).1.tail.length ≤
          (applyChunk state compiled chunk false).1.processed := by
        rw [hprocessed, htail]
        exact Nat.le_trans (scanAndReplace_tail_length_le _ _ _ _) (by lia)
      rcases ih hnext hnextHeld (by lia) with ⟨hdone, hcount, hrest⟩
      refine ⟨hdone, ?_, ?_⟩
      · rw [hcount, hprocessed, List.length_append]
        lia
      · rw [List.append_assoc, hrest, applyChunk_replaceAll hmasks hapart henabled hbelow chunk (by
            rw [List.length_append, hbuf]
            lia),
          BodyMaskState.buffer, List.append_assoc, List.append_assoc]
    · have hnil : chunk.getD [] = [] := List.eq_nil_of_length_eq_zero (by lia)
      rcases applyChunk_over_ceiling hmasks.regex henabled hover chunk false
        with ⟨hnext, hprocessed, htail, hout⟩
      rcases ih hnext (by rw [hprocessed, htail]; exact hheld) (by lia) with ⟨hdone, hcount, hrest⟩
      rw [hout, hnil, List.nil_append, List.nil_append]
      refine ⟨hdone, ?_, ?_⟩
      · rw [hcount, hprocessed]
      · rw [hrest, htail]

/-- Of a body below the ceiling everything is forwarded masked, except what is
held back when the ceiling is reached before the last call. -/
theorem forwarded_eq_replaceAll_iff_of_masks (hmasks : Masks compiled patterns)
    (hapart : ¬ Nested patterns compiled.maxBytes)
    {chunks : List (Option Bytes)} {last : Option Bytes}
    (hlen : (streamBody chunks last).length ≤ compiled.maxBytes) :
    forwarded compiled chunks last =
        Search.replaceAll patterns compiled.mask (streamBody chunks last) <->
      LosesNothing compiled patterns chunks := by
  have hstart : BodyMaskState.start.processed +
      (chunkBytes chunks ++ last.getD []).length ≤ compiled.maxBytes := by
    rw [BodyMaskState.start, Nat.zero_add]
    exact hlen
  have henabled : BodyMaskState.start.enabled = true := rfl
  rcases maskOutput_replaceAll hmasks hapart henabled (Nat.le_refl 0) hstart with
    ⟨hdone, hcount, hout⟩
  rw [BodyMaskState.start, Nat.zero_add] at hcount
  rw [streamBody, List.length_append] at hlen
  rw [forwarded, maskStream_stream, streamBody, LosesNothing]
  rcases Nat.lt_or_ge (chunkBytes chunks).length compiled.maxBytes with hbelow | hover
  · refine iff_of_true ?_ (Or.inl hbelow)
    rw [applyChunk_last hmasks hdone (hcount ▸ hbelow)]
    exact hout
  · have hnil : last.getD [] = [] := List.eq_nil_of_length_eq_zero (by lia)
    rcases applyChunk_over_ceiling hmasks.regex hdone (hcount ▸ hover) last true
      with ⟨_, _, _, hlast⟩
    rw [hlast, hnil, List.append_nil, List.append_nil, ← List.append_nil
      (maskOutput compiled BodyMaskState.start chunks)]
    rw [hnil, List.append_nil, List.append_nil] at hout
    have hwhole : Search.replaceAll patterns compiled.mask (chunkBytes chunks) =
        maskOutput compiled .start chunks ++
          Search.replaceAll patterns compiled.mask (heldBack compiled chunks) := hout.symm
    rw [hwhole, List.append_right_inj, or_iff_right (Nat.not_lt_of_le hover)]
    exact eq_comm

/-- Cut behind the inner pattern, the outer one is put out in part. -/
theorem exists_forwarded_ne_of_nested (hmasks : Masks compiled patterns)
    (hnested : Nested patterns compiled.maxBytes) :
    exists chunks last, (streamBody chunks last).length ≤ compiled.maxBytes ∧
      (chunkBytes chunks).length < compiled.maxBytes ∧ forwarded compiled chunks last ≠
        Search.replaceAll patterns compiled.mask (streamBody chunks last) := by
  rcases hnested with ⟨p, hp, hmax, hshortest, front, q, back, hq, hfront, hback, hcut⟩
  have hback := List.length_pos_iff.mpr hback
  have hlong : p.length = (front ++ q).length + back.length := by
    rw [hcut, List.length_append]
  have hwhole : streamBody [some (front ++ q)] (some back) = p := by
    rw [hcut]
    simp only [streamBody, chunkBytes, List.flatMap_cons, List.flatMap_nil,
      Option.getD_some, List.append_nil]
  have hfirst : chunkBytes [some (front ++ q)] = front ++ q := List.append_nil _
  refine ⟨[some (front ++ q)], some back, by rw [hwhole]; exact hmax,
    by rw [hfirst]; lia, ?_⟩
  have hnone : Search.headMatch patterns (front ++ q) = none := by
    rw [Search.headMatch_eq_none_iff]
    intro r hr hpre
    have hrp := hshortest r hr (hpre.trans ⟨back, hcut.symm⟩)
    have hle := hpre.length_le
    rw [hrp] at hle
    lia
  have hbelow : BodyMaskState.start.processed < compiled.maxBytes := by
    rw [BodyMaskState.start]
    lia
  have henabled : BodyMaskState.start.enabled = true := rfl
  rcases applyChunk_below_ceiling hmasks.regex henabled hbelow
    (some (front ++ q)) false with ⟨hnext, hprocessed, hout, htail⟩
  have hbuf : BodyMaskState.start.buffer (some (front ++ q)) = front ++ q := rfl
  have hkeeps := hmasks.keeps p hp
  rcases scanAndReplace_short hmasks.nonempty compiled.mask
    (show (front ++ q).length ≤ compiled.keepTail by lia) hnone hq
    (List.suffix_append front q).isInfix with ⟨n, r, hpos, hn, hmatch, hscan⟩
  rw [hbuf, if_neg Bool.false_ne_true, hscan] at hout htail
  rw [forwarded, maskStream_stream_cons, maskStream_last, hout, applyChunk_last hmasks hnext (by
      rw [hprocessed, BodyMaskState.start, Option.getD_some]
      lia),
    BodyMaskState.buffer, htail, Option.getD_some, hwhole,
    replaceAll_shortest hmasks.nonempty compiled.mask hp hshortest]
  intro heq
  have hlater := mask_length_le hmasks.nonempty compiled.mask hmatch back
  have hlength := congrArg List.length heq
  rw [List.length_append, List.length_take, Nat.min_eq_left hn] at hlength
  lia

end Chunks

/-! ## The configured mask -/

theorem le_foldl_max {lengths : List Nat} {start n : Nat}
    (h : n = start ∨ n ∈ lengths) : n ≤ lengths.foldl max start := by
  induction lengths generalizing start n with
  | nil =>
    rcases h with heq | hmem
    · exact Nat.le_of_eq heq
    · cases hmem
  | cons m rest ih =>
    rw [List.foldl_cons]
    rcases h with heq | hmem
    · exact Nat.le_trans (heq ▸ Nat.le_max_left start m) (ih (Or.inl rfl))
    · rcases List.mem_cons.mp hmem with heq | hlater
      · exact Nat.le_trans (heq ▸ Nat.le_max_right start m) (ih (Or.inl rfl))
      · exact ih (Or.inr hlater)

theorem masks_build (mask : Bytes) (maxBytes : Nat) (hsome : patterns ≠ []) (hne : [] ∉ patterns)
    (hlen : forall p, p ∈ patterns -> p.length ≤ maxTailBytes + 1) :
    Masks (.build literalEngine patterns mask maxBytes) patterns := by
  have hvalid : patterns.filter literalEngine.accepts = patterns :=
    List.filter_eq_self.mpr (fun _ _ => rfl)
  refine ⟨hne, ?_, ?_⟩
  · simp only [CompiledMask.build, hvalid, if_neg hsome]
    rfl
  · intro p hp
    have hmax : p.length ≤ (patterns.map List.length).foldl max 0 :=
      le_foldl_max (Or.inr (List.mem_map_of_mem hp))
    have hcap := hlen p hp
    simp only [CompiledMask.build, hvalid]
    lia

theorem replaceAll_no_patterns (mask body : Bytes) :
    Search.replaceAll [] mask body = body := by
  induction body with
  | nil => rfl
  | cons c rest ih =>
    rw [Search.replaceAll_cons_of_none rfl, ih]

theorem maskState_of_noop {compiled : CompiledMask} (h : compiled.IsNoop)
    (state : BodyMaskState) (chunks : List (Option Bytes)) :
    maskState compiled state chunks = state := by
  induction chunks with
  | nil => rfl
  | cons chunk rest ih =>
    rw [maskState, applyChunk_of_noop h]
    exact ih

/-- Up to the ceiling, masking does not depend on the split if no pattern that can
be matched stands around another one; if one does, it does. -/
theorem forwarded_eq_replaceAll_iff (patterns : List Bytes) (mask : Bytes)
    (maxBytes : Nat) (hne : [] ∉ patterns)
    (hlen : forall p, p ∈ patterns -> p.length ≤ maxTailBytes + 1) :
    (¬ Nested patterns maxBytes ->
      forall chunks last, (streamBody chunks last).length ≤ maxBytes ->
        (forwarded (.build literalEngine patterns mask maxBytes) chunks last =
            Search.replaceAll patterns mask (streamBody chunks last) <->
          LosesNothing (.build literalEngine patterns mask maxBytes) patterns chunks)) ∧
    (Nested patterns maxBytes ->
      exists chunks last, (streamBody chunks last).length ≤ maxBytes ∧
        (chunkBytes chunks).length < maxBytes ∧
        forwarded (.build literalEngine patterns mask maxBytes) chunks last ≠
          Search.replaceAll patterns mask (streamBody chunks last)) := by
  rcases Decidable.em (patterns = []) with hnil | hsome
  · have hnoop : (CompiledMask.build literalEngine patterns mask maxBytes).IsNoop := by
      rw [hnil]
      rfl
    refine ⟨?_, ?_⟩
    · intro _ chunks last _
      refine iff_of_true ?_ (Or.inr ?_)
      · rw [forwarded, maskStream_noop hnoop, hnil, replaceAll_no_patterns]
      · rw [heldBack, maskState_of_noop hnoop]
        rfl
    · rintro ⟨p, hp, _⟩
      rw [hnil] at hp
      cases hp
  · have hmasks := masks_build mask maxBytes hsome hne hlen
    refine ⟨?_, ?_⟩
    · intro hapart chunks last hbody
      exact forwarded_eq_replaceAll_iff_of_masks hmasks hapart hbody
    · intro hnested
      exact exists_forwarded_ne_of_nested hmasks hnested

theorem not_nested_of_same_length {n : Nat}
    (h : forall p, p ∈ patterns -> p.length = n) (maxBytes : Nat) :
    ¬ Nested patterns maxBytes := by
  rintro ⟨p, hp, _, _, front, q, back, hq, hfront, _, hcut⟩
  have hlength := congrArg List.length hcut
  have hpos := List.length_pos_iff.mpr hfront
  rw [List.length_append, List.length_append, h p hp, h q hq] at hlength
  lia

theorem forwarded_split_match :
    forwarded (.build literalEngine [ascii "abc", ascii "xyz"] (ascii "*") 100)
        [some (ascii "1xy"), none] (some (ascii "zabc2")) =
      Search.replaceAll [ascii "abc", ascii "xyz"] (ascii "*") (ascii "1xyzabc2") := by
  have hsame : forall p, p ∈ [ascii "abc", ascii "xyz"] -> p.length = 3 := by
    decide
  refine ((forwarded_eq_replaceAll_iff [ascii "abc", ascii "xyz"] (ascii "*")
    100 (by decide) ?_).1 (not_nested_of_same_length hsame 100)
    [some (ascii "1xy"), none] (some (ascii "zabc2")) (by decide)).mpr (Or.inl (by decide))
  intro p hp
  rw [hsame p hp]
  decide

/-- The inner pattern is found before the outer one is complete. -/
theorem outer_pattern_put_out :
    forwarded (.build literalEngine [ascii "abcdef", ascii "c"] (ascii "*") 100)
        [some (ascii "xxabc")] (some (ascii "def")) = ascii "xxab*def" ∧
      Search.replaceAll [ascii "abcdef", ascii "c"] (ascii "*")
        (ascii "xxabcdef") = ascii "xx*" := by
  decide

end Gateway
end PrxWaf
