import PrxWaf.Lib.Framing
import PrxWaf.Lib.Utf8

/-!
# Frames of the cluster transport

A message travels as a JSON text behind the length of that text in four bytes.  The
stream of a connection is the list of its bytes; that it can break while a frame is
written is left out.
-/

namespace PrxWaf
namespace Cluster

open Lib

abbrev Bytes := List UInt8

/-- The JSON form of a type of messages.  Every message can be written, and what is
written is read as the message again. -/
structure JsonForm (msg : Type) where
  toVec : msg -> Option Bytes
  fromSlice : Bytes -> Option msg
  roundTrip : forall m, (toVec m).bind fromSlice = some m

section Frames

variable {msg : Type} (form : JsonForm msg)

def lenU32 (json : Bytes) : Nat :=
  json.length % 2 ^ 32

def writeFrame (stream : Bytes) (m : msg) : Except Text Bytes :=
  match form.toVec m with
  | none => .error "failed to serialize cluster message".toList
  | some json => .ok (stream ++ (beBytes 4 (lenU32 json) ++ json))

def readBody (len : Nat) (stream : Bytes) : Except Text (msg × Bytes) :=
  match readExact len stream with
  | none => .error "failed to read cluster frame body".toList
  | some (data, rest) =>
    match form.fromSlice data with
    | none => .error "failed to deserialize cluster message".toList
    | some m => .ok (m, rest)

def readFrame (stream : Bytes) : Except Text (msg × Bytes) :=
  match readExact 4 stream with
  | none => .error "failed to read cluster frame length".toList
  | some (lenBuf, rest) => readBody form (beValue lenBuf) rest

def writeFrames : Bytes -> List msg -> Except Text Bytes
  | stream, [] => .ok stream
  | stream, m :: later => do
      let stream ← writeFrame form stream m
      writeFrames stream later

def readFrames : Nat -> Bytes -> Except Text (List msg × Bytes)
  | 0, stream => .ok ([], stream)
  | n + 1, stream => do
      let (m, stream) ← readFrame form stream
      let (later, stream) ← readFrames n stream
      .ok (m :: later, stream)

def JsonForm.body (m : msg) : Bytes :=
  (form.toVec m).getD []

def JsonForm.frame (m : msg) : Bytes :=
  beBytes 4 (lenU32 (form.body m)) ++ form.body m

def Fits (m : msg) : Prop :=
  (form.body m).length < 2 ^ 32

variable {form} {m : msg}

theorem toVec_eq (m : msg) : form.toVec m = some (form.body m) := by
  have hround := form.roundTrip m
  unfold JsonForm.body
  cases hvec : form.toVec m with
  | none =>
    rw [hvec] at hround
    cases hround
  | some json => rfl

theorem fromSlice_body (m : msg) : form.fromSlice (form.body m) = some m := by
  have hround := form.roundTrip m
  rw [toVec_eq] at hround
  exact hround

theorem writeFrame_eq (stream : Bytes) (m : msg) :
    writeFrame form stream m = .ok (stream ++ form.frame m) := by
  unfold writeFrame
  rw [toVec_eq]
  rfl

theorem writeFrames_eq (stream : Bytes) (msgs : List msg) :
    writeFrames form stream msgs = .ok (stream ++ msgs.flatMap form.frame) := by
  induction msgs generalizing stream with
  | nil =>
    rw [List.flatMap_nil, List.append_nil]
    rfl
  | cons m later ih =>
    rw [writeFrames, writeFrame_eq, List.flatMap_cons, ← List.append_assoc]
    exact ih _

theorem lenU32_of_fits (h : Fits form m) :
    lenU32 (form.body m) = (form.body m).length :=
  Nat.mod_eq_of_lt h

theorem beValue_lenU32 (json : Bytes) :
    beValue (beBytes 4 (lenU32 json)) = lenU32 json := by
  rw [beValue_beBytes]
  exact Nat.mod_eq_of_lt (Nat.mod_lt json.length (by decide))

theorem readFrame_length_append (json rest : Bytes) :
    readFrame form (beBytes 4 (lenU32 json) ++ rest) = readBody form (lenU32 json) rest := by
  unfold readFrame
  rw [readExact_append (beBytes_length 4 _)]
  dsimp only
  rw [beValue_lenU32]

theorem readFrame_frame_append (h : Fits form m) (rest : Bytes) :
    readFrame form (form.frame m ++ rest) = .ok (m, rest) := by
  unfold JsonForm.frame
  rw [List.append_assoc, readFrame_length_append]
  unfold readBody
  rw [readExact_append (lenU32_of_fits h).symm]
  dsimp only
  rw [fromSlice_body]

theorem readFrames_append {msgs : List msg} (h : forall m, m ∈ msgs -> Fits form m) (rest : Bytes) :
    readFrames form msgs.length (msgs.flatMap form.frame ++ rest) = .ok (msgs, rest) := by
  induction msgs with
  | nil => rfl
  | cons m later ih =>
    have hfirst := h m List.mem_cons_self
    have hlater := ih (fun other hother =>
      h other (List.mem_cons_of_mem m hother))
    rw [List.flatMap_cons, List.append_assoc, List.length_cons, readFrames,
      readFrame_frame_append hfirst]
    change (readFrames form later.length _ >>= _) = _
    rw [hlater]
    rfl

theorem readFrame_of_part (h : Fits form m) {part : Bytes}
    (hpart : part <+: form.frame m) (hstrict : part ≠ form.frame m) :
    exists error, readFrame form part = .error error := by
  obtain ⟨missing, hmissing⟩ := hpart
  have hne : missing ≠ [] := by
    intro hnil
    rw [hnil, List.append_nil] at hmissing
    exact hstrict hmissing
  have hpos := List.length_pos_iff.mpr hne
  rcases Nat.lt_or_ge part.length 4 with hshort | hlong
  · refine ⟨"failed to read cluster frame length".toList, ?_⟩
    unfold readFrame
    rw [readExact_of_short hshort]
  · -- The part has the whole length and not all of the body.
    have hlen : (beBytes 4 (lenU32 (form.body m))).length ≤ part.length := by
      rw [beBytes_length]
      exact hlong
    obtain ⟨begun, hbegun⟩ := List.prefix_of_prefix_length_le
      (List.prefix_append _ (form.body m)) (⟨missing, hmissing⟩ : part <+: form.frame m) hlen
    have hbody : begun ++ missing = form.body m := by
      rw [← hbegun, List.append_assoc] at hmissing
      exact List.append_cancel_left hmissing
    have hless : begun.length < lenU32 (form.body m) := by
      rw [lenU32_of_fits h, ← hbody, List.length_append]
      lia
    refine ⟨"failed to read cluster frame body".toList, ?_⟩
    rw [← hbegun, readFrame_length_append]
    unfold readBody
    rw [readExact_of_short hless]

variable (form)

/-- The messages are written one after another and read again, whatever follows them
on the stream, which is left as it is. -/
def RoundTrips (msgs : List msg) : Prop :=
  exists stream, writeFrames form [] msgs = .ok stream ∧
    forall rest, readFrames form msgs.length (stream ++ rest) = .ok (msgs, rest)

def PartsFail (m : msg) : Prop :=
  exists stream, writeFrame form [] m = .ok stream ∧
    forall part, part <+: stream -> part ≠ stream ->
      exists error, readFrame form part = .error error

variable {form}

theorem length_of_readFrame {json rest : Bytes}
    (h : readFrame form (beBytes 4 (lenU32 json) ++ json) = .ok (m, rest)) :
    json.length = lenU32 json + rest.length := by
  rw [readFrame_length_append] at h
  unfold readBody at h
  cases hread : readExact (lenU32 json) json with
  | none =>
    rw [hread] at h
    cases h
  | some found =>
    rcases found with ⟨data, later⟩
    obtain ⟨hlength, hjson⟩ := readExact_eq_some hread
    rw [hread] at h
    dsimp only at h
    cases hdata : form.fromSlice data with
    | none =>
      rw [hdata] at h
      cases h
    | some found =>
      rw [hdata] at h
      cases h
      rw [← hlength, ← List.length_append, ← hjson]

theorem fits_of_roundTrips (h : RoundTrips form [m]) : Fits form m := by
  obtain ⟨stream, hwrite, hread⟩ := h
  rw [writeFrames_eq] at hwrite
  cases hwrite
  have hone := hread []
  rw [List.nil_append, List.flatMap_singleton, List.append_nil,
    List.length_singleton, readFrames] at hone
  cases hframe : readFrame form (form.frame m) with
  | error error =>
    rw [hframe] at hone
    cases hone
  | ok found =>
    rcases found with ⟨other, rest⟩
    have hlength := length_of_readFrame hframe
    rw [hframe] at hone
    cases hone
    have hmod : lenU32 (form.body m) < 2 ^ 32 := Nat.mod_lt _ (by decide)
    unfold Fits
    rw [hlength, List.length_nil, Nat.add_zero]
    exact hmod

/-- Whatever messages are sent, their frames round-trip in every order and fail when
they break off exactly if every body is shorter than 2^32 bytes. -/
theorem frames_faithful_iff (form : JsonForm msg) (sent : msg -> Prop) :
    (forall msgs : List msg, (forall m, m ∈ msgs -> sent m) -> RoundTrips form msgs) ∧
      (forall m, sent m -> PartsFail form m) <-> forall m, sent m -> Fits form m := by
  constructor
  · intro h m hsent
    refine fits_of_roundTrips (h.1 [m] ?_)
    intro other hother
    rw [List.mem_singleton.mp hother]
    exact hsent
  · intro hfits
    constructor
    · intro msgs hsent
      refine ⟨_, writeFrames_eq [] msgs, ?_⟩
      intro rest
      rw [List.nil_append]
      exact readFrames_append (fun m hm => hfits m (hsent m hm)) rest
    · intro m hsent
      refine ⟨_, writeFrame_eq [] m, ?_⟩
      intro part hpart hstrict
      rw [List.nil_append] at hpart hstrict
      exact readFrame_of_part (hfits m hsent) hpart hstrict

end Frames

/-! ## A message that is too long

`NodeLeave` with a name of small letters, as it is written in JSON.
-/

def isSmallLetter (b : UInt8) : Bool :=
  97 ≤ b && b ≤ 122

structure NodeLeave where
  nodeId : Bytes
  letters : nodeId.all isSmallLetter = true

namespace NodeLeave

def head : Bytes :=
  utf8 "\x7b\"type\":\"node_leave\",\"node_id\":\"".toList

def tail : Bytes :=
  utf8 "\"\x7d".toList

def render (name : Bytes) : Bytes :=
  head ++ (name ++ tail)

def nameIn (data : Bytes) : Bytes :=
  (data.drop head.length).take (data.length - head.length - tail.length)

def parse (data : Bytes) : Option NodeLeave :=
  if h : (nameIn data).all isSmallLetter = true ∧ render (nameIn data) = data then
    some ⟨nameIn data, h.1⟩
  else none

theorem nameIn_render (name : Bytes) : nameIn (render name) = name := by
  unfold nameIn render
  rw [List.drop_left, List.length_append, List.length_append,
    Nat.add_sub_cancel_left, Nat.add_sub_cancel, List.take_left]

theorem parse_render (leave : NodeLeave) :
    parse (render leave.nodeId) = some leave := by
  unfold parse
  rw [dif_pos ⟨by rw [nameIn_render]; exact leave.letters,
    by rw [nameIn_render]⟩]
  congr
  exact nameIn_render leave.nodeId

def form : JsonForm NodeLeave where
  toVec := fun leave => some (render leave.nodeId)
  fromSlice := parse
  roundTrip := parse_render

def repeated (n : Nat) : NodeLeave where
  nodeId := List.replicate n 97
  letters := by
    refine List.all_eq_true.mpr ?_
    intro b hb
    rw [List.eq_of_mem_replicate hb]
    rfl

section Repeated

variable {n : Nat}

theorem body_repeated :
    form.body (repeated n) = head ++ (List.replicate n 97 ++ tail) :=
  rfl

theorem lenU32_repeated (hn : n % 2 ^ 32 = 0) :
    lenU32 (form.body (repeated n)) = head.length + tail.length := by
  have hsmall : head.length + tail.length < 2 ^ 32 := by decide
  unfold lenU32
  rw [body_repeated, List.length_append, List.length_append,
    List.length_replicate, Nat.add_left_comm, Nat.add_mod, hn, Nat.zero_add,
    Nat.mod_mod, Nat.mod_eq_of_lt hsmall]

theorem take_repeated (hn : 2 ≤ n) :
    (form.body (repeated n)).take (head.length + tail.length) = head ++ [97, 97] := by
  have htail : tail.length = 2 := by decide
  have hfront : (List.replicate n (97 : UInt8) ++ tail).take tail.length = [97, 97] := by
    rw [htail, List.take_append_of_le_length (by
        rw [List.length_replicate]
        exact hn),
      List.take_replicate, Nat.min_eq_left hn]
    rfl
  rw [body_repeated, List.take_length_add_append, hfront]

theorem parse_cut : parse (head ++ [97, 97]) = none := by
  decide

theorem readFrame_repeated (hn : n % 2 ^ 32 = 0) (hlong : 2 ≤ n) :
    readFrame form (form.frame (repeated n)) =
      .error "failed to deserialize cluster message".toList := by
  have hlen : head.length + tail.length ≤ (form.body (repeated n)).length := by
    rw [← lenU32_repeated hn]
    exact Nat.mod_le _ _
  unfold JsonForm.frame
  rw [readFrame_length_append, lenU32_repeated hn]
  unfold readBody readExact
  rw [if_pos hlen, take_repeated hlong]
  dsimp only
  rw [show form.fromSlice = parse from rfl, parse_cut]

end Repeated

/-- A name of as many letters as a `u32` has values. -/
def long : NodeLeave :=
  repeated (2 ^ 32)

end NodeLeave

/-- The length that is written is that of the first bytes only, which the reader takes
for the message. -/
theorem long_name_unreadable :
    exists stream, writeFrame NodeLeave.form [] NodeLeave.long = .ok stream ∧
      readFrame NodeLeave.form stream = .error "failed to deserialize cluster message".toList := by
  refine ⟨_, writeFrame_eq [] NodeLeave.long, ?_⟩
  rw [List.nil_append]
  exact NodeLeave.readFrame_repeated (Nat.mod_self _) (by decide)

end Cluster
end PrxWaf
