import PrxWaf.Cache.Store

/-!
# Capturing upstream responses

A cache miss leaves a pending record in the context of the request.  When the
response headers arrive the record is filled or dropped; each chunk of the body
is added to it up to a limit; at the end of the stream the record becomes a
request to store.
-/

namespace PrxWaf
namespace Cache

open Lib Http

abbrev Bytes := List UInt8

def responseCacheBodyLimit : Nat := 2 * 1024 * 1024

structure ResponseCachePending where
  key : Text
  host : Text
  path : Text
  tier : Tier
  cachePolicy : CachePolicy
  hasAuthorization : Bool
  hasCookie : Bool
  status : UInt16
  headers : List (Text × Text)
  cacheControl : Option Text
  body : Bytes
  captureStarted : Bool

structure ResponseHeader where
  status : UInt16
  headers : HeaderMap

def setCookieName : HeaderName :=
  headerName "set-cookie"

def cacheControlName : HeaderName :=
  headerName "cache-control"

def contentEncodingName : HeaderName :=
  headerName "content-encoding"

def varyName : HeaderName :=
  headerName "vary"

/-- Lines whose value is not visible ASCII are left out. -/
def collectResponseHeaders (resp : ResponseHeader) : List (Text × Text) :=
  resp.headers.filterMap (fun headerLine =>
    headerLine.2.toStr.map (fun value => (headerLine.1.text, value)))

def responseContentEncodingAllowsCache (resp : ResponseHeader) : Bool :=
  match (HeaderMap.get resp.headers contentEncodingName).bind HeaderValue.toStr with
  | some v =>
    Text.trim v == [] || eqIgnoreAsciiCase (Text.trim v) "identity".toList
  | none => true

def firstCacheControl (resp : ResponseHeader) : Option Text :=
  (HeaderMap.get resp.headers cacheControlName).bind HeaderValue.toStr

/-- `none` means that the response is not cached. -/
def beginUpstreamCacheCapture (pending : ResponseCachePending)
    (resp : ResponseHeader) (bodyMaskEnabled : Bool) :
    Option ResponseCachePending :=
  if bodyMaskEnabled || !responseContentEncodingAllowsCache resp then none
  else if ¬ IsSuccess resp.status then none
  else if (HeaderMap.get resp.headers varyName).isSome then none
  else
    some
      { pending with
        status := resp.status
        headers := collectResponseHeaders resp
        cacheControl := firstCacheControl resp
        captureStarted := true }

def ResponseCachePending.appendChunk (pending : ResponseCachePending)
    (chunk : Option Bytes) : ResponseCachePending :=
  match chunk with
  | some bytes =>
    let room := responseCacheBodyLimit - pending.body.length
    { pending with body := pending.body ++ bytes.take room }
  | none => pending

def ResponseCachePending.toPut (pending : ResponseCachePending) : PutRequest :=
  { key := pending.key
    host := pending.host
    path := pending.path
    status := pending.status
    headers := pending.headers
    body := pending.body
    cacheControl := pending.cacheControl
    tier := pending.tier
    policy := pending.cachePolicy
    hasAuthorization := pending.hasAuthorization
    hasCookie := pending.hasCookie }

/-- The pending record after a chunk, and the request to store that is spawned
at the end of the stream. -/
def cacheStoreOnBodyChunk (pending : Option ResponseCachePending)
    (chunk : Option Bytes) (endOfStream : Bool) :
    Option ResponseCachePending × Option PutRequest :=
  match pending with
  | none => (none, none)
  | some p =>
    if p.captureStarted then
      let p := p.appendChunk chunk
      if endOfStream then (none, some p.toPut) else (some p, none)
    else (some p, none)

/-- The cache branch of `response_filter`. -/
def responseFilter (pending : Option ResponseCachePending)
    (resp : ResponseHeader) (bodyMaskEnabled : Bool) :
    Option ResponseCachePending :=
  pending.bind (fun p => beginUpstreamCacheCapture p resp bodyMaskEnabled)

/-- The cache branch of `response_body_filter`. -/
def responseBodyFilter (bodyMaskEnabled : Bool)
    (pending : Option ResponseCachePending) (chunk : Option Bytes)
    (endOfStream : Bool) : Option ResponseCachePending × Option PutRequest :=
  if bodyMaskEnabled then (pending, none)
  else cacheStoreOnBodyChunk pending chunk endOfStream

def feed (bodyMaskEnabled : Bool) :
    Option ResponseCachePending -> List (Option Bytes × Bool) -> List PutRequest
  | _, [] => []
  | pending, (chunk, endOfStream) :: rest =>
    let result := responseBodyFilter bodyMaskEnabled pending chunk endOfStream
    result.2.toList ++ feed bodyMaskEnabled result.1 rest

def stream (chunks : List (Option Bytes)) (last : Option Bytes) : List (Option Bytes × Bool) :=
  chunks.map (fun chunk => (chunk, false)) ++ [(last, true)]

def chunkBytes (chunks : List (Option Bytes)) : Bytes :=
  chunks.flatMap (fun chunk => chunk.getD [])

def streamBody (chunks : List (Option Bytes)) (last : Option Bytes) : Bytes :=
  chunkBytes chunks ++ last.getD []

variable (chunk : Option Bytes) (rest : List (Option Bytes)) (last : Option Bytes)
  {resp : ResponseHeader} {bodyMaskEnabled : Bool}

theorem stream_cons :
    stream (chunk :: rest) last = (chunk, false) :: stream rest last :=
  rfl

theorem chunkBytes_cons :
    chunkBytes (chunk :: rest) = chunk.getD [] ++ chunkBytes rest :=
  List.flatMap_cons

theorem streamBody_cons :
    streamBody (chunk :: rest) last = chunk.getD [] ++ streamBody rest last := by
  rw [streamBody, chunkBytes_cons, List.append_assoc, streamBody]

def ResponseCachePending.WithinLimit (pending : ResponseCachePending) : Prop :=
  pending.body.length ≤ responseCacheBodyLimit

variable {p : ResponseCachePending}

theorem appendChunk_eq (h : p.WithinLimit) (chunk : Option Bytes) :
    p.appendChunk chunk = { p with
        body := (p.body ++ chunk.getD []).take responseCacheBodyLimit } := by
  cases chunk with
  | none =>
    rw [Option.getD_none, List.append_nil, List.take_of_length_le h]
    rfl
  | some bytes =>
    rw [Option.getD_some, List.take_append, List.take_of_length_le h]
    rfl

theorem withinLimit_take (p : ResponseCachePending) (bytes : Bytes) :
    ({ p with body := bytes.take responseCacheBodyLimit } :
      ResponseCachePending).WithinLimit := by
  rw [ResponseCachePending.WithinLimit, List.length_take]
  exact Nat.min_le_left _ _

theorem take_append_take (limit : Nat) (front back : Bytes) :
    (front.take limit ++ back).take limit = (front ++ back).take limit := by
  rw [List.take_append, List.take_append, List.take_take, Nat.min_self, List.length_take]
  rcases Nat.le_total front.length limit with hle | hle
  · rw [Nat.min_eq_right hle]
  · rw [Nat.min_eq_left hle, Nat.sub_self, Nat.sub_eq_zero_of_le hle]

theorem feed_none (bodyMaskEnabled : Bool) (events : List (Option Bytes × Bool)) :
    feed bodyMaskEnabled none events = [] := by
  induction events with
  | nil =>
    rfl
  | cons event rest ih =>
    have hfilter : responseBodyFilter bodyMaskEnabled none event.1 event.2 = (none, none) := by
      unfold responseBodyFilter
      split
      · rfl
      · rfl
    rw [feed, hfilter]
    exact ih

theorem feed_cons_of_started
    (rest : List (Option Bytes × Bool)) (hstarted : p.captureStarted = true) (h : p.WithinLimit) :
    feed false (some p) ((chunk, false) :: rest) = feed false (some { p with
            body := (p.body ++ chunk.getD []).take responseCacheBodyLimit })
        rest := by
  rw [feed]
  simp only [responseBodyFilter, cacheStoreOnBodyChunk, hstarted, if_true,
    Bool.false_eq_true, if_false, appendChunk_eq h, Option.toList_none, List.nil_append]

theorem feed_last_of_started (hstarted : p.captureStarted = true) (h : p.WithinLimit) :
    feed false (some p) [(chunk, true)] = [{ p.toPut with
          body := (p.body ++ chunk.getD []).take responseCacheBodyLimit }] := by
  rw [feed]
  simp only [responseBodyFilter, cacheStoreOnBodyChunk, hstarted, if_true,
    Bool.false_eq_true, if_false, appendChunk_eq h, Option.toList_some, feed, List.append_nil]
  rfl

theorem feed_stream (chunks : List (Option Bytes))
    (last : Option Bytes) (hstarted : p.captureStarted = true) (h : p.WithinLimit) :
    feed false (some p) (stream chunks last) = [{ p.toPut with
          body :=
            (p.body ++ streamBody chunks last).take
              responseCacheBodyLimit }] := by
  induction chunks generalizing p with
  | nil =>
    exact feed_last_of_started last hstarted h
  | cons chunk rest ih =>
    have htail := ih (p := { p with
      body := (p.body ++ chunk.getD []).take responseCacheBodyLimit })
      hstarted (withinLimit_take p _)
    rw [stream_cons, feed_cons_of_started chunk _ hstarted h, htail,
      take_append_take, streamBody_cons, List.append_assoc]
    rfl

def Declines (resp : ResponseHeader) (bodyMaskEnabled : Bool) : Prop :=
  bodyMaskEnabled = true ∨
    responseContentEncodingAllowsCache resp = false ∨
    ¬ IsSuccess resp.status ∨
    (HeaderMap.get resp.headers varyName).isSome = true

instance (resp : ResponseHeader) (bodyMaskEnabled : Bool) :
    Decidable (Declines resp bodyMaskEnabled) :=
  inferInstanceAs (Decidable (_ ∨ _))

theorem begin_of_declines (p : ResponseCachePending) (h : Declines resp bodyMaskEnabled) :
    beginUpstreamCacheCapture p resp bodyMaskEnabled = none := by
  unfold beginUpstreamCacheCapture
  rcases h with hmask | hencoding | hstatus | hvary
  · rw [hmask, Bool.true_or, if_pos rfl]
  · rw [hencoding, Bool.not_false, Bool.or_true, if_pos rfl]
  · rw [if_pos hstatus, ite_self]
  · rw [if_pos hvary, ite_self, ite_self]

theorem begin_of_not_declines (p : ResponseCachePending) (h : ¬ Declines resp bodyMaskEnabled) :
    bodyMaskEnabled = false ∧ beginUpstreamCacheCapture p resp bodyMaskEnabled = some { p with
            status := resp.status
            headers := collectResponseHeaders resp
            cacheControl := firstCacheControl resp
            captureStarted := true } := by
  simp only [Declines, not_or, Bool.not_eq_true, Bool.not_eq_false, Decidable.not_not] at h
  rcases h with ⟨hmask, hencoding, hstatus, hvary⟩
  refine ⟨hmask, ?_⟩
  simp only [beginUpstreamCacheCapture, hmask, hencoding, hstatus, hvary,
    Bool.not_true, Bool.or_self, Bool.false_eq_true, not_true, if_false]

theorem hasSetCookie_collect_iff (resp : ResponseHeader) :
    hasSetCookie (collectResponseHeaders resp) = true <->
      exists v, v ∈ HeaderMap.getAll resp.headers setCookieName ∧ v.toStr.isSome = true := by
  have hname : forall name : HeaderName,
      eqIgnoreAsciiCase name.text "set-cookie".toList = true <-> name = setCookieName := by
    intro name
    rw [eqIgnoreAsciiCase, beq_iff_eq, name.isLower]
    constructor
    · intro htext
      cases name
      cases htext
      rfl
    · intro heq
      rw [heq]
      decide
  simp only [hasSetCookie, collectResponseHeaders, List.any_eq_true,
    List.mem_filterMap, Option.map_eq_some_iff, HeaderMap.getAll,
    List.mem_map, List.mem_filter, decide_eq_true_eq]
  constructor
  · rintro ⟨pair, ⟨headerLine, hmem, value, hvalue, hpair⟩, hcookie⟩
    rw [← hpair] at hcookie
    refine ⟨headerLine.2, ⟨headerLine, ⟨hmem, (hname _).mp hcookie⟩, rfl⟩, ?_⟩
    rw [hvalue]
    rfl
  · rintro ⟨v, ⟨headerLine, ⟨hmem, hcookie⟩, hv⟩, hreadable⟩
    rcases Option.isSome_iff_exists.mp hreadable with ⟨value, hvalue⟩
    rw [← hv] at hvalue
    exact ⟨_, ⟨headerLine, hmem, value, hvalue, rfl⟩, (hname _).mpr hcookie⟩

end Cache
end PrxWaf
