import PrxWaf.Cache.Capture
import PrxWaf.Gateway.Request

/-!
# The response cache in the life of a request

A request that may be answered from the cache is looked up under a key built
from its context.  On a miss a pending record is left behind, the upstream
response is captured into it, and at the end of the body the record is put into
the cache.
-/

namespace PrxWaf
namespace Gateway

open Lib Http Cache

def CacheEligible (ctx : RequestCtx) : Prop :=
  eqIgnoreAsciiCase ctx.method "GET".toList = true ∧
    ctx.cachePolicy ≠ .noCache ∧
    ctx.headers.lookup "authorization".toList = none ∧
    ctx.cookies.keys = []

instance (ctx : RequestCtx) : Decidable (CacheEligible ctx) :=
  inferInstanceAs (Decidable (_ ∧ _))

def cacheKey (ctx : RequestCtx) : Text :=
  ResponseCache.makeKey ctx.method ctx.host ctx.path ctx.query

def openPending (ctx : RequestCtx) : ResponseCachePending :=
  { key := cacheKey ctx
    host := ctx.host
    path := ctx.path
    tier := ctx.tier
    cachePolicy := ctx.cachePolicy
    hasAuthorization := false
    hasCookie := false
    status := 0
    headers := []
    cacheControl := none
    body := []
    captureStarted := false }

inductive CacheLookup where
  | skipped
  | hit (entry : CachedResponse)
  | missed (pending : ResponseCachePending)

def CacheLookup.pending? : CacheLookup -> Option ResponseCachePending
  | missed pending => some pending
  | _ => none

def CacheLookup.answer? : CacheLookup -> Option CachedResponse
  | hit entry => some entry
  | _ => none

section Flow

variable {store : Type} [CacheBackend store]

/-- The cache branch of `request_filter`. -/
def cacheLookup (cache : ResponseCache store) (now : Time) (ctx : RequestCtx) :
    ResponseCache store × CacheLookup :=
  if CacheEligible ctx then
    let result := cache.get now (cacheKey ctx) ctx.tier
    match result.2 with
    | some entry => (result.1, .hit entry)
    | none => (result.1, .missed (openPending ctx))
  else (cache, .skipped)

/-- Run the spawned requests to store; the answer is whether one was stored. -/
def runPuts (cache : ResponseCache store) (now : Time) :
    List PutRequest -> ResponseCache store × Bool
  | [] => (cache, false)
  | req :: rest =>
    let first := cache.put now req
    let others := runPuts first.1 now rest
    (others.1, first.2 || others.2)

/-- The response path of one request: headers, body, end of stream. -/
def captureResponse (cache : ResponseCache store) (now : Time)
    (pending : Option ResponseCachePending) (resp : ResponseHeader)
    (bodyMaskEnabled : Bool) (chunks : List (Option Bytes))
    (last : Option Bytes) : ResponseCache store × Bool :=
  runPuts cache now
    (feed bodyMaskEnabled (responseFilter pending resp bodyMaskEnabled)
      (stream chunks last))

end Flow

def putFor (ctx : RequestCtx) (resp : ResponseHeader) (body : Bytes) : PutRequest :=
  { key := cacheKey ctx
    host := ctx.host
    path := ctx.path
    status := resp.status
    headers := collectResponseHeaders resp
    body := body
    cacheControl := firstCacheControl resp
    tier := ctx.tier
    policy := ctx.cachePolicy
    hasAuthorization := false
    hasCookie := false }

def pendingFor (ctx : RequestCtx) : Option ResponseCachePending :=
  if CacheEligible ctx then some (openPending ctx) else none

theorem cacheLookup_pending {store : Type} [CacheBackend store]
    (cache : ResponseCache store) (now : Time) (ctx : RequestCtx) :
    (cacheLookup cache now ctx).2.pending? = pendingFor ctx ∨
      exists entry, (cacheLookup cache now ctx).2 = .hit entry := by
  simp only [cacheLookup, pendingFor]
  split
  · cases (cache.get now (cacheKey ctx) ctx.tier).2 with
    | none => exact Or.inl rfl
    | some entry => exact Or.inr ⟨entry, rfl⟩
  · exact Or.inl rfl

def Refuses (cache : ResponseCache MokaStore) (ctx : RequestCtx)
    (resp : ResponseHeader) (bodyMaskEnabled : Bool) : Prop :=
  ¬ CacheEligible ctx ∨ Declines resp bodyMaskEnabled ∨
    exists reason, cache.verdict (putFor ctx resp []) = .bypass reason

variable (cache : ResponseCache MokaStore) (now : Time) (chunks : List (Option Bytes))
  (last : Option Bytes) {ctx : RequestCtx} {resp : ResponseHeader} {bodyMaskEnabled : Bool}

theorem captureResponse_of_declines (h : ¬ CacheEligible ctx ∨ Declines resp bodyMaskEnabled) :
    captureResponse cache now (pendingFor ctx) resp bodyMaskEnabled chunks
      last = (cache, false) := by
  have hpending : responseFilter (pendingFor ctx) resp bodyMaskEnabled = none := by
    rw [pendingFor]
    split
    · rename_i heligible
      exact begin_of_declines _ (h.resolve_left (not_not_intro heligible))
    · rfl
  rw [captureResponse, hpending, feed_none]
  rfl

theorem captureResponse_of_captures (heligible : CacheEligible ctx)
    (hcapture : ¬ Declines resp bodyMaskEnabled) :
    captureResponse cache now (pendingFor ctx) resp bodyMaskEnabled chunks last = cache.put now
        (putFor ctx resp ((streamBody chunks last).take responseCacheBodyLimit)) := by
  rcases begin_of_not_declines (openPending ctx) hcapture with ⟨hmask, hbegin⟩
  rw [captureResponse, responseFilter, pendingFor, if_pos heligible,
    Option.bind_some, hbegin, hmask, feed_stream chunks last rfl (Nat.zero_le _)]
  simp only [runPuts, Bool.or_false]
  rfl

theorem captureResponse_unstored_iff (ctx : RequestCtx) (resp : ResponseHeader)
    (bodyMaskEnabled : Bool) (chunks : List (Option Bytes)) (last : Option Bytes) :
    captureResponse cache now (pendingFor ctx) resp bodyMaskEnabled chunks
        last = (cache, false) <-> Refuses cache ctx resp bodyMaskEnabled := by
  rcases Decidable.em (¬ CacheEligible ctx ∨ Declines resp bodyMaskEnabled) with
    hdeclines | hcaptures
  · constructor
    · intro _
      exact or_assoc.mp (Or.inl hdeclines)
    · intro _
      exact captureResponse_of_declines cache now chunks last hdeclines
  · rcases not_or.mp hcaptures with ⟨heligible, hcapture⟩
    rw [captureResponse_of_captures cache now chunks last (Decidable.not_not.mp heligible) hcapture,
      ResponseCache.put_eq_unstored_iff, Refuses, or_iff_right heligible, or_iff_right hcapture]
    rfl

end Gateway
end PrxWaf
