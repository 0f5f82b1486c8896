import PrxWaf.Gateway.CacheFlow

/-!
# What the response cache stores and replays

Three results about the whole path of a request: which responses are kept out
of the cache, when a stored body is the whole body, and when the keys of two
sites are different.
-/

namespace PrxWaf
namespace Gateway

open Lib Http Cache

/-!
## Private responses

A response is marked as private by a cookie or by its cache control.  The gates
see the mark only if the header line is readable and, for the cache control,
only on the first line.
-/

def MarkSeen (resp : ResponseHeader) : Prop :=
  (exists v, v ∈ HeaderMap.getAll resp.headers setCookieName ∧ v.toStr.isSome = true) ∨
  exists header, firstCacheControl resp = some header ∧ ForbidsStorage header

theorem beforeFirst_cacheKey {ctx : RequestCtx} (h : ':' ∉ ctx.method) :
    Text.beforeFirst ':' (cacheKey ctx) = ctx.method := by
  rw [cacheKey, ResponseCache.makeKey]
  split
  · rw [List.append_assoc, List.cons_append, Text.beforeFirst_append_cons h]
  · rw [List.append_assoc, List.append_assoc, List.cons_append, Text.beforeFirst_append_cons h]

/-- A successful response is kept out of the cache in these cases only: a route
rule that allows storing overrides every mark. -/
theorem captureResponse_unstored_iff_markSeen
    {cache : ResponseCache MokaStore} {ctx : RequestCtx} {resp : ResponseHeader}
    (hget : ctx.method = "GET".toList) (htier : ctx.tier ≠ .critical)
    (hpolicy : ctx.cachePolicy ≠ .noCache) (hstatus : IsSuccess resp.status)
    (now : Time) (bodyMaskEnabled : Bool) (chunks : List (Option Bytes)) (last : Option Bytes) :
    captureResponse cache now (pendingFor ctx) resp bodyMaskEnabled chunks last = (cache, false) <->
      ¬ CacheEligible ctx ∨ Declines resp bodyMaskEnabled ∨ (exists rule,
          cache.rules.firstMatch ctx.host ctx.path ctx.method = some rule ∧ rule.ttl = 0) ∨
        (cache.rules.firstMatch ctx.host ctx.path ctx.method = none ∧ MarkSeen resp) := by
  have hmethod : (cache.ctxOf (putFor ctx resp [])).method = ctx.method := by
    apply beforeFirst_cacheKey
    rw [hget]
    decide
  have hpasses : (cache.ctxOf (putFor ctx resp [])).PassesRequestGates := by
    refine ⟨htier, hpolicy, ?_, rfl, rfl⟩
    rw [hmethod, hget]
    decide
  have hbypass := resolve_gates_bypass_iff cache.rules hpasses hstatus
  rw [hmethod] at hbypass
  rw [captureResponse_unstored_iff, Refuses, MarkSeen, ← hasSetCookie_collect_iff]
  exact or_congr_right (or_congr_right hbypass)

def visitorCtx : RequestCtx :=
  { method := "GET".toList
    host := "shop.test".toList
    port := 443
    path := "/cart".toList
    query := []
    headers := ∅
    tier := .medium
    cachePolicy := .default 120
    cookies := ∅ }

def cartResponse : ResponseHeader :=
  { status := 200
    headers :=
      [(setCookieName, line "session=7f3a"), (cacheControlName, line "private, no-store")] }

theorem captureResponse_cart_unstored :
    captureResponse (ResponseCache.withRules 60 3600 .empty) 0
        (pendingFor visitorCtx) cartResponse false [] (some [1, 2, 3]) =
      (ResponseCache.withRules 60 3600 .empty, false) := by
  have hseen : MarkSeen cartResponse := Or.inl ⟨line "session=7f3a", by decide, by decide⟩
  refine (captureResponse_unstored_iff_markSeen rfl (by decide) (by decide)
    (by decide) 0 false [] (some [1, 2, 3])).mpr ?_
  exact Or.inr (Or.inr (Or.inr ⟨rfl, hseen⟩))

/-- One rule for all pages; upstream cache control is to be respected. -/
def pagesDoc : CacheConfigDoc :=
  { version := 1
    defaults := { respectUpstreamCacheControl := true }
    rules :=
      [{ id := "pages".toList
         match_ := { host := none, path := .pathPrefix "/".toList, methods := none }
         ttlSeconds := 60
         tags := ["page".toList]
         allowAuthenticated := false }] }

theorem route_rule_stores_cart :
    exists set, CompiledRuleSet.tryFromDoc (fun _ => none) pagesDoc = .ok set ∧
      set.defaults.respectUpstreamCacheControl = true ∧
      (captureResponse (ResponseCache.withRules 60 3600 set) 0
        (pendingFor visitorCtx) cartResponse false [] (some [1, 2, 3])).2 = true :=
  ⟨_, rfl, rfl, by decide +kernel⟩

/-!
## Complete bodies

The record keeps the body up to the limit, and nothing marks a record that was
cut.
-/

def StoresWhole (cache : ResponseCache MokaStore) (now : Time) (key : Text)
    (body : Bytes) (result : ResponseCache MokaStore × Bool) : Prop :=
  (result.2 = true ->
    exists entry, result.1.backend.inner.lookup key = some entry ∧
      entry.insertedAt = now ∧ entry.response.body = body) ∧
  (responseCacheBodyLimit < body.length -> result = (cache, false))

theorem captureResponse_of_accepts {cache : ResponseCache MokaStore}
    {ctx : RequestCtx} {resp : ResponseHeader} {bodyMaskEnabled : Bool}
    (h : ¬ Refuses cache ctx resp bodyMaskEnabled) (now : Time)
    (chunks : List (Option Bytes)) (last : Option Bytes) :
    exists ttl, exists tags : List Text,
      cache.verdict (putFor ctx resp []) = .cache ttl tags ∧
      (captureResponse cache now (pendingFor ctx) resp bodyMaskEnabled chunks
        last).2 = true ∧
      (captureResponse cache now (pendingFor ctx) resp bodyMaskEnabled chunks
          last).1.backend.inner.lookup (cacheKey ctx) =
        some
          { response :=
              (putFor ctx resp
                ((streamBody chunks last).take responseCacheBodyLimit)).response
                ttl
            insertedAt := now } := by
  rcases not_or.mp h with ⟨heligible, hrest⟩
  rcases not_or.mp hrest with ⟨hcapture, hbypass⟩
  rcases cache.verdict_cases (putFor ctx resp []) with hrefuse | ⟨ttl, tags, hv⟩
  · exact absurd hrefuse hbypass
  · refine ⟨ttl, tags, hv, ?_⟩
    rw [captureResponse_of_captures cache now chunks last
      (Decidable.not_not.mp heligible) hcapture]
    have hverdict : cache.verdict (putFor ctx resp
        ((streamBody chunks last).take responseCacheBodyLimit)) =
          .cache ttl tags := hv
    constructor
    · rw [ResponseCache.put_of_cache now hverdict]
    · exact ResponseCache.lookup_put_of_cache now hverdict

theorem captureResponse_storesWhole_iff (cache : ResponseCache MokaStore)
    (now : Time) (ctx : RequestCtx) (resp : ResponseHeader)
    (bodyMaskEnabled : Bool) (chunks : List (Option Bytes)) (last : Option Bytes) :
    StoresWhole cache now (cacheKey ctx) (streamBody chunks last)
        (captureResponse cache now (pendingFor ctx) resp bodyMaskEnabled chunks last) <->
      Refuses cache ctx resp bodyMaskEnabled ∨
        (streamBody chunks last).length ≤ responseCacheBodyLimit := by
  rcases Classical.em (Refuses cache ctx resp bodyMaskEnabled) with hrefuses | haccepts
  · have hunstored := (captureResponse_unstored_iff cache now ctx resp
      bodyMaskEnabled chunks last).mpr hrefuses
    refine ⟨fun _ => Or.inl hrefuses, fun _ => ?_⟩
    rw [hunstored]
    exact ⟨fun h => Bool.noConfusion h, fun _ => rfl⟩
  · rcases captureResponse_of_accepts haccepts now chunks last with ⟨ttl, tags, _, hstored, hlookup⟩
    constructor
    · intro hwhole
      apply Or.inr
      apply Nat.not_lt.mp
      intro hlong
      rw [hwhole.right hlong] at hstored
      cases hstored
    · intro hcond
      have hshort := hcond.resolve_left haccepts
      refine ⟨fun _ => ⟨_, hlookup, rfl, ?_⟩, ?_⟩
      · exact List.take_of_length_le hshort
      · intro hlong
        exact absurd hshort (Nat.not_le.mpr hlong)

def pageResponse : ResponseHeader :=
  { status := 200, headers := [] }

theorem pageResponse_accepted (maxTtl : Nat) :
    ¬ Refuses (ResponseCache.withRules 60 maxTtl .empty) visitorCtx pageResponse
      false := by
  rintro (heligible | hdeclines | ⟨reason, hbypass⟩)
  · exact heligible (by decide)
  · exact absurd hdeclines (by decide)
  · cases hbypass

/-- A body one byte over the limit is stored without its last byte. -/
theorem oversized_body_stored_cut :
    exists result entry, captureResponse (ResponseCache.withRules 60 3600 .empty) 0
          (pendingFor visitorCtx) pageResponse false []
          (some (List.replicate (responseCacheBodyLimit + 1) 0)) = result ∧ result.2 = true ∧
        result.1.backend.inner.lookup (cacheKey visitorCtx) = some entry ∧
        entry.response.body = List.replicate responseCacheBodyLimit 0 := by
  rcases captureResponse_of_accepts (pageResponse_accepted 3600) 0 []
      (some (List.replicate (responseCacheBodyLimit + 1) 0)) with ⟨ttl, tags, _, hstored, hlookup⟩
  refine ⟨_, _, rfl, hstored, hlookup, ?_⟩
  exact List.take_replicate.trans (by rw [Nat.min_eq_left (Nat.le_succ _)])

/-!
## Keys of different sites

The key holds the host name of the site and not its port, and a colon between
the parts that may also stand inside them.
-/

def target (ctx : RequestCtx) : Text :=
  if ctx.query = [] then ctx.path else ctx.path ++ '?' :: ctx.query

theorem cacheKey_eq (ctx : RequestCtx) :
    cacheKey ctx = ctx.method ++ ':' :: (ctx.host ++ ':' :: target ctx) := by
  rw [cacheKey, ResponseCache.makeKey, target]
  split
  · rw [List.append_assoc, List.cons_append]
  · rw [List.append_assoc, List.append_assoc, List.cons_append, List.cons_append]

/-- Two ports of one host with the same target, or a host name that goes on
where the target of the other begins. -/
def KeysCollide (siteA siteB : HostConfig) (targetA targetB : Text) : Prop :=
  (siteA.host = siteB.host ∧ siteA.port ≠ siteB.port ∧ targetA = targetB) ∨
    (exists w, siteB.host = siteA.host ++ ':' :: w ∧ targetA = w ++ ':' :: targetB) ∨
    (exists w, siteA.host = siteB.host ++ ':' :: w ∧ targetB = w ++ ':' :: targetA)

theorem keysCollide_iff_of_no_colon {siteA siteB : HostConfig}
    {targetA targetB : Text} (hA : ':' ∉ siteA.host) (hB : ':' ∉ siteB.host) :
    KeysCollide siteA siteB targetA targetB <-> siteA.host = siteB.host ∧ siteA.port ≠ siteB.port ∧
        targetA = targetB := by
  constructor
  · rintro (hsame | ⟨w, hhost, _⟩ | ⟨w, hhost, _⟩)
    · exact hsame
    · apply absurd _ hB
      rw [hhost]
      exact List.mem_append_right _ List.mem_cons_self
    · apply absurd _ hA
      rw [hhost]
      exact List.mem_append_right _ List.mem_cons_self
  · exact Or.inl

theorem cacheKey_ne_iff {router : HostRouter} {registry : Option TierRegistry}
    {reqA reqB : Request} {siteA siteB : HostConfig} {ctxA ctxB : RequestCtx}
    (hrouteA : router.resolve reqA.hostHeader = some siteA)
    (hrouteB : router.resolve reqB.hostHeader = some siteB)
    (hctxA : requestCtx router registry reqA = some ctxA)
    (hctxB : requestCtx router registry reqB = some ctxB)
    (hgetA : reqA.method = "GET".toList) (hgetB : reqB.method = "GET".toList)
    (hsites : (siteA.host, siteA.port) ≠ (siteB.host, siteB.port)) :
    cacheKey ctxA ≠ cacheKey ctxB <-> ¬ KeysCollide siteA siteB (target ctxA) (target ctxB) := by
  rw [requestCtx, hrouteA, Option.map_some, Option.some.injEq] at hctxA
  rw [requestCtx, hrouteB, Option.map_some, Option.some.injEq] at hctxB
  have hhostA : ctxA.host = siteA.host := by rw [← hctxA]; rfl
  have hhostB : ctxB.host = siteB.host := by rw [← hctxB]; rfl
  have hmethod : ctxA.method = ctxB.method := by
    rw [← hctxA, ← hctxB]
    exact hgetA.trans hgetB.symm
  have hports : siteA.host = siteB.host -> siteA.port ≠ siteB.port := by
    intro hhost hport
    apply hsites
    rw [hhost, hport]
  rw [ne_eq, not_iff_not, cacheKey_eq, cacheKey_eq, hmethod,
    List.append_cancel_left_eq, List.cons.injEq, Text.append_cons_eq_iff, hhostA,
    hhostB, KeysCollide]
  constructor
  · rintro ⟨_, ⟨hhost, htarget⟩ | hcolon⟩
    · exact Or.inl ⟨hhost, hports hhost, htarget⟩
    · exact Or.inr hcolon
  · rintro (⟨hhost, _, htarget⟩ | hcolon)
    · exact ⟨rfl, Or.inl ⟨hhost, htarget⟩⟩
    · exact ⟨rfl, Or.inr hcolon⟩

def shopSite : HostConfig :=
  { host := "shop.test".toList, port := 443 }

def adminSite : HostConfig :=
  { host := "shop.test".toList, port := 8443 }

def mallSite : HostConfig :=
  { host := "mall.test".toList, port := 443 }

/-- A shop with its administration on another port, and a second shop. -/
def sites : HostRouter :=
  ((HostRouter.new.register shopSite).register adminSite).register mallSite

def cachingTiers : TierRegistry :=
  fun _ => (.medium, .default 120)

def getRoot (host : HeaderValue) : Request :=
  { method := "GET".toList
    isToken := by decide
    path := "/".toList
    query := none
    headers := [(hostName, host)] }

theorem cacheKey_ne_shop_mall :
    cacheKey (buildRequestCtx (some cachingTiers) shopSite (getRoot (line "shop.test"))) ≠
      cacheKey (buildRequestCtx (some cachingTiers) mallSite (getRoot (line "mall.test"))) := by
  have hshop : sites.resolve (getRoot (line "shop.test")).hostHeader =
      some shopSite := by decide +kernel
  have hmall : sites.resolve (getRoot (line "mall.test")).hostHeader =
      some mallSite := by decide +kernel
  refine (cacheKey_ne_iff hshop hmall (congrArg _ hshop) (congrArg _ hmall) rfl
    rfl (by decide)).mpr ?_
  rw [keysCollide_iff_of_no_colon (by decide) (by decide)]
  rintro ⟨hhost, _⟩
  exact absurd hhost (by decide)

/-- The page of one port is captured and answers a request to the other. -/
theorem admin_page_served_by_shop :
    exists ctxA ctxB stored,
      requestCtx sites (some cachingTiers) (getRoot (line "shop.test:8443")) = some ctxA ∧
        requestCtx sites (some cachingTiers) (getRoot (line "shop.test")) = some ctxB ∧
        (ctxA.port, ctxB.port) = (8443, 443) ∧
        captureResponse (ResponseCache.withRules 60 3600 .empty) 0
            (cacheLookup (ResponseCache.withRules 60 3600 .empty) 0 ctxA).2.pending?
            pageResponse false [] (some [42]) = stored ∧
        (cacheLookup stored.1 1 ctxB).2.answer?.map CachedResponse.body = some [42] :=
  ⟨_, _, _, rfl, rfl, by decide +kernel, rfl, by decide +kernel⟩

end Gateway
end PrxWaf
