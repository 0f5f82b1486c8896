import PrxWaf.Cache.CriticalTier
import PrxWaf.Cache.Freshness
import PrxWaf.Gateway.CacheSafety

/-!
# Replaying a cached response

The header lines of a response are kept as pairs of texts and made into header
lines again when the response is replayed.  On the way in a line that is not
readable is left out, and on the way out a line takes the place of every earlier
line of its name.
-/

namespace PrxWaf
namespace Gateway

open Lib Http Cache

def statusFromU16 (status : UInt16) : Option UInt16 :=
  if 100 ≤ status ∧ status < 1000 then some status else none

/-- `ResponseHeader::insert_header` with texts; its errors are ignored. -/
def insertHeaderLine (headers : HeaderMap) (pair : Text × Text) : HeaderMap :=
  match HeaderName.fromBytes pair.1, HeaderValue.fromStr pair.2 with
  | some name, some v => HeaderMap.insert headers name v
  | _, _ => headers

def writeCachedEntry (entry : CachedResponse) : ResponseHeader × Bytes :=
  ({ status := (statusFromU16 entry.status).getD 200
     headers := entry.headers.foldl insertHeaderLine [] },
    entry.body)

/-- The response is sent with its status, its header lines in some order, and its
body. -/
structure SentAs (resp : ResponseHeader) (body : Bytes) (sent : ResponseHeader × Bytes) : Prop where
  status : sent.1.status = resp.status
  headers : List.Perm sent.1.headers resp.headers
  body : sent.2 = body

/-- The line can be kept as texts and made into a line again. -/
def Replayable (headerLine : HeaderName × HeaderValue) : Prop :=
  headerLine.2.toStr.isSome = true ∧ headerLine.1.text.length ≤ HeaderName.maxLen

instance (headerLine : HeaderName × HeaderValue) : Decidable (Replayable headerLine) :=
  inferInstanceAs (Decidable (_ ∧ _))

/-- The header lines that are sent for those of a captured response. -/
def replayedLines (headers : HeaderMap) : HeaderMap :=
  (headers.filter (fun headerLine => Replayable headerLine)).foldl
    (fun sent headerLine => HeaderMap.insert sent headerLine.1 headerLine.2) []

variable {headerLine : HeaderName × HeaderValue}

theorem insertHeaderLine_of_replayable {value : Text} (sent : HeaderMap) (h : Replayable headerLine)
    (hvalue : headerLine.2.toStr = some value) :
    insertHeaderLine sent (headerLine.1.text, value) =
      HeaderMap.insert sent headerLine.1 headerLine.2 := by
  unfold insertHeaderLine
  rw [HeaderName.fromBytes_text h.2, HeaderValue.fromStr_of_toStr hvalue]

theorem insertHeaderLine_of_long
    (value : Text) (sent : HeaderMap) (h : ¬ headerLine.1.text.length ≤ HeaderName.maxLen) :
    insertHeaderLine sent (headerLine.1.text, value) = sent := by
  have hname : HeaderName.fromBytes headerLine.1.text = none := dif_neg (fun hboth => h hboth.2)
  unfold insertHeaderLine
  rw [hname]

theorem foldl_collect (resp : ResponseHeader) (sent : HeaderMap) :
    (collectResponseHeaders resp).foldl insertHeaderLine sent =
      (resp.headers.filter (fun headerLine => Replayable headerLine)).foldl (fun sent headerLine =>
          HeaderMap.insert sent headerLine.1 headerLine.2) sent := by
  unfold collectResponseHeaders
  induction resp.headers generalizing sent with
  | nil => rfl
  | cons headerLine rest ih =>
    cases hvalue : headerLine.2.toStr with
    | none =>
      have hnot : ¬ Replayable headerLine := by
        intro h
        have hreadable := h.1
        rw [hvalue] at hreadable
        cases hreadable
      rw [List.filterMap_cons_none (by rw [hvalue]; rfl),
        List.filter_cons_of_neg (by simpa using hnot)]
      exact ih sent
    | some value =>
      rw [List.filterMap_cons_some (by rw [hvalue]; rfl), List.foldl_cons]
      rcases Decidable.em (Replayable headerLine) with hgood | hbad
      · rw [insertHeaderLine_of_replayable sent hgood hvalue,
          List.filter_cons_of_pos (by simpa using hgood), List.foldl_cons]
        exact ih _
      · have hlong : ¬ headerLine.1.text.length ≤ HeaderName.maxLen := by
          intro hshort
          exact hbad ⟨by rw [hvalue]; rfl, hshort⟩
        rw [insertHeaderLine_of_long value sent hlong,
          List.filter_cons_of_neg (by simpa using hbad)]
        exact ih sent

variable (cache : ResponseCache MokaStore) (ctx : RequestCtx) (now : Time)
  {resp : ResponseHeader} {headers : HeaderMap}

theorem mem_insert {added : HeaderName × HeaderValue}
    (h : headerLine ∈ HeaderMap.insert headers added.1 added.2) :
    headerLine ∈ headers ∨ headerLine = added := by
  rcases List.mem_append.mp h with hold | hnew
  · exact Or.inl (List.mem_filter.mp hold).1
  · exact Or.inr (List.mem_singleton.mp hnew)

theorem nodup_insert (name : HeaderName) (v : HeaderValue) (h : (headers.map Prod.fst).Nodup) :
    ((HeaderMap.insert headers name v).map Prod.fst).Nodup := by
  unfold HeaderMap.insert
  rw [List.map_append, List.map_singleton]
  refine List.Nodup.append ?_ (List.nodup_singleton name) ?_
  · exact h.sublist (List.filter_sublist.map Prod.fst)
  · rw [List.disjoint_singleton]
    intro hmem
    rcases List.mem_map.mp hmem with ⟨headerLine, hline, hname⟩
    have hne := (List.mem_filter.mp hline).2
    simp [hname] at hne

theorem foldl_insert_invariant (lines sent : HeaderMap) {P : HeaderName × HeaderValue -> Prop}
    (hlines : forall headerLine, headerLine ∈ lines -> P headerLine)
    (hsent : forall headerLine, headerLine ∈ sent -> P headerLine)
    (hnodup : (sent.map Prod.fst).Nodup) :
    (forall headerLine, headerLine ∈ lines.foldl (fun sent headerLine =>
        HeaderMap.insert sent headerLine.1 headerLine.2) sent -> P headerLine) ∧
      ((lines.foldl (fun sent headerLine =>
        HeaderMap.insert sent headerLine.1 headerLine.2) sent).map Prod.fst).Nodup := by
  induction lines generalizing sent with
  | nil => exact ⟨hsent, hnodup⟩
  | cons added rest ih =>
    refine ih _ (fun headerLine h => hlines headerLine
      (List.mem_cons_of_mem added h)) ?_ (nodup_insert added.1 added.2 hnodup)
    intro headerLine h
    rcases mem_insert h with hold | hnew
    · exact hsent headerLine hold
    · rw [hnew]
      exact hlines added List.mem_cons_self

theorem foldl_insert_of_nodup {lines sent : HeaderMap} (h : ((sent ++ lines).map Prod.fst).Nodup) :
    lines.foldl (fun sent headerLine =>
      HeaderMap.insert sent headerLine.1 headerLine.2) sent = sent ++ lines := by
  induction lines generalizing sent with
  | nil => exact (List.append_nil sent).symm
  | cons added rest ih =>
    have hnew : HeaderMap.insert sent added.1 added.2 = sent ++ [added] := by
      unfold HeaderMap.insert
      congr 1
      refine List.filter_eq_self.mpr ?_
      intro headerLine hline
      rw [List.map_append, List.map_cons] at h
      have hdisjoint := (List.nodup_append.mp h).2.2 headerLine.1
        (List.mem_map_of_mem hline) added.1 List.mem_cons_self
      simpa using hdisjoint
    have hsplit : sent ++ added :: rest = (sent ++ [added]) ++ rest := by
      rw [List.append_assoc, List.singleton_append]
    rw [hsplit] at h ⊢
    rw [List.foldl_cons, hnew]
    exact ih h

theorem replayedLines_perm_iff (headers : HeaderMap) :
    List.Perm (replayedLines headers) headers <-> (headers.map Prod.fst).Nodup ∧
        forall headerLine, headerLine ∈ headers -> Replayable headerLine := by
  constructor
  · intro hperm
    obtain ⟨hgood, hnodup⟩ := foldl_insert_invariant
      (headers.filter (fun headerLine => Replayable headerLine)) [] (P := Replayable)
      (fun headerLine h => by simpa using (List.mem_filter.mp h).2)
      (fun headerLine h => by cases h) List.nodup_nil
    refine ⟨(hperm.map Prod.fst).nodup_iff.mp hnodup, ?_⟩
    intro headerLine hline
    exact hgood headerLine (hperm.mem_iff.mpr hline)
  · rintro ⟨hnodup, hgood⟩
    have hall : headers.filter (fun headerLine => Replayable headerLine) =
        headers := List.filter_eq_self.mpr (fun headerLine h => by
        simpa using hgood headerLine h)
    unfold replayedLines
    rw [hall, foldl_insert_of_nodup (by simpa using hnodup), List.nil_append]

/-! ## A captured response -/

theorem statusFromU16_of_success {status : UInt16} (h : IsSuccess status) :
    statusFromU16 status = some status := by
  have hlow : (100 : UInt16) ≤ 200 := by decide
  have hhigh : (300 : UInt16) < 1000 := by decide
  exact if_pos ⟨UInt16.le_trans hlow h.1, UInt16.lt_trans h.2 hhigh⟩

theorem writeCachedEntry_putFor (hstatus : IsSuccess resp.status) (body : Bytes) (ttl : Nat) :
    writeCachedEntry ((putFor ctx resp body).response ttl) =
      ({ status := resp.status, headers := replayedLines resp.headers }, body) := by
  have hlines : (collectResponseHeaders resp).foldl insertHeaderLine [] =
      replayedLines resp.headers := foldl_collect resp []
  dsimp only [writeCachedEntry, PutRequest.response, putFor]
  rw [statusFromU16_of_success hstatus, hlines]
  rfl

theorem sentAs_captured_iff (hstatus : IsSuccess resp.status) (body : Bytes) (ttl : Nat) :
    SentAs resp body (writeCachedEntry ((putFor ctx resp body).response ttl)) <->
      (resp.headers.map Prod.fst).Nodup ∧ forall headerLine, headerLine ∈ resp.headers ->
          Replayable headerLine := by
  rw [writeCachedEntry_putFor ctx hstatus body ttl, ← replayedLines_perm_iff]
  exact ⟨fun h => h.headers, fun h => ⟨rfl, h, rfl⟩⟩

theorem cacheGet_eq (key : Text) (tier : Tier) :
    cache.get now key tier =
      (cache, if tier = .critical then none else cache.backend.get now key) := by
  unfold ResponseCache.get
  split
  · rfl
  · rfl

theorem cacheLookup_cache (ctx : RequestCtx) : (cacheLookup cache now ctx).1 = cache := by
  unfold cacheLookup
  split
  · dsimp only
    rw [cacheGet_eq]
    split
    · rfl
    · rfl
  · rfl

theorem cacheLookup_hit_iff {cache : ResponseCache MokaStore} {now : Time}
    {ctx : RequestCtx} {entry : CachedResponse} :
    (cacheLookup cache now ctx).2 = .hit entry <-> CacheEligible ctx ∧ ctx.tier ≠ .critical ∧
        cache.backend.get now (cacheKey ctx) = some entry := by
  unfold cacheLookup
  rcases Decidable.em (CacheEligible ctx) with heligible | hnot
  · rw [if_pos heligible]
    dsimp only
    rw [cacheGet_eq]
    rcases Decidable.em (ctx.tier = .critical) with htier | htier
    · rw [if_pos htier]
      constructor
      · intro h
        cases h
      · intro h
        exact absurd htier h.2.1
    · rw [if_neg htier]
      cases cache.backend.get now (cacheKey ctx) with
      | none =>
        constructor
        · intro h
          cases h
        · intro h
          cases h.2.2
      | some found =>
        constructor
        · intro h
          injection h with h
          exact ⟨heligible, htier, congrArg some h⟩
        · intro h
          injection h.2.2 with hfound
          rw [hfound]
  · rw [if_neg hnot]
    constructor
    · intro h
      cases h
    · intro h
      exact absurd h.1 hnot

/-- The cache is set up as before: nothing but its entries and their tags has
changed. -/
structure SameSetup (before after : ResponseCache MokaStore) : Prop where
  rules : after.rules = before.rules
  defaultTtl : after.defaultTtl = before.defaultTtl
  maxTtl : after.maxTtl = before.maxTtl
  maxTtlSecs : after.backend.maxTtlSecs = before.backend.maxTtlSecs

theorem captureResponse_sameSetup (ctx : RequestCtx) (resp : ResponseHeader)
    (bodyMaskEnabled : Bool) (chunks : List (Option Bytes)) (last : Option Bytes) :
    SameSetup cache (captureResponse cache now (pendingFor ctx) resp
      bodyMaskEnabled chunks last).1 := by
  rcases Decidable.em (¬ CacheEligible ctx ∨ Declines resp bodyMaskEnabled) with
    hdeclines | hcaptures
  · rw [captureResponse_of_declines cache now chunks last hdeclines]
    exact ⟨rfl, rfl, rfl, rfl⟩
  · obtain ⟨heligible, hcapture⟩ := not_or.mp hcaptures
    rw [captureResponse_of_captures cache now chunks last (Decidable.not_not.mp heligible) hcapture]
    rcases cache.verdict_cases (putFor ctx resp
        ((streamBody chunks last).take responseCacheBodyLimit)) with
      ⟨reason, hbypass⟩ | ⟨ttl, tags, hcache⟩
    · rw [ResponseCache.put_of_bypass now hbypass]
      exact ⟨rfl, rfl, rfl, rfl⟩
    · rw [ResponseCache.put_of_cache now hcache]
      exact ⟨rfl, rfl, rfl, rfl⟩

theorem captureResponse_of_stored {cache : ResponseCache MokaStore} {now : Time}
    {ctx : RequestCtx} {bodyMaskEnabled : Bool} {chunks : List (Option Bytes)} {last : Option Bytes}
    (hstored : (captureResponse cache now (pendingFor ctx) resp bodyMaskEnabled
      chunks last).2 = true) :
    CacheEligible ctx ∧ ctx.tier ≠ .critical ∧ IsSuccess resp.status ∧
      exists ttl, (captureResponse cache now (pendingFor ctx) resp
          bodyMaskEnabled chunks last).1.backend.inner.lookup (cacheKey ctx) = some {
          response := (putFor ctx resp ((streamBody chunks last).take
            responseCacheBodyLimit)).response ttl
          insertedAt := now } := by
  have haccepts : ¬ Refuses cache ctx resp bodyMaskEnabled := by
    intro hrefuses
    rw [(captureResponse_unstored_iff cache now ctx resp bodyMaskEnabled chunks
      last).mpr hrefuses] at hstored
    cases hstored
  obtain ⟨ttl, tags, hverdict, _, hlookup⟩ := captureResponse_of_accepts haccepts now chunks last
  obtain ⟨heligible, hrest⟩ := not_or.mp haccepts
  have hstatus : IsSuccess resp.status := by
    refine Decidable.not_not.mp (fun hnot => hrest (Or.inl ?_))
    exact Or.inr (Or.inr (Or.inl hnot))
  have htier : ctx.tier ≠ .critical := by
    intro hcritical
    have hkept : (putFor ctx resp []).KeptOut := Or.inl hcritical
    obtain ⟨reason, hbypass⟩ := verdict_of_keptOut cache hkept
    rw [hverdict] at hbypass
    cases hbypass
  exact ⟨Decidable.not_not.mp heligible, htier, hstatus, ttl, hlookup⟩

/-- A response that was stored, and is found again, is replayed as it was exactly
when it has no header name twice and only lines that can be kept. -/
theorem replayed_iff {cache : ResponseCache MokaStore} {now : Time}
    {ctx : RequestCtx} {resp : ResponseHeader} {bodyMaskEnabled : Bool}
    {chunks : List (Option Bytes)} {last : Option Bytes}
    (hstored : (captureResponse cache now (pendingFor ctx) resp bodyMaskEnabled
      chunks last).2 = true) (hlimit : (streamBody chunks last).length ≤ responseCacheBodyLimit) :
    (forall later other entry, now ≤ later -> cacheKey other = cacheKey ctx ->
        (cacheLookup (captureResponse cache now (pendingFor ctx) resp
          bodyMaskEnabled chunks last).1 later other).2 = .hit entry ->
        SentAs resp (streamBody chunks last) (writeCachedEntry entry)) <->
      cache.backend.maxTtlSecs = 0 ∨ (resp.headers.map Prod.fst).Nodup ∧
          forall headerLine, headerLine ∈ resp.headers -> Replayable headerLine := by
  obtain ⟨heligible, htier, hstatus, ttl, hlookup⟩ := captureResponse_of_stored hstored
  have hmax := (captureResponse_sameSetup cache now ctx resp bodyMaskEnabled chunks last).maxTtlSecs
  have hsent := sentAs_captured_iff ctx hstatus (streamBody chunks last) ttl
  rw [List.take_of_length_le hlimit] at hlookup
  constructor
  · intro hfaithful
    rcases Nat.eq_zero_or_pos cache.backend.maxTtlSecs with hzero | hpos
    · exact Or.inl hzero
    · have hfresh : now < now + cache.backend.maxTtlSecs * nanosPerSec :=
        Nat.lt_add_of_pos_right (Nat.mul_pos hpos (by decide))
      rw [← hmax] at hfresh
      have hget := MokaStore.get_eq_some_iff.mpr ⟨_, hlookup, rfl, hfresh⟩
      exact Or.inr (hsent.mp (hfaithful now ctx _ (Nat.le_refl now) rfl
        (cacheLookup_hit_iff.mpr ⟨heligible, htier, hget⟩)))
  · intro hcases later other entry hlater hkey hhit
    obtain ⟨_, _, hget⟩ := cacheLookup_hit_iff.mp hhit
    rw [hkey] at hget
    obtain ⟨found, hfound, hresponse, hfresh⟩ := MokaStore.get_eq_some_iff.mp hget
    rw [hlookup] at hfound
    cases hfound
    rcases hcases with hzero | hlines
    · rw [hmax, hzero, Nat.zero_mul] at hfresh
      exact absurd hfresh (Nat.not_lt.mpr hlater)
    · rw [← hresponse]
      exact hsent.mpr hlines

def linkName : HeaderName :=
  headerName "link"

def typedPage : ResponseHeader :=
  { status := 200
    headers := [(headerName "content-type", line "text/html"),
      (cacheControlName, line "max-age=3600")] }

def linkedPage : ResponseHeader :=
  { status := 200
    headers := [(linkName, line "</a.css>"), (linkName, line "</b.css>"),
      (headerName "x-author", { bytes := [0xe9], valid := by decide })] }

theorem typed_page_replayed :
    exists entry, (cacheLookup (captureResponse (ResponseCache.withRules 60 3600 .empty) 0
        (pendingFor visitorCtx) typedPage false [] (some [42])).1 1 visitorCtx).2 = .hit entry ∧
      SentAs typedPage [42] (writeCachedEntry entry) := by
  have hstored : (captureResponse (ResponseCache.withRules 60 3600 .empty) 0
      (pendingFor visitorCtx) typedPage false [] (some [42])).2 = true := by
    decide +kernel
  refine ⟨_, rfl, ?_⟩
  exact (replayed_iff hstored (by decide)).mpr (Or.inr (by decide)) 1 visitorCtx
    _ (by decide) rfl rfl

/-- The first link and the name are lost. -/
theorem linked_page_loses_lines :
    exists entry, (captureResponse (ResponseCache.withRules 60 3600 .empty) 0
        (pendingFor visitorCtx) linkedPage false [] (some [42])).2 = true ∧
      (cacheLookup (captureResponse (ResponseCache.withRules 60 3600 .empty) 0
        (pendingFor visitorCtx) linkedPage false [] (some [42])).1 1 visitorCtx).2 = .hit entry ∧
      (writeCachedEntry entry).1.headers = [(linkName, line "</b.css>")] ∧
      ¬ SentAs linkedPage [42] (writeCachedEntry entry) := by
  refine ⟨_, by decide +kernel, rfl, by decide +kernel, ?_⟩
  intro hsent
  have hlength := hsent.headers.length_eq
  revert hlength
  decide +kernel

end Gateway
end PrxWaf
