import PrxWaf.Gateway.CacheReplay

/-!
# Partial responses

A request with a `Range` header is answered with a part of the page.  The key of
the cache does not hold the header, and every successful status may be stored, so a
part may be stored under the key of the page.  The requests for one page are run
through the cache here.
-/

namespace PrxWaf
namespace Gateway

open Lib Http Cache

def rangeName : HeaderName :=
  headerName "range"

def AsksForPart (req : Request) : Prop :=
  (HeaderMap.get req.headers rangeName).isSome = true

instance (req : Request) : Decidable (AsksForPart req) :=
  inferInstanceAs (Decidable (_ = _))

/-- A page with the site that has it and the upstream that serves it: whole to a
plain request and in part to one with a range. -/
structure Page where
  registry : Option TierRegistry
  config : HostConfig
  bodyMaskEnabled : Bool
  path : Text
  query : Option Text
  bytes : Bytes
  respond : Time -> Request -> ResponseHeader × Bytes
  whole : forall now req, ¬ AsksForPart req ->
    (respond now req).1.status = 200 ∧ (respond now req).2 = bytes
  part : forall now req, AsksForPart req -> (respond now req).1.status = 206

namespace Page

variable (page : Page)

def IsFor (req : Request) : Prop :=
  req.method = "GET".toList ∧ req.path = page.path ∧ req.query = page.query

def ctx (req : Request) : RequestCtx :=
  buildRequestCtx page.registry page.config req

def Answerable (req : Request) : Prop :=
  CacheEligible (page.ctx req) ∧ (page.ctx req).tier ≠ .critical

def key : Text :=
  ResponseCache.makeKey "GET".toList page.config.host page.path (page.query.getD [])

variable {page}

variable {req : Request} {now : Time}

theorem cacheKey_ctx (h : page.IsFor req) :
    cacheKey (page.ctx req) = page.key := by
  obtain ⟨hmethod, hpath, hquery⟩ := h
  unfold key
  rw [← hmethod, ← hpath, ← hquery]
  rfl

/-- A request and the chunks in which the answer to it comes, if the upstream is
asked. -/
structure Exchange where
  now : Time
  request : Request
  chunks : List (Option Bytes)
  last : Option Bytes

structure Visited where
  clock : Time
  cache : ResponseCache MokaStore

/-- The exchange is for the page, in time, and with the bytes of the answer. -/
def Valid (page : Page) (s : Visited) (exchange : Exchange) : Prop :=
  s.clock ≤ exchange.now ∧ page.IsFor exchange.request ∧
    streamBody exchange.chunks exchange.last = (page.respond exchange.now exchange.request).2

instance (page : Page) (s : Visited) (exchange : Exchange) : Decidable (page.Valid s exchange) :=
  have : Decidable (page.IsFor exchange.request) := inferInstanceAs (Decidable (_ ∧ _ ∧ _))
  inferInstanceAs (Decidable (_ ∧ _ ∧ _))

/-- The request is answered from the cache, or the answer of the upstream is
captured. -/
def visit (page : Page) (cache : ResponseCache MokaStore)
    (exchange : Exchange) : ResponseCache MokaStore :=
  let looked := cacheLookup cache exchange.now (page.ctx exchange.request)
  match looked.2 with
  | .hit _ => looked.1
  | _ =>
    (captureResponse looked.1 exchange.now looked.2.pending?
      (page.respond exchange.now exchange.request).1 page.bodyMaskEnabled
      exchange.chunks exchange.last).1

def step (page : Page) (s : Visited) (exchange : Exchange) : Option Visited :=
  if page.Valid s exchange then
    some { clock := exchange.now, cache := page.visit s.cache exchange }
  else none

def start (rules : CompiledRuleSet) (defaultTtlSecs maxTtlSecs : Nat) : Visited :=
  { clock := 0
    cache := ResponseCache.withRules defaultTtlSecs maxTtlSecs rules }

def ServesWhole (page : Page) (s : Visited) : Prop :=
  forall now req entry, s.clock ≤ now -> page.IsFor req ->
    ¬ AsksForPart req ->
    (cacheLookup s.cache now (page.ctx req)).2 = .hit entry ->
      (writeCachedEntry entry).1.status ≠ 206 ∧ (writeCachedEntry entry).2 = page.bytes

/-- No part is stored, and the whole page only if it is not cut. -/
def StoresOnlyWhole (page : Page) (cache : ResponseCache MokaStore) : Prop :=
  forall now req, page.IsFor req -> Refuses cache (page.ctx req) (page.respond now req).1
        page.bodyMaskEnabled ∨
      ¬ AsksForPart req ∧ page.bytes.length ≤ responseCacheBodyLimit

/-!
## Runs

The entry under the key of the page was stored by an exchange of the run, so it is whole if
only whole answers are stored.
-/

theorem visit_cases (page : Page) (cache : ResponseCache MokaStore) (exchange : Exchange) :
    (exists entry, (cacheLookup cache exchange.now (page.ctx exchange.request)).2 = .hit entry ∧
        page.visit cache exchange = cache) ∨ page.visit cache exchange =
        (captureResponse cache exchange.now (pendingFor (page.ctx exchange.request))
          (page.respond exchange.now exchange.request).1 page.bodyMaskEnabled
          exchange.chunks exchange.last).1 := by
  have hcache := cacheLookup_cache cache exchange.now (page.ctx exchange.request)
  unfold visit
  dsimp only
  rw [hcache]
  rcases cacheLookup_pending cache exchange.now (page.ctx exchange.request) with
    hpending | ⟨entry, hhit⟩
  · rw [hpending]
    split
    · rename_i entry hhit
      exact Or.inl ⟨entry, hhit, rfl⟩
    · exact Or.inr rfl
  · rw [hhit]
    exact Or.inl ⟨entry, rfl, rfl⟩

/-- What the cache knows of the page. -/
structure Invariant (page : Page) (first : ResponseCache MokaStore) (s : Visited) : Prop where
  setup : SameSetup first s.cache
  arrived : forall entry, s.cache.backend.inner.lookup page.key = some entry ->
    entry.insertedAt ≤ s.clock
  whole : page.StoresOnlyWhole first -> forall entry,
    s.cache.backend.inner.lookup page.key = some entry ->
      entry.response.status = 200 ∧ entry.response.body = page.bytes

theorem refuses_of_sameSetup {before after : ResponseCache MokaStore}
    (h : SameSetup before after) (ctx : RequestCtx) (resp : ResponseHeader)
    (bodyMaskEnabled : Bool) :
    Refuses after ctx resp bodyMaskEnabled <-> Refuses before ctx resp bodyMaskEnabled := by
  unfold Refuses ResponseCache.verdict ResponseCache.ctxOf
  rw [h.rules, h.defaultTtl, h.maxTtl]

variable {s : Visited}

variable {exchange : Exchange} {first : ResponseCache MokaStore}

theorem capture_cases (h : page.Valid s exchange) :
    (Refuses s.cache (page.ctx exchange.request)
        (page.respond exchange.now exchange.request).1 page.bodyMaskEnabled ∧
      (captureResponse s.cache exchange.now (pendingFor (page.ctx exchange.request))
        (page.respond exchange.now exchange.request).1 page.bodyMaskEnabled
        exchange.chunks exchange.last).1 = s.cache) ∨ (¬ Refuses s.cache (page.ctx exchange.request)
        (page.respond exchange.now exchange.request).1 page.bodyMaskEnabled ∧
      page.Answerable exchange.request ∧
      exists stored, (captureResponse s.cache exchange.now (pendingFor (page.ctx exchange.request))
          (page.respond exchange.now exchange.request).1 page.bodyMaskEnabled
          exchange.chunks exchange.last).1.backend.inner.lookup page.key = some stored ∧
        stored.insertedAt = exchange.now ∧ stored.response.status =
          (page.respond exchange.now exchange.request).1.status ∧ stored.response.body =
          (page.respond exchange.now exchange.request).2.take responseCacheBodyLimit) := by
  obtain ⟨_, hfor, hbody⟩ := h
  rcases Classical.em (Refuses s.cache (page.ctx exchange.request)
      (page.respond exchange.now exchange.request).1 page.bodyMaskEnabled) with hrefuses | haccepts
  · refine Or.inl ⟨hrefuses, ?_⟩
    rw [(captureResponse_unstored_iff s.cache exchange.now
      (page.ctx exchange.request) (page.respond exchange.now
        exchange.request).1 page.bodyMaskEnabled exchange.chunks exchange.last).mpr hrefuses]
  · obtain ⟨_, _, _, hstored, _⟩ :=
      captureResponse_of_accepts haccepts exchange.now exchange.chunks exchange.last
    obtain ⟨heligible, htier, _, ttl, hlookup⟩ := captureResponse_of_stored hstored
    rw [cacheKey_ctx hfor, hbody] at hlookup
    exact Or.inr ⟨haccepts, ⟨heligible, htier⟩, _, hlookup, rfl, rfl, rfl⟩

theorem invariant_step {t : Visited} (h : page.Invariant first s)
    (hstep : page.step s exchange = some t) : page.Invariant first t := by
  unfold step at hstep
  split at hstep
  · rename_i hvalid
    injection hstep with hstep
    rw [← hstep]
    have hsame : page.Invariant first { clock := exchange.now, cache := s.cache } :=
      { setup := h.setup
        arrived := fun entry hentry =>
          Nat.le_trans (h.arrived entry hentry) hvalid.1
        whole := h.whole }
    rcases visit_cases page s.cache exchange with ⟨entry, _, hvisit⟩ | hvisit
    · rw [hvisit]
      exact hsame
    · rw [hvisit]
      rcases capture_cases hvalid with ⟨_, hunstored⟩ |
        ⟨haccepts, _, stored, hlookup, hnow, hstatus, hbody⟩
      · rw [hunstored]
        exact hsame
      · have hsetup := captureResponse_sameSetup s.cache exchange.now (page.ctx exchange.request)
          (page.respond exchange.now exchange.request).1 page.bodyMaskEnabled
          exchange.chunks exchange.last
        refine ⟨⟨hsetup.rules.trans h.setup.rules, hsetup.defaultTtl.trans h.setup.defaultTtl,
          hsetup.maxTtl.trans h.setup.maxTtl, hsetup.maxTtlSecs.trans h.setup.maxTtlSecs⟩, ?_, ?_⟩
        · intro entry hentry
          rw [hlookup] at hentry
          cases hentry
          exact Nat.le_of_eq hnow
        · intro honly entry hentry
          rw [hlookup] at hentry
          cases hentry
          rw [refuses_of_sameSetup h.setup] at haccepts
          obtain ⟨hplain, hlimit⟩ := (honly exchange.now exchange.request
            hvalid.2.1).resolve_left haccepts
          obtain ⟨hok, hbytes⟩ := page.whole exchange.now exchange.request hplain
          rw [hstatus, hbody, hbytes, List.take_of_length_le hlimit]
          exact ⟨hok, rfl⟩
  · cases hstep

variable {rules : CompiledRuleSet} {defaultTtlSecs maxTtlSecs : Nat}

theorem invariant_start (page : Page) (rules : CompiledRuleSet) (defaultTtlSecs maxTtlSecs : Nat) :
    page.Invariant (ResponseCache.withRules defaultTtlSecs maxTtlSecs rules)
      (start rules defaultTtlSecs maxTtlSecs) :=
  { setup := ⟨rfl, rfl, rfl, rfl⟩
    arrived := fun entry hentry => by cases hentry
    whole := fun _ entry hentry => by cases hentry }

theorem entry_of_hit {entry : CachedResponse} (hfor : page.IsFor req)
    (hhit : (cacheLookup s.cache now (page.ctx req)).2 = .hit entry) :
    page.Answerable req ∧ exists stored, s.cache.backend.inner.lookup page.key = some stored ∧
        stored.response = entry ∧ now < stored.insertedAt +
          s.cache.backend.maxTtlSecs * nanosPerSec := by
  obtain ⟨heligible, htier, hget⟩ := cacheLookup_hit_iff.mp hhit
  rw [cacheKey_ctx hfor] at hget
  exact ⟨⟨heligible, htier⟩, MokaStore.get_eq_some_iff.mp hget⟩

theorem hit_of_entry
    {stored : StoredEntry} (hfor : page.IsFor req) (hanswerable : page.Answerable req)
    (hlookup : s.cache.backend.inner.lookup page.key = some stored)
    (hfresh : now < stored.insertedAt + s.cache.backend.maxTtlSecs * nanosPerSec) :
    (cacheLookup s.cache now (page.ctx req)).2 = .hit stored.response := by
  refine cacheLookup_hit_iff.mpr ⟨hanswerable.1, hanswerable.2, ?_⟩
  rw [cacheKey_ctx hfor]
  exact MokaStore.get_eq_some_iff.mpr ⟨stored, hlookup, rfl, hfresh⟩

theorem servesWhole_of_invariant
    (h : page.Invariant first s) (hcases : first.backend.maxTtlSecs = 0 ∨
      (forall req, page.IsFor req -> ¬ AsksForPart req -> ¬ page.Answerable req) ∨
      page.StoresOnlyWhole first) : page.ServesWhole s := by
  intro now req entry hclock hfor hplain hhit
  obtain ⟨hanswerable, stored, hlookup, hresponse, hfresh⟩ := entry_of_hit hfor hhit
  rcases hcases with hzero | hnone | honly
  · rw [h.setup.maxTtlSecs, hzero, Nat.zero_mul] at hfresh
    exact absurd (Nat.le_trans (h.arrived stored hlookup) hclock) (Nat.not_le.mpr hfresh)
  · exact absurd hanswerable (hnone req hfor hplain)
  · obtain ⟨hstatus, hbody⟩ := h.whole honly stored hlookup
    rw [← hresponse]
    unfold writeCachedEntry
    rw [hstatus, hbody]
    have hok : (statusFromU16 200).getD 200 ≠ 206 := by decide
    exact ⟨hok, rfl⟩

def ask (page : Page) (now : Time) (req : Request) : Exchange :=
  { now := now
    request := req
    chunks := []
    last := some (page.respond now req).2 }

theorem first_answer_stored (hfor : page.IsFor req)
    (haccepts : ¬ Refuses (ResponseCache.withRules defaultTtlSecs maxTtlSecs rules) (page.ctx req)
      (page.respond now req).1 page.bodyMaskEnabled) :
    page.Answerable req ∧ exists t stored,
      runFrom page.step (start rules defaultTtlSecs maxTtlSecs) [page.ask now req] = some t ∧
      t.clock = now ∧ t.cache.backend.maxTtlSecs = maxTtlSecs ∧
      t.cache.backend.inner.lookup page.key = some stored ∧ stored.insertedAt = now ∧
      stored.response.status = (page.respond now req).1.status ∧ stored.response.body =
        (page.respond now req).2.take responseCacheBodyLimit := by
  have hvalid : page.Valid (start rules defaultTtlSecs maxTtlSecs) (page.ask now req) :=
    ⟨Nat.zero_le now, hfor, rfl⟩
  have hstep : page.step (start rules defaultTtlSecs maxTtlSecs) (page.ask now req) = some {
        clock := now
        cache := page.visit (start rules defaultTtlSecs maxTtlSecs).cache
          (page.ask now req) } := if_pos hvalid
  have hinvariant := invariant_step (invariant_start page rules defaultTtlSecs maxTtlSecs) hstep
  rcases visit_cases page (start rules defaultTtlSecs maxTtlSecs).cache
      (page.ask now req) with ⟨entry, hhit, _⟩ | hvisit
  · obtain ⟨_, stored, hlookup, _⟩ := entry_of_hit hfor hhit
    cases hlookup
  · rcases capture_cases hvalid with ⟨hrefuses, _⟩ |
      ⟨_, hanswerable, stored, hlookup, hnow, hstatus, hbody⟩
    · exact absurd hrefuses haccepts
    · rw [← hvisit] at hlookup
      exact ⟨hanswerable, _, stored, runFrom_cons_of_some [] hstep, rfl,
        hinvariant.setup.maxTtlSecs, hlookup, hnow, hstatus, hbody⟩

/-- Plain requests that are answered from the cache are sent the whole page in
every run exactly when no answer is found in the cache at all, no plain request is
answered from it, or nothing but the whole page is ever stored. -/
theorem servesWhole_iff (page : Page) (rules : CompiledRuleSet) (defaultTtlSecs maxTtlSecs : Nat) :
    (forall exchanges t, runFrom page.step (start rules defaultTtlSecs maxTtlSecs) exchanges =
          some t -> page.ServesWhole t) <-> maxTtlSecs = 0 ∨
        (forall req, page.IsFor req -> ¬ AsksForPart req -> ¬ page.Answerable req) ∨
        page.StoresOnlyWhole (ResponseCache.withRules defaultTtlSecs maxTtlSecs rules) := by
  constructor
  · intro hserves
    refine Classical.or_iff_not_imp_left.mpr (fun hpos => ?_)
    refine Classical.or_iff_not_imp_left.mpr (fun hsome now req hfor => ?_)
    refine Classical.or_iff_not_imp_left.mpr (fun haccepts => ?_)
    obtain ⟨hanswerable, t, stored, hrun, hclock, hmax, hlookup, hnow, hstatus,
      hbody⟩ := first_answer_stored hfor haccepts
    have hfresh : now < stored.insertedAt + t.cache.backend.maxTtlSecs * nanosPerSec := by
      rw [hnow, hmax]
      exact Nat.lt_add_of_pos_right (Nat.mul_pos (Nat.pos_of_ne_zero hpos) (by decide))
    have hwhole := hserves _ t hrun
    have hplain : ¬ AsksForPart req := by
      intro hpart
      simp only [not_forall, Classical.not_not] at hsome
      obtain ⟨plain, hforPlain, hplain, hanswerable⟩ := hsome
      have hhit := hit_of_entry hforPlain hanswerable hlookup hfresh
      refine (hwhole now plain _ (Nat.le_of_eq hclock) hforPlain hplain hhit).1 ?_
      unfold writeCachedEntry
      rw [hstatus, page.part now req hpart]
      rfl
    refine ⟨hplain, Nat.not_lt.mp (fun hlong => ?_)⟩
    have hhit := hit_of_entry hfor hanswerable hlookup hfresh
    have hsent := (hwhole now req _ (Nat.le_of_eq hclock) hfor hplain hhit).2
    have hcut : stored.response.body = page.bytes := hsent
    rw [hbody, (page.whole now req hplain).2] at hcut
    have hlength := congrArg List.length hcut
    rw [List.length_take, Nat.min_eq_left (Nat.le_of_lt hlong)] at hlength
    exact absurd hlength (Nat.ne_of_lt hlong)
  · intro hcases exchanges t hrun
    have hinvariant := runFrom_invariant (fun h _ hstep => invariant_step h hstep)
      (invariant_start page rules defaultTtlSecs maxTtlSecs) (stepsMeet_true _ exchanges) hrun
    exact servesWhole_of_invariant hinvariant hcases

end Page

/-- A page of three bytes, of which a range request gets the first. -/
def threeBytes : Page :=
  { registry := some cachingTiers
    config := shopSite
    bodyMaskEnabled := false
    path := "/".toList
    query := none
    bytes := [1, 2, 3]
    respond := fun _ req =>
      if AsksForPart req then ({ status := 206, headers := [] }, [1])
      else ({ status := 200, headers := [] }, [1, 2, 3])
    whole := fun _ req hplain => by
      rw [if_neg hplain]
      exact ⟨rfl, rfl⟩
    part := fun _ req hpart => by rw [if_pos hpart] }

def getRange (host : HeaderValue) : Request :=
  { getRoot host with
    headers := [(hostName, host), (rangeName, line "bytes=0-0")] }

theorem getRange_accepted :
    ¬ Refuses (ResponseCache.withRules 60 3600 .empty)
      (threeBytes.ctx (getRange (line "shop.test")))
      (threeBytes.respond 0 (getRange (line "shop.test"))).1
      threeBytes.bodyMaskEnabled := by
  rintro (heligible | hdeclines | ⟨reason, hbypass⟩)
  · exact heligible (by decide +kernel)
  · exact absurd hdeclines (by decide +kernel)
  · cases hbypass

/-- The part that one visitor asked for is sent to the next, who asked for the
page. -/
theorem part_served_for_page :
    exists t entry, runFrom threeBytes.step (Page.start .empty 60 3600)
        [threeBytes.ask 0 (getRange (line "shop.test"))] = some t ∧
      threeBytes.IsFor (getRoot (line "shop.test")) ∧
      ¬ AsksForPart (getRoot (line "shop.test")) ∧ (cacheLookup t.cache 1
        (threeBytes.ctx (getRoot (line "shop.test")))).2 = .hit entry ∧
      (writeCachedEntry entry).1.status = 206 ∧ (writeCachedEntry entry).2 = [1] ∧
      ¬ threeBytes.ServesWhole t := by
  have hplain : ¬ AsksForPart (getRoot (line "shop.test")) := by decide
  have hfor : threeBytes.IsFor (getRoot (line "shop.test")) := ⟨rfl, rfl, rfl⟩
  have hanswerable : threeBytes.Answerable (getRoot (line "shop.test")) :=
    ⟨by decide +kernel, by decide +kernel⟩
  have hforRange : threeBytes.IsFor (getRange (line "shop.test")) := ⟨rfl, rfl, rfl⟩
  have hpart := threeBytes.part 0 (getRange (line "shop.test")) (by decide)
  obtain ⟨_, t, stored, hrun, hclock, hmax, hlookup, hnow, hstatus, hbody⟩ :=
    Page.first_answer_stored hforRange getRange_accepted
  have hhit : (cacheLookup t.cache 1 (threeBytes.ctx (getRoot (line "shop.test")))).2 =
        .hit stored.response :=
    Page.hit_of_entry hfor hanswerable hlookup (by rw [hnow, hmax]; decide)
  have hsent : (writeCachedEntry stored.response).1.status = 206 := by
    unfold writeCachedEntry
    rw [hstatus, hpart]
    rfl
  refine ⟨t, stored.response, hrun, hfor, hplain, hhit, hsent, hbody, ?_⟩
  intro hserves
  exact (hserves 1 _ _ (by rw [hclock]; decide) hfor hplain hhit).1 hsent

end Gateway
end PrxWaf
