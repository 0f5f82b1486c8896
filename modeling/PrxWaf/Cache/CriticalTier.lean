import PrxWaf.Cache.Store

/-!
# Critical traffic

A response of the critical tier, or one whose policy forbids caching, is kept out
of the cache, and a request of the critical tier is not answered from it.  The
first gate sees to the writes, whatever the rules are, and the cache itself to the
reads.  Both hold over every backend and along every run, in which the rules may be
swapped and a page may change its tier.
-/

namespace PrxWaf
namespace Cache

open Lib Http

variable {store : Type}

def PutRequest.KeptOut (req : PutRequest) : Prop :=
  req.tier = .critical ∨ req.policy = .noCache

theorem tierGate_of_keptOut {req : PutRequest} (cache : ResponseCache store) (h : req.KeptOut) :
    exists reason, tierGate (cache.ctxOf req) = .bypass reason := by
  unfold tierGate
  rcases Decidable.em ((cache.ctxOf req).tier = .critical) with htier | htier
  · exact ⟨.criticalTier, if_pos htier⟩
  · have hpolicy : (cache.ctxOf req).policy = .noCache := h.resolve_left htier
    exact ⟨.noCachePolicy, by rw [if_neg htier, if_pos hpolicy]⟩

theorem verdict_of_keptOut {req : PutRequest} (cache : ResponseCache store) (h : req.KeptOut) :
    exists reason, cache.verdict req = .bypass reason := by
  obtain ⟨reason, hgate⟩ := tierGate_of_keptOut cache h
  refine ⟨reason, ?_⟩
  unfold ResponseCache.verdict gates
  rw [resolve_of_decides _ (by rw [hgate]; exact Verdict.noConfusion), hgate]

inductive CacheCall where
  | put (req : PutRequest)
  | get (key : Text) (tier : Tier)
  | swap (set : CompiledRuleSet)

inductive CacheAnswer where
  | stored (done : Bool)
  | found (entry : Option CachedResponse)
  | swapped

variable [CacheBackend store]

def ResponseCache.answer (cache : ResponseCache store) (now : Time) :
    CacheCall -> ResponseCache store × CacheAnswer
  | .put req =>
    let result := cache.put now req
    (result.1, .stored result.2)
  | .get key tier =>
    let result := cache.get now key tier
    (result.1, .found result.2)
  | .swap set => (cache.swapRules set, .swapped)

/-- A call of a run: the cache that it finds, the cache that it leaves and its
answer. -/
structure Answered (store : Type) where
  before : ResponseCache store
  call : CacheCall
  after : ResponseCache store
  answer : CacheAnswer

def ResponseCache.history (cache : ResponseCache store) :
    List (Time × CacheCall) -> List (Answered store)
  | [] => []
  | (now, call) :: later =>
    let answered := cache.answer now call
    { before := cache
      call := call
      after := answered.1
      answer := answered.2 } :: answered.1.history later

def Answered.TurnsAway (answered : Answered store) : Prop :=
  match answered.call with
  | .put req =>
    req.KeptOut -> answered.answer = .stored false ∧ answered.after = answered.before
  | .get _ tier =>
    tier = .critical -> answered.answer = .found none ∧ answered.after = answered.before
  | .swap _ => True

theorem turnsAway_answer (cache : ResponseCache store) (now : Time)
    (call : CacheCall) :
    Answered.TurnsAway
      { before := cache
        call := call
        after := (cache.answer now call).1
        answer := (cache.answer now call).2 } := by
  cases call with
  | put req =>
    intro hreq
    obtain ⟨reason, hverdict⟩ := verdict_of_keptOut cache hreq
    have hput := ResponseCache.put_of_bypass now hverdict
    dsimp only [ResponseCache.answer]
    rw [hput]
    exact ⟨rfl, rfl⟩
  | get key tier =>
    intro htier
    have hget : cache.get now key tier = (cache, none) := if_pos htier
    dsimp only [ResponseCache.answer]
    rw [hget]
    exact ⟨rfl, rfl⟩
  | swap set => trivial

/-- In every run over every backend, critical responses and those that may not be
cached are not stored, and critical requests find nothing. -/
theorem critical_turned_away (cache : ResponseCache store)
    (calls : List (Time × CacheCall)) {answered : Answered store}
    (h : answered ∈ cache.history calls) : answered.TurnsAway := by
  induction calls generalizing cache with
  | nil => cases h
  | cons call later ih =>
    rcases List.mem_cons.mp h with hnow | hlater
    · rw [hnow]
      exact turnsAway_answer cache call.1 call.2
    · exact ih _ hlater

def pageOf (tier : Tier) : PutRequest :=
  { key := "GET:shop:/".toList
    host := "shop".toList
    path := "/".toList
    status := 200
    headers := []
    body := [111, 107]
    cacheControl := none
    tier := tier
    policy := .default 60
    hasAuthorization := false
    hasCookie := false }

def reclassified : List (Time × CacheCall) :=
  [(0, .put (pageOf .high)), (1, .swap .empty), (2, .put (pageOf .critical)),
    (3, .get "GET:shop:/".toList .critical)]

theorem reclassified_page_turned_away :
    exists answered, answered ∈ (ResponseCache.withRules 60 3600 .empty).history reclassified ∧
      answered.call = .put (pageOf .critical) ∧ answered.TurnsAway := by
  refine ⟨_, List.mem_cons_of_mem _ (List.mem_cons_of_mem _ List.mem_cons_self), rfl, ?_⟩
  exact critical_turned_away (ResponseCache.withRules 60 3600 .empty)
    reclassified (List.mem_cons_of_mem _ (List.mem_cons_of_mem _ List.mem_cons_self))

end Cache
end PrxWaf
