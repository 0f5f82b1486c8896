import PrxWaf.Cache.Store
import PrxWaf.Lib.Run

/-!
# Freshness of the cache in memory

The cache is run by operations at nondecreasing times.  Besides the operations
of the interface there are two of the surroundings: the rule set is replaced
when its file changes, and the map evicts an entry for its own reasons, which
are its capacity and the expiry of the entry.

The chain of gates resolves a time to live for each response, and the map
expires all entries at the age it was built with.
-/

namespace PrxWaf
namespace Cache

open Lib Http

namespace MokaStore

def Shrinks (old new : MokaStore) : Prop :=
  new.maxTtlSecs = old.maxTtlSecs ∧
    forall key entry, new.inner.lookup key = some entry -> old.inner.lookup key = some entry

variable (store : MokaStore) (now : Time) (key : Text)

theorem Shrinks.refl : Shrinks store store :=
  ⟨rfl, fun _ _ h => h⟩

theorem Shrinks.trans {s t u : MokaStore} (hst : Shrinks s t) (htu : Shrinks t u) : Shrinks s u :=
  ⟨htu.left.trans hst.left, fun key entry h => hst.right key entry (htu.right key entry h)⟩

theorem evict_shrinks :
    Shrinks store (store.evict key) := by
  unfold evict
  split
  · refine ⟨rfl, ?_⟩
    intro other entry h
    rcases Decidable.em (other = key) with heq | hne
    · rw [heq, AList.lookup_erase] at h
      cases h
    · rwa [AList.lookup_erase_ne hne] at h
  · exact Shrinks.refl store

theorem foldl_shrinks {f : MokaStore -> Text -> MokaStore}
    (hf : forall store key, Shrinks store (f store key)) (keys : List Text)
    (store : MokaStore) : Shrinks store (keys.foldl f store) := by
  induction keys generalizing store with
  | nil =>
    exact Shrinks.refl store
  | cons key rest ih =>
    exact (hf store key).trans (ih (f store key))

theorem purgeByTag_shrinks (tag : Text) :
    Shrinks store (store.purgeByTag now tag).1 := by
  apply foldl_shrinks
  intro store key
  exact evict_shrinks store key

theorem purgeHost_shrinks (host : Text) :
    Shrinks store (store.purgeHost now host).1 :=
  foldl_shrinks evict_shrinks _ store

theorem flush_shrinks :
    Shrinks store (store.flush now) :=
  ⟨rfl, fun _ _ h => by cases h⟩

theorem lookup_put
    (value : CachedResponse) (ttlSecs : Nat) (tags : List Text) {other : Text} {entry : StoredEntry}
    (h : (store.put now key value ttlSecs tags).1.inner.lookup other = some entry) :
    store.inner.lookup other = some entry ∨ other = key ∧ entry =
          { response := { value with maxAge := ttlSecs }, insertedAt := now } := by
  rcases Decidable.em (other = key) with heq | hne
  · rw [heq] at h
    have hnew := Option.some.inj ((AList.lookup_insert store.inner).symm.trans h)
    exact Or.inr ⟨heq, hnew.symm⟩
  · exact Or.inl ((AList.lookup_insert_ne hne).symm.trans h)

theorem get_eq_some_iff {store : MokaStore} {now : Time} {key : Text} {response : CachedResponse} :
    store.get now key = some response <->
      exists entry, store.inner.lookup key = some entry ∧ entry.response = response ∧
        now < entry.insertedAt + store.maxTtlSecs * nanosPerSec := by
  unfold get
  cases store.inner.lookup key with
  | none => simp
  | some entry =>
    rcases Decidable.em (store.isExpired now entry) with hexpired | hfresh
    · simp [hexpired, Nat.not_lt.mpr hexpired]
    · simp [hfresh, Nat.not_le.mp hfresh]

end MokaStore

inductive CacheOp where
  | put (req : PutRequest)
  | get (key : Text) (tier : Tier)
  | purgeKey (key : Text)
  | purgeByTag (tag : Text)
  | purgeByRouteId (id : Text)
  | purgeHost (host : Text)
  | flush
  | swapRules (set : CompiledRuleSet)
  | evict (key : Text)

namespace ResponseCache

def applyOp (cache : ResponseCache MokaStore) (now : Time) : CacheOp -> ResponseCache MokaStore
  | .put req => (cache.put now req).1
  | .get key tier => (cache.get now key tier).1
  | .purgeKey key => cache.purgeKey now key
  | .purgeByTag tag => cache.purgeByTag now tag
  | .purgeByRouteId id => cache.purgeByRouteId now id
  | .purgeHost host => cache.purgeHost now host
  | .flush => cache.flush now
  | .swapRules set => cache.swapRules set
  | .evict key => { cache with backend := cache.backend.evict key }

end ResponseCache

structure TimedCache where
  clock : Time
  cache : ResponseCache MokaStore

namespace TimedCache

def start (defaultTtlSecs maxTtlSecs : Nat) (rules : CompiledRuleSet) : TimedCache :=
  { clock := 0
    cache := ResponseCache.withRules defaultTtlSecs maxTtlSecs rules }

/-- An operation cannot be earlier than the one before it. -/
def step (s : TimedCache) (act : Time × CacheOp) : Option TimedCache :=
  if s.clock ≤ act.1 then
    some { clock := act.1, cache := s.cache.applyOp act.1 act.2 }
  else none

variable {s s' : TimedCache} {act : Time × CacheOp} {acts : List (Time × CacheOp)}
  {maxTtlSecs : Nat}

theorem step_some (h : step s act = some s') :
    s.clock ≤ act.1 ∧ s'.clock = act.1 ∧ s'.cache = s.cache.applyOp act.1 act.2 := by
  unfold step at h
  split at h
  · rename_i hclock
    injection h with h
    rw [← h]
    exact ⟨hclock, rfl, rfl⟩
  · cases h

def Stores (s : TimedCache) (act : Time × CacheOp) (item : Text × StoredEntry) : Prop :=
  exists req ttl tags, act.2 = .put req ∧
    s.cache.verdict req = .cache ttl tags ∧ item.1 = req.key ∧
    item.2 = { response := req.response ttl, insertedAt := act.1 }

def Holds (s : TimedCache) (item : Text × StoredEntry) : Prop :=
  s.cache.backend.inner.lookup item.1 = some item.2

variable (cache : ResponseCache MokaStore) (now : Time) {item : Text × StoredEntry}
  {t : TimedCache}

theorem get_cache (key : Text) (tier : Tier) : (cache.get now key tier).1 = cache := by
  unfold ResponseCache.get
  split
  · rfl
  · rfl

theorem applyOp_shrinks_or_stores (s : TimedCache) (act : Time × CacheOp) :
    s.cache.backend.Shrinks (s.cache.applyOp act.1 act.2).backend ∨
      exists req ttl tags, act.2 = .put req ∧ s.cache.verdict req = .cache ttl tags ∧
        s.cache.applyOp act.1 act.2 = { s.cache with
            backend :=
              (s.cache.backend.put act.1 req.key (req.response ttl) ttl
                tags).1 } := by
  rcases act with ⟨now, op⟩
  cases op with
  | put req =>
    rcases s.cache.verdict_cases req with ⟨reason, h⟩ | ⟨ttl, tags, h⟩
    · apply Or.inl
      rw [ResponseCache.applyOp, ResponseCache.put_of_bypass now h]
      exact MokaStore.Shrinks.refl _
    · apply Or.inr
      refine ⟨req, ttl, tags, rfl, h, ?_⟩
      rw [ResponseCache.applyOp, ResponseCache.put_of_cache now h]
  | get key tier =>
    apply Or.inl
    rw [ResponseCache.applyOp, get_cache]
    exact MokaStore.Shrinks.refl _
  | purgeKey key => exact Or.inl (MokaStore.evict_shrinks _ key)
  | purgeByTag tag => exact Or.inl (MokaStore.purgeByTag_shrinks _ now tag)
  | purgeByRouteId id => exact Or.inl (MokaStore.purgeByTag_shrinks _ now id)
  | purgeHost host => exact Or.inl (MokaStore.purgeHost_shrinks _ now host)
  | flush => exact Or.inl (MokaStore.flush_shrinks _ now)
  | swapRules set => exact Or.inl (MokaStore.Shrinks.refl _)
  | evict key => exact Or.inl (MokaStore.evict_shrinks _ key)

theorem step_origin (hstep : step s act = some s')
    (hitem : Holds s' item) : Holds s item ∨ Stores s act item := by
  rcases step_some hstep with ⟨_, _, hcache⟩
  rw [Holds, hcache] at hitem
  rcases applyOp_shrinks_or_stores s act with hshrinks | ⟨req, ttl, tags, hop, hverdict, happly⟩
  · exact Or.inl (hshrinks.right _ _ hitem)
  · rw [happly] at hitem
    rcases MokaStore.lookup_put _ _ _ _ _ _ hitem with hold | ⟨hkey, hentry⟩
    · exact Or.inl hold
    · exact Or.inr ⟨req, ttl, tags, hop, hverdict, hkey, hentry⟩

theorem run_origin (hrun : runFrom step s acts = some t) (hitem : Holds t item) :
    Holds s item ∨
      exists front act back mid, acts = front ++ act :: back ∧
        runFrom step s front = some mid ∧ Stores mid act item :=
  runFrom_origin Holds Stores step_origin hrun hitem

/-! The two copies of the hard limit agree. -/

def Configured (maxTtlSecs : Nat) (s : TimedCache) : Prop :=
  s.cache.maxTtl = maxTtlSecs ∧ s.cache.backend.maxTtlSecs = maxTtlSecs

theorem applyOp_maxTtl (op : CacheOp) : (cache.applyOp now op).maxTtl = cache.maxTtl := by
  cases op with
  | put req =>
    rcases cache.verdict_cases req with ⟨reason, h⟩ | ⟨ttl, tags, h⟩
    · rw [ResponseCache.applyOp, ResponseCache.put_of_bypass now h]
    · rw [ResponseCache.applyOp, ResponseCache.put_of_cache now h]
  | get key tier => rw [ResponseCache.applyOp, get_cache]
  | _ => rfl

theorem configured_step (hconf : Configured maxTtlSecs s)
    (hstep : step s act = some s') : Configured maxTtlSecs s' := by
  rcases step_some hstep with ⟨_, _, hcache⟩
  rw [Configured, hcache]
  refine ⟨(applyOp_maxTtl _ _ _).trans hconf.left, ?_⟩
  rcases applyOp_shrinks_or_stores s act with hshrinks | ⟨req, ttl, tags, _, _, happly⟩
  · exact hshrinks.left.trans hconf.right
  · rw [happly]
    exact hconf.right

theorem configured_run (hconf : Configured maxTtlSecs s)
    (hrun : runFrom step s acts = some t) : Configured maxTtlSecs t :=
  runFrom_invariant (fun hs _ hstep => configured_step hs hstep) hconf (stepsMeet_true s acts) hrun

theorem get_eq_some_iff {cache : ResponseCache MokaStore} {now : Time}
    {key : Text} {tier : Tier} {response : CachedResponse} :
    (cache.get now key tier).2 = some response <->
      tier ≠ .critical ∧ cache.backend.get now key = some response := by
  unfold ResponseCache.get
  split
  · rename_i htier
    simp [htier]
  · rename_i htier
    simp only [htier, not_false_eq_true, ne_eq, true_and]
    rfl

/-- Whatever a run serves under a key was put there by one of its steps, at most
the hard limit ago. -/
theorem get_origin {defaultTtlSecs : Nat} {rules : CompiledRuleSet}
    (hrun : runFrom step (start defaultTtlSecs maxTtlSecs rules) acts = some s)
    {now : Time} {key : Text} {tier : Tier} {response : CachedResponse}
    (hget : (s.cache.get now key tier).2 = some response) :
    exists front req back mid t ttl tags, acts = front ++ (t, .put req) :: back ∧
        runFrom step (start defaultTtlSecs maxTtlSecs rules) front = some mid ∧
        mid.cache.verdict req = .cache ttl tags ∧ req.key = key ∧ response = req.response ttl ∧
        now < t + maxTtlSecs * nanosPerSec := by
  rcases get_eq_some_iff.mp hget with ⟨_, hstore⟩
  rcases MokaStore.get_eq_some_iff.mp hstore with ⟨entry, hlookup, hresponse, hnow⟩
  have hitem : Holds s (key, entry) := hlookup
  rcases run_origin hrun hitem with hstart | ⟨front, ⟨t, op⟩, back, mid, hacts, hfront, hmade⟩
  · cases hstart
  · rcases hmade with ⟨req, ttl, tags, hop, hverdict, hkey, hentry⟩
    cases hop
    have hconf : Configured maxTtlSecs s := configured_run ⟨rfl, rfl⟩ hrun
    rw [show entry = _ from hentry, hconf.right] at hnow
    refine ⟨front, req, back, mid, t, ttl, tags, hacts, hfront, hverdict, hkey.symm, ?_, hnow⟩
    rw [← hresponse, show entry = _ from hentry]

/-!
## The deadline of an entry

The entry that `put` stores at `t` with a resolved time to live is served until
the hard limit has passed.  So its own deadline is kept exactly when the
resolved time to live is not below the hard limit.
-/

/-- No later read returns the entry at or after its deadline. -/
def KeepsDeadline (s : TimedCache) (key : Text) (entry : StoredEntry) (ttlSecs : Nat) : Prop :=
  forall acts s' now tier, runFrom step s acts = some s' -> s'.clock ≤ now ->
    Holds s' (key, entry) ->
    (s'.cache.get now key tier).2 = some entry.response ->
    now < entry.insertedAt + ttlSecs * nanosPerSec

theorem put_keepsDeadline_iff {defaultTtlSecs maxTtlSecs : Nat}
    {rules : CompiledRuleSet} {acts : List (Time × CacheOp)} {s s' : TimedCache}
    (hrun : runFrom step (start defaultTtlSecs maxTtlSecs rules) acts = some s)
    {t : Time} {req : PutRequest} {ttl : Nat} {tags : List Text}
    (hverdict : s.cache.verdict req = .cache ttl tags) (hput : step s (t, .put req) = some s') :
    KeepsDeadline s' req.key { response := req.response ttl, insertedAt := t }
        (min ttl maxTtlSecs) <-> maxTtlSecs ≤ ttl := by
  have hconf : Configured maxTtlSecs s' := configured_step (configured_run ⟨rfl, rfl⟩ hrun) hput
  rcases step_some hput with ⟨_, hclock, hcache⟩
  constructor
  · intro hkeeps
    apply Nat.not_lt.mp
    intro hshort
    have hlookup : s'.cache.backend.inner.lookup req.key =
        some { response := req.response ttl, insertedAt := t } := by
      rw [hcache]
      exact ResponseCache.lookup_put_of_cache t hverdict
    have hlate : t + ttl * nanosPerSec < t + maxTtlSecs * nanosPerSec :=
      Nat.add_lt_add_left (Nat.mul_lt_mul_of_pos_right hshort (by decide)) t
    have hserved : (s'.cache.get (t + ttl * nanosPerSec) req.key .high).2 =
        some (req.response ttl) := by
      refine get_eq_some_iff.mpr ⟨by decide, ?_⟩
      refine MokaStore.get_eq_some_iff.mpr ⟨_, hlookup, rfl, ?_⟩
      rw [hconf.right]
      exact hlate
    have hbefore := hkeeps [] s' (t + ttl * nanosPerSec) .high rfl
      (by rw [hclock]; exact Nat.le_add_right _ _) hlookup hserved
    rw [Nat.min_eq_left (Nat.le_of_lt hshort)] at hbefore
    exact Nat.lt_irrefl _ hbefore
  · intro hlong later s'' now tier hlater _ hholds hget
    have hconf' := configured_run hconf hlater
    rcases get_eq_some_iff.mp hget with ⟨_, hstore⟩
    rcases MokaStore.get_eq_some_iff.mp hstore with ⟨entry, hlookup, _, hnow⟩
    have hsame : entry = { response := req.response ttl, insertedAt := t } :=
      Option.some.inj (hlookup.symm.trans hholds)
    rw [hsame, hconf'.right] at hnow
    rw [Nat.min_eq_right hlong]
    exact hnow

def pageRequest (cacheControl : String) : PutRequest :=
  { key := ResponseCache.makeKey "GET".toList "shop.test".toList "/".toList []
    host := "shop.test".toList
    path := "/".toList
    status := 200
    headers := [("cache-control".toList, cacheControl.toList)]
    body := []
    cacheControl := some cacheControl.toList
    tier := .medium
    policy := .default 120
    hasAuthorization := false
    hasCookie := false }

theorem get_origin_page :
    exists front req back t, [((5 : Time), CacheOp.put (pageRequest "max-age=60"))] =
        front ++ (t, .put req) :: back ∧ 6 < t + 3600 * nanosPerSec := by
  have hserved : exists s, runFrom step (start 60 3600 .empty)
      [(5, .put (pageRequest "max-age=60"))] = some s ∧
        (s.cache.get 6 (pageRequest "max-age=60").key .medium).2 =
          some ((pageRequest "max-age=60").response 60) := ⟨_, rfl, by decide +kernel⟩
  rcases hserved with ⟨s, hrun, hget⟩
  rcases get_origin hrun hget with ⟨front, req, back, _, t, _, _, hacts, _, _, _, _, hnow⟩
  exact ⟨front, req, back, t, hacts, hnow⟩

theorem put_keepsDeadline_hour :
    (start 60 3600 .empty).cache.verdict (pageRequest "max-age=3600") =
        .cache 3600 [] ∧
      KeepsDeadline
        { clock := 5
          cache := ((start 60 3600 .empty).cache.put 5
            (pageRequest "max-age=3600")).1 }
        (pageRequest "max-age=3600").key
        { response := (pageRequest "max-age=3600").response 3600
          insertedAt := 5 }
        3600 := by
  have hrun : runFrom step (start 60 3600 .empty) [] =
      some (start 60 3600 .empty) := rfl
  have hverdict : (start 60 3600 .empty).cache.verdict
      (pageRequest "max-age=3600") = .cache 3600 [] := by decide +kernel
  exact ⟨hverdict,
    (put_keepsDeadline_iff hrun hverdict rfl).mpr (Nat.le_refl 3600)⟩

/-- A response that its origin declares stale at once is served for an hour. -/
theorem max_age_zero_served :
    exists s, runFrom step (start 60 3600 .empty) [(0, .put (pageRequest "max-age=0"))] = some s ∧
        (start 60 3600 .empty).cache.verdict (pageRequest "max-age=0") = .cache 0 [] ∧
        (s.cache.get (3599 * nanosPerSec) (pageRequest "max-age=0").key .medium).2 =
          some ((pageRequest "max-age=0").response 0) :=
  ⟨_, rfl, by decide +kernel, by decide +kernel⟩

end TimedCache

end Cache
end PrxWaf
