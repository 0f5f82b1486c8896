import PrxWaf.Cache.Policy
import PrxWaf.Cache.TagIndex
import PrxWaf.Lib.Machine

/-!
# The response cache

`ResponseCache` decides with the chain of gates and leaves the storage to a
backend.  The backend modelled here is the one in memory: a map that expires
every entry at one age, fixed when the map is built, with the tag index beside
it.  Statistics are left out.

Times are in nanoseconds.
-/

namespace PrxWaf
namespace Cache

open Lib Http

abbrev Time := Nat

structure CachedResponse where
  status : UInt16
  headers : List (Text × Text)
  body : List UInt8
  maxAge : Nat
  deriving DecidableEq

class CacheBackend (store : Type) where
  get : store -> Time -> Text -> store × Option CachedResponse
  put : store -> Time -> Text -> CachedResponse -> Nat -> List Text ->
    store × Bool
  remove : store -> Time -> Text -> store
  purgeByTag : store -> Time -> Text -> store × Nat
  purgeByRouteId : store -> Time -> Text -> store × Nat
  purgeHost : store -> Time -> Text -> store × Nat
  flush : store -> Time -> store

structure StoredEntry where
  response : CachedResponse
  insertedAt : Time
  deriving DecidableEq

structure MokaStore where
  maxTtlSecs : Nat
  inner : AList (fun _ : Text => StoredEntry)
  tagIndex : TagIndex

namespace MokaStore

def new (maxTtlSecs : Nat) : MokaStore :=
  { maxTtlSecs := maxTtlSecs, inner := ∅, tagIndex := TagIndex.empty }

/-- The age at which the map expires an entry is the same for all entries. -/
def isExpired (store : MokaStore) (now : Time) (entry : StoredEntry) : Prop :=
  entry.insertedAt + store.maxTtlSecs * nanosPerSec ≤ now

instance (store : MokaStore) (now : Time) (entry : StoredEntry) :
    Decidable (store.isExpired now entry) :=
  inferInstanceAs (Decidable (_ ≤ _))

def get (store : MokaStore) (now : Time) (key : Text) : Option CachedResponse :=
  match store.inner.lookup key with
  | some entry => if store.isExpired now entry then none else some entry.response
  | none => none

/-- The map reports every entry that leaves it, and the listener forgets the
tags of its key. -/
def evict (store : MokaStore) (key : Text) : MokaStore :=
  match store.inner.lookup key with
  | some _ =>
    { store with
      inner := store.inner.erase key
      tagIndex := store.tagIndex.unregister key }
  | none => store

/-- The listener ignores the replacement of an entry; an entry that had expired
by then is reported as expired instead. -/
def indexAfterInsert (store : MokaStore) (now : Time) (key : Text) : TagIndex :=
  match store.inner.lookup key with
  | some old =>
    if store.isExpired now old then store.tagIndex.unregister key
    else store.tagIndex
  | none => store.tagIndex

def put (store : MokaStore) (now : Time) (key : Text) (value : CachedResponse)
    (ttlSecs : Nat) (tags : List Text) : MokaStore × Bool :=
  let entry : StoredEntry := { response := { value with maxAge := ttlSecs }, insertedAt := now }
  ({ store with
      inner := store.inner.insert key entry
      tagIndex := (store.indexAfterInsert now key).register key tags },
    true)

def remove (store : MokaStore) (_ : Time) (key : Text) : MokaStore :=
  store.evict key

def purgeByTag (store : MokaStore) (_ : Time) (tag : Text) : MokaStore × Nat :=
  let keys := store.tagIndex.keysForTag tag
  (keys.foldl
      (fun store key =>
        let store := store.evict key
        { store with tagIndex := store.tagIndex.unregister key })
      store,
    keys.length)

/-- The second part of a key split at colons. -/
def keyHost (key : Text) : Option Text :=
  (key.splitOn ':')[1]?

def purgeHost (store : MokaStore) (now : Time) (host : Text) : MokaStore × Nat :=
  let keys := store.inner.keys.filter (fun key =>
    (store.get now key).isSome && keyHost key == some host)
  (keys.foldl evict store, keys.length)

def flush (store : MokaStore) (_ : Time) : MokaStore :=
  { store with inner := ∅, tagIndex := store.tagIndex.clear }

end MokaStore

instance : CacheBackend MokaStore where
  get store now key := (store, store.get now key)
  put := MokaStore.put
  remove := MokaStore.remove
  purgeByTag := MokaStore.purgeByTag
  purgeByRouteId := MokaStore.purgeByTag
  purgeHost := MokaStore.purgeHost
  flush := MokaStore.flush

/-! ## The cache over a backend -/

structure ResponseCache (store : Type) where
  backend : store
  rules : CompiledRuleSet
  defaultTtl : Nat
  maxTtl : Nat

structure PutRequest where
  key : Text
  host : Text
  path : Text
  status : UInt16
  headers : List (Text × Text)
  body : List UInt8
  cacheControl : Option Text
  tier : Tier
  policy : CachePolicy
  hasAuthorization : Bool
  hasCookie : Bool

def PutRequest.response (req : PutRequest) (ttl : Nat) : CachedResponse :=
  { status := req.status
    headers := req.headers
    body := req.body
    maxAge := ttl }

namespace ResponseCache

def makeKey (method host path query : Text) : Text :=
  if query = [] then method ++ ':' :: host ++ ':' :: path
  else method ++ ':' :: host ++ ':' :: path ++ '?' :: query

section Backend

variable {store : Type}

def ctxOf (cache : ResponseCache store) (req : PutRequest) : CacheCtx :=
  { tier := req.tier
    method := Text.beforeFirst ':' req.key
    host := req.host
    path := req.path
    status := req.status
    headers := req.headers
    cacheControl := req.cacheControl
    policy := req.policy
    maxTtlSecs := cache.maxTtl
    defaultTtlSecs := cache.defaultTtl
    hasAuthorization := req.hasAuthorization
    hasCookie := req.hasCookie }

def verdict (cache : ResponseCache store) (req : PutRequest) : Verdict :=
  resolve (gates cache.rules) (cache.ctxOf req)

variable [CacheBackend store]

def get (cache : ResponseCache store) (now : Time) (key : Text) (tier : Tier) :
    ResponseCache store × Option CachedResponse :=
  if tier = .critical then (cache, none)
  else
    let result := CacheBackend.get cache.backend now key
    ({ cache with backend := result.1 }, result.2)

def put (cache : ResponseCache store) (now : Time) (req : PutRequest) :
    ResponseCache store × Bool :=
  match cache.verdict req with
  | .bypass _ => (cache, false)
  | .cache ttl tags =>
    let result := CacheBackend.put cache.backend now req.key
      (req.response ttl) ttl tags
    ({ cache with backend := result.1 }, result.2)
  | .continue_ => (cache, false)

def purgeKey (cache : ResponseCache store) (now : Time) (key : Text) : ResponseCache store :=
  { cache with backend := CacheBackend.remove cache.backend now key }

def purgeByTag (cache : ResponseCache store) (now : Time) (tag : Text) : ResponseCache store :=
  { cache with backend := (CacheBackend.purgeByTag cache.backend now tag).1 }

def purgeByRouteId (cache : ResponseCache store) (now : Time) (id : Text) : ResponseCache store :=
  { cache with backend := (CacheBackend.purgeByRouteId cache.backend now id).1 }

def purgeHost (cache : ResponseCache store) (now : Time) (host : Text) : ResponseCache store :=
  { cache with backend := (CacheBackend.purgeHost cache.backend now host).1 }

def flush (cache : ResponseCache store) (now : Time) : ResponseCache store :=
  { cache with backend := CacheBackend.flush cache.backend now }

end Backend

def swapRules {store : Type} (cache : ResponseCache store)
    (set : CompiledRuleSet) : ResponseCache store :=
  { cache with rules := set }

def withRules (defaultTtlSecs maxTtlSecs : Nat) (rules : CompiledRuleSet) :
    ResponseCache MokaStore :=
  { backend := MokaStore.new maxTtlSecs
    rules := rules
    defaultTtl := defaultTtlSecs
    maxTtl := maxTtlSecs }

/-! A request is stored exactly when the verdict is to cache it. -/

theorem put_of_bypass {store : Type} [CacheBackend store]
    {cache : ResponseCache store} {req : PutRequest} {reason : BypassReason}
    (now : Time) (h : cache.verdict req = .bypass reason) :
    cache.put now req = (cache, false) := by
  simp only [put, h]

variable (now : Time) {cache : ResponseCache MokaStore} {req : PutRequest} {ttl : Nat}
  {tags : List Text}

theorem put_of_cache (h : cache.verdict req = .cache ttl tags) :
    cache.put now req = ({ cache with
          backend :=
            (cache.backend.put now req.key (req.response ttl) ttl tags).1 }, true) := by
  simp only [put, h]
  rfl

theorem lookup_put_of_cache (h : cache.verdict req = .cache ttl tags) :
    (cache.put now req).1.backend.inner.lookup req.key =
      some { response := req.response ttl, insertedAt := now } := by
  rw [put_of_cache now h]
  exact AList.lookup_insert _

theorem verdict_cases {store : Type} (cache : ResponseCache store) (req : PutRequest) :
    (exists reason, cache.verdict req = .bypass reason) ∨
      exists ttl tags, cache.verdict req = .cache ttl tags := by
  cases h : cache.verdict req with
  | bypass reason => exact Or.inl ⟨reason, rfl⟩
  | cache ttl tags => exact Or.inr ⟨ttl, tags, rfl⟩
  | continue_ => exact absurd h (resolve_ne_continue _ _)

theorem put_eq_unstored_iff (cache : ResponseCache MokaStore) (now : Time) (req : PutRequest) :
    cache.put now req = (cache, false) <->
      exists reason, cache.verdict req = .bypass reason := by
  rcases cache.verdict_cases req with ⟨reason, h⟩ | ⟨ttl, tags, h⟩
  · exact ⟨fun _ => ⟨reason, h⟩, fun _ => put_of_bypass now h⟩
  · constructor
    · intro hput
      rw [put_of_cache now h] at hput
      injection hput with _ hfalse
      cases hfalse
    · rintro ⟨reason, hbypass⟩
      rw [h] at hbypass
      cases hbypass

end ResponseCache

end Cache
end PrxWaf
