import PrxWaf.Cache.Valkey

/-!
# The store behind a circuit breaker

The store on the server is used as long as it answers.  After a number of failed
writes in a row the breaker opens, and reads and writes go to the store in memory
until the server answers again.  Removals and purges go to both stores.

Each store keeps what was written to it, so that both can have a value for a key.
-/

namespace PrxWaf
namespace Cache

open Lib

inductive CircuitState where
  | closed
  | opened
  | halfOpen
  deriving DecidableEq

def circuitBreakerStateFromCounters (failures threshold : UInt32)
    (trippedAt resetSecs nowSecs : Nat) : CircuitState :=
  if failures < threshold then .closed
  else if resetSecs ≤ nowSecs - trippedAt then .halfOpen
  else .opened

/-- When an operation takes place: on the clock of the stores, and in seconds on
the clock of the system as it begins and as it records a failure. -/
structure Moment where
  now : Time
  beginSecs : Nat
  failureSecs : Nat

structure CircuitBreakerStore where
  inner : ValkeyStore
  fallback : MokaStore
  threshold : UInt32
  resetSecs : Nat
  failures : UInt32
  trippedAt : Nat

namespace CircuitBreakerStore

def new (inner : ValkeyStore) (fallback : MokaStore) (threshold : UInt32)
    (resetSecs : Nat) : CircuitBreakerStore :=
  { inner := inner
    fallback := fallback
    threshold := threshold
    resetSecs := resetSecs
    failures := 0
    trippedAt := 0 }

variable (store : CircuitBreakerStore) (link : Link) (time : Moment)

def state (nowSecs : Nat) : CircuitState :=
  circuitBreakerStateFromCounters store.failures store.threshold
    store.trippedAt store.resetSecs nowSecs

def recordSuccess : CircuitBreakerStore :=
  { store with failures := 0, trippedAt := 0 }

def recordFailure (nowSecs : Nat) : CircuitBreakerStore :=
  let failures := store.failures + 1
  if store.threshold ≤ failures ∧ store.trippedAt = 0 then
    { store with failures := failures, trippedAt := nowSecs }
  else { store with failures := failures }

/-- A miss is not a failure, and neither is a read that fails. -/
def tryValkeyGet (key : Text) : CircuitBreakerStore × Option CachedResponse :=
  let result := store.inner.get link time.now key
  (if result.isSome then store.recordSuccess else store, result)

def get (key : Text) : CircuitBreakerStore × Option CachedResponse :=
  match store.state time.beginSecs with
  | .closed => store.tryValkeyGet link time key
  | .opened => (store, store.fallback.get time.now key)
  | .halfOpen =>
    if link.answered .ping then
      store.recordSuccess.tryValkeyGet link time key
    else
      (store.recordFailure time.failureSecs, store.fallback.get time.now key)

def putFallback (key : Text) (value : CachedResponse) (ttlSecs : Nat)
    (tags : List Text) : CircuitBreakerStore × Bool :=
  let result := store.fallback.put time.now key value ttlSecs tags
  ({ store with fallback := result.1 }, result.2)

def put (key : Text) (value : CachedResponse) (ttlSecs : Nat)
    (tags : List Text) : CircuitBreakerStore × Bool :=
  if store.state time.beginSecs = .opened then
    store.putFallback time key value ttlSecs tags
  else
    let result := store.inner.put link time.now key value ttlSecs tags
    let store := { store with inner := result.1 }
    if result.2 then (store.recordSuccess, true)
    else
      (store.recordFailure time.failureSecs).putFallback time key value ttlSecs tags

def remove (key : Text) : CircuitBreakerStore :=
  { store with
    inner := store.inner.remove link key
    fallback := store.fallback.remove time.now key }

def purgeByTag (tag : Text) : CircuitBreakerStore × Nat :=
  let result := store.inner.purgeByTag link tag
  ({ store with
      inner := result.1
      fallback := (store.fallback.purgeByTag time.now tag).1 },
    result.2)

def purgeByRouteId (routeId : Text) : CircuitBreakerStore × Nat :=
  let result := store.inner.purgeByRouteId link routeId
  ({ store with
      inner := result.1
      fallback := (CacheBackend.purgeByRouteId store.fallback time.now
        routeId).1 },
    result.2)

def purgeHost (host : Text) : CircuitBreakerStore × Nat :=
  let result := store.inner.purgeHost link time.now host
  ({ store with
      inner := result.1
      fallback := (store.fallback.purgeHost time.now host).1 },
    result.2)

def flush : CircuitBreakerStore :=
  { store with
    inner := store.inner.flush link time.now
    fallback := store.fallback.flush time.now }

inductive BackendOp where
  | get (key : Text)
  | put (key : Text) (value : CachedResponse) (ttlSecs : Nat)
      (tags : List Text)
  | remove (key : Text)
  | purgeByTag (tag : Text)
  | purgeByRouteId (routeId : Text)
  | purgeHost (host : Text)
  | flush

abbrev CacheEvent := CopyEvent Text Text CachedResponse

def perform : BackendOp -> CircuitBreakerStore × List CacheEvent
  | .get key =>
    let result := store.get link time key
    (result.1, [.read key result.2])
  | .put key value ttlSecs tags =>
    let result := store.put link time key value ttlSecs tags
    (result.1, if result.2 then [.write key value tags] else [])
  | .remove key =>
    (store.remove link time key, [.erase (fun k => decide (k = key))])
  | .purgeByTag tag => ((store.purgeByTag link time tag).1, [.eraseTag tag])
  | .purgeByRouteId routeId =>
    ((store.purgeByRouteId link time routeId).1, [.eraseTag routeId])
  | .purgeHost host =>
    ((store.purgeHost link time host).1, [.erase (coversHost host)])
  | .flush => (store.flush link time, [.erase (fun _ => true)])

end CircuitBreakerStore

open CircuitBreakerStore

structure BackendCall where
  link : Link
  time : Moment
  op : BackendOp

structure TracedStore where
  store : CircuitBreakerStore
  clock : Time
  log : List CacheEvent

namespace TracedStore

def start (threshold : UInt32) (resetSecs maxTtlSecs : Nat) (clock : Time) : TracedStore :=
  { store := new .empty (.new maxTtlSecs) threshold resetSecs
    clock := clock
    log := [] }

/-- The clock of the stores does not go back. -/
def step (s : TracedStore) (call : BackendCall) : Option TracedStore :=
  if s.clock ≤ call.time.now then
    let result := s.store.perform call.link call.time call.op
    some {
      store := result.1
      clock := call.time.now
      log := result.2 ++ s.log }
  else none

end TracedStore

namespace CircuitBreakerStore

structure Copies (store : CircuitBreakerStore) (now : Time) (log : List CacheEvent) : Prop where
  inner : (store.inner.view now).Faithful log
  fallback : (store.fallback.view now).Faithful log

variable {store : CircuitBreakerStore} {link : Link} {time : Moment}
  {log : List CacheEvent}

theorem Copies.later {clock now : Time} (h : store.Copies clock log)
    (hle : clock ≤ now) : store.Copies now log :=
  ⟨h.inner.of_keeps (ValkeyStore.view_later hle), h.fallback.of_keeps (MokaStore.view_later hle)⟩

theorem stores_recordFailure (store : CircuitBreakerStore) (nowSecs : Nat) :
    (store.recordFailure nowSecs).inner = store.inner ∧
      (store.recordFailure nowSecs).fallback = store.fallback := by
  unfold recordFailure
  dsimp only
  split
  · exact ⟨rfl, rfl⟩
  · exact ⟨rfl, rfl⟩

theorem copies_tryValkeyGet {now : Time} (h : store.Copies now log)
    (key : Text) : (store.tryValkeyGet link time key).1.Copies now log := by
  unfold tryValkeyGet
  dsimp only
  split
  · exact ⟨h.inner, h.fallback⟩
  · exact h

theorem copies_get {now : Time} (h : store.Copies now log) (link : Link)
    (time : Moment) (key : Text) :
    (store.get link time key).1.Copies now log := by
  unfold get
  split
  · exact copies_tryValkeyGet h key
  · exact h
  · split
    · have hsuccess : store.recordSuccess.Copies now log := ⟨h.inner, h.fallback⟩
      exact copies_tryValkeyGet hsuccess key
    · refine ⟨?_, ?_⟩
      · rw [(stores_recordFailure store _).1]
        exact h.inner
      · rw [(stores_recordFailure store _).2]
        exact h.fallback

theorem get_eq_some {key : Text} {v : CachedResponse} (h : (store.get link time key).2 = some v) :
    (store.inner.view time.now).holds key = some v ∨
      (store.fallback.view time.now).holds key = some v := by
  unfold get at h
  split at h
  · exact Or.inl (ValkeyStore.get_eq_some h)
  · exact Or.inr h
  · split at h
    · exact Or.inl (ValkeyStore.get_eq_some h)
    · exact Or.inr h

theorem readsCurrent_get (h : store.Copies time.now log)
    (hlog : CopyEvent.ReadsCurrent log) (key : Text) :
    CopyEvent.ReadsCurrent (.read key (store.get link time key).2 :: log) := by
  refine hlog.cons ?_
  intro k v hread
  injection hread with hkey hresult
  rw [← hkey]
  rcases get_eq_some hresult with hv | hv
  · obtain ⟨tags, hcurrent, -⟩ := h.inner key v hv
    exact ⟨tags, hcurrent⟩
  · obtain ⟨tags, hcurrent, -⟩ := h.fallback key v hv
    exact ⟨tags, hcurrent⟩

section Put

variable {key : Text} {value : CachedResponse} {ttlSecs : Nat}
  {tags : List Text}

/-- The store that does not get the value has none for the key, and the one that
gets it gets its tags. -/
def PutLands (store : CircuitBreakerStore) (link : Link) (time : Moment)
    (key : Text) (value : CachedResponse) (ttlSecs : Nat)
    (tags : List Text) : Prop :=
  if store.state time.beginSecs = .opened then
    (store.inner.view time.now).holds key = none ∧ value.maxAge = ttlSecs
  else
    let fate := ValkeyStore.setFate link time.now key ttlSecs
    (fate = .answered ->
      (store.fallback.view time.now).holds key = none ∧
        forall tag, tag ∈ tags -> link.done (.saddTag tag key) = true) ∧
    (fate = .unanswered -> tags = [] ∧ value.maxAge = ttlSecs) ∧
    (fate = .undone -> (store.inner.view time.now).holds key = none ∧ value.maxAge = ttlSecs)

instance (store : CircuitBreakerStore) (link : Link) (time : Moment)
    (key : Text) (value : CachedResponse) (ttlSecs : Nat) (tags : List Text) :
    Decidable (store.PutLands link time key value ttlSecs tags) := by
  delta PutLands
  infer_instance

theorem put_accepted :
    (store.put link time key value ttlSecs tags).2 = true := by
  unfold put
  split
  · rfl
  · dsimp only
    split
    · rfl
    · rfl

theorem faithful_write_of_none {view : TaggedView Text Text CachedResponse}
    (h : view.Faithful log) (hnone : view.holds key = none) :
    view.Faithful (.write key value tags :: log) := by
  refine h.write (fun k _ => TaggedView.KeepsKey.refl view k) ?_
  intro w hw
  rw [hnone] at hw
  cases hw

theorem faithful_putFallback {now : Time} {fallback : MokaStore}
    (h : (fallback.view now).Faithful log) (hage : value.maxAge = ttlSecs) :
    ((fallback.put now key value ttlSecs tags).1.view now).Faithful
      (.write key value tags :: log) := by
  refine h.write (fun k hk => MokaStore.put_keeps value ttlSecs tags hk) ?_
  intro w hw
  obtain ⟨hvalue, htags⟩ := MokaStore.put_self hw
  refine ⟨?_, htags⟩
  rw [hvalue, ← hage]

theorem faithful_putInner {now : Time} {inner : ValkeyStore} (h : (inner.view now).Faithful log)
    (hdone : (ValkeyStore.setFate link now key ttlSecs).isDone = true)
    (htags : forall tag, tag ∈ tags -> ValkeyStore.setFate link now key ttlSecs = .answered ∧
        link.done (.saddTag tag key) = true) :
    ((inner.put link now key value ttlSecs tags).1.view now).Faithful
      (.write key value tags :: log) :=
  h.write (fun _ hk => ValkeyStore.put_keeps hk) (fun _ hw => ValkeyStore.put_self hdone htags hw)

theorem copies_putFallback {nowSecs : Nat} (hinner : (store.inner.view time.now).Faithful
      (.write key value tags :: log)) (hfallback : (store.fallback.view time.now).Faithful log)
    (hage : value.maxAge = ttlSecs) :
    ((store.recordFailure nowSecs).putFallback time key value ttlSecs
      tags).1.Copies time.now (.write key value tags :: log) := by
  unfold putFallback
  constructor
  · dsimp only
    rw [(stores_recordFailure store _).1]
    exact hinner
  · dsimp only
    rw [(stores_recordFailure store _).2]
    exact faithful_putFallback hfallback hage

theorem copies_put (h : store.Copies time.now log)
    (hlands : store.PutLands link time key value ttlSecs tags) :
    (store.put link time key value ttlSecs tags).1.Copies time.now
      (.write key value tags :: log) := by
  unfold PutLands at hlands
  unfold put
  split
  · rename_i hopened
    rw [if_pos hopened] at hlands
    exact ⟨faithful_write_of_none h.inner hlands.1, faithful_putFallback h.fallback hlands.2⟩
  · rename_i hopened
    rw [if_neg hopened] at hlands
    obtain ⟨hanswered, hunanswered, hundone⟩ := hlands
    have haccepted := ValkeyStore.put_accepted_iff store.inner link time.now key value ttlSecs tags
    dsimp only
    cases hfate : ValkeyStore.setFate link time.now key ttlSecs with
    | answered =>
      obtain ⟨hnone, htags⟩ := hanswered hfate
      rw [if_pos (haccepted.mpr hfate)]
      refine ⟨?_, faithful_write_of_none h.fallback hnone⟩
      exact faithful_putInner h.inner (by rw [hfate]; rfl) (fun tag htag => ⟨hfate, htags tag htag⟩)
    | unanswered =>
      obtain ⟨hnotags, hage⟩ := hunanswered hfate
      have hrefused : ¬ (store.inner.put link time.now key value ttlSecs tags).2 = true := by
        rw [haccepted, hfate]
        exact Fate.noConfusion
      rw [if_neg hrefused]
      refine copies_putFallback ?_ h.fallback hage
      refine faithful_putInner h.inner (by rw [hfate]; rfl) ?_
      intro tag htag
      rw [hnotags] at htag
      cases htag
    | undone =>
      obtain ⟨hnone, hage⟩ := hundone hfate
      rw [ValkeyStore.put_undone hfate]
      exact copies_putFallback (faithful_write_of_none h.inner hnone) h.fallback hage

end Put

theorem copies_remove {key : Text} (h : store.Copies time.now log)
    (hclears : store.inner.Clears time.now (fun k => k = key)
      (fun k => link.done (.del k) = true)) :
    (store.remove link time key).Copies time.now (.erase (fun k => decide (k = key)) :: log) := by
  constructor
  · refine h.inner.erase (ValkeyStore.remove_keeps hclears) ?_
    intro k hk
    rw [of_decide_eq_true hk]
    exact ValkeyStore.remove_gone hclears
  · refine h.fallback.erase (MokaStore.evict_keeps _ time.now key) ?_
    intro k hk
    rw [of_decide_eq_true hk]
    exact MokaStore.evict_gone store.fallback time.now key

def TagClears (store : CircuitBreakerStore) (link : Link) (now : Time) (tag : Text) : Prop :=
  store.inner.Clears now ((store.inner.view now).tagged tag) (fun k =>
    link.answered (.smembersTag tag) = true ∧ link.done (.del k) = true)

instance (store : CircuitBreakerStore) (link : Link) (now : Time)
    (tag : Text) : Decidable (store.TagClears link now tag) :=
  inferInstanceAs (Decidable (forall k, k ∈ store.inner.tagKeys tag ->
    ((store.inner.view now).holds k).isSome = true ->
      link.answered (.smembersTag tag) = true ∧ link.done (.del k) = true))

theorem copies_purgeByTag {tag : Text} (h : store.Copies time.now log)
    (hclears : store.TagClears link time.now tag) :
    (store.purgeByTag link time tag).1.Copies time.now (.eraseTag tag :: log) := by
  constructor
  · refine h.inner.eraseTag (ValkeyStore.purgeByTag_keeps hclears) ?_
    intro k hk
    exact ValkeyStore.purgeByTag_gone hclears hk
  · refine h.fallback.eraseTag (MokaStore.purgeByTag_keeps _ time.now tag) ?_
    intro k hk
    exact MokaStore.purgeByTag_gone tag hk

theorem copies_purgeHost {host : Text} (h : store.Copies time.now log)
    (hplain : Glob.IsPlain (utf8 host)) (hcolon : ':' ∉ host)
    (hclears : store.inner.Clears time.now (fun k => coversHost host k = true)
      (fun k => k ∈ link.seen ∧ link.done (.del k) = true)) :
    (store.purgeHost link time host).1.Copies time.now (.erase (coversHost host) :: log) := by
  constructor
  · refine h.inner.erase (ValkeyStore.delEach_keeps _ link time.now _) ?_
    intro k hk
    exact ValkeyStore.purgeHost_gone hplain hclears hk
  · refine h.fallback.erase (MokaStore.purgeHost_keeps _ time.now host) ?_
    intro k hk
    exact MokaStore.purgeHost_gone hcolon hk

theorem copies_flush (h : store.Copies time.now log)
    (hclears : store.inner.Clears time.now (fun _ => True)
      (fun k => k ∈ link.seen ∧ link.done .delBatch = true)) :
    (store.flush link time).Copies time.now (.erase (fun _ => true) :: log) := by
  constructor
  · refine h.inner.erase (ValkeyStore.flush_keeps _ link time.now) ?_
    intro k hk
    exact ValkeyStore.flush_gone hclears k
  · exact TaggedView.faithful_of_holds_none (MokaStore.flush_gone store.fallback time.now)

/-!
## Whole runs

An entry can have two copies, one on each side of the breaker. Operations that land leave
no other copy of what they replace or remove, so only the last one is read.
-/

/-- The operation leaves no copy of what it replaces or removes. -/
def Lands (store : CircuitBreakerStore) (link : Link) (time : Moment) : BackendOp -> Prop
  | .get _ => True
  | .put key value ttlSecs tags =>
    store.PutLands link time key value ttlSecs tags
  | .remove key =>
    store.inner.Clears time.now (fun k => k = key) (fun k => link.done (.del k) = true)
  | .purgeByTag tag => store.TagClears link time.now tag
  | .purgeByRouteId routeId => store.TagClears link time.now routeId
  | .purgeHost host =>
    Glob.IsPlain (utf8 host) ∧ ':' ∉ host ∧
      store.inner.Clears time.now (fun k => coversHost host k = true)
        (fun k => k ∈ link.seen ∧ link.done (.del k) = true)
  | .flush =>
    store.inner.Clears time.now (fun _ => True)
      (fun k => k ∈ link.seen ∧ link.done .delBatch = true)

theorem copies_perform {op : BackendOp} (h : store.Copies time.now log)
    (hlands : store.Lands link time op) :
    (store.perform link time op).1.Copies time.now ((store.perform link time op).2 ++ log) := by
  cases op with
  | get key =>
    have hget := copies_get h link time key
    exact ⟨hget.inner.read key _, hget.fallback.read key _⟩
  | put key value ttlSecs tags =>
    have hput := copies_put h hlands
    unfold perform
    dsimp only
    rw [if_pos put_accepted]
    exact hput
  | remove key => exact copies_remove h hlands
  | purgeByTag tag => exact copies_purgeByTag h hlands
  | purgeByRouteId routeId => exact copies_purgeByTag h hlands
  | purgeHost host =>
    obtain ⟨hplain, hcolon, hclears⟩ := hlands
    exact copies_purgeHost h hplain hcolon hclears
  | flush => exact copies_flush h hlands

theorem readsCurrent_perform {op : BackendOp} (h : store.Copies time.now log)
    (hlog : CopyEvent.ReadsCurrent log) :
    CopyEvent.ReadsCurrent ((store.perform link time op).2 ++ log) := by
  cases op with
  | get key => exact readsCurrent_get h hlog key
  | put key value ttlSecs tags =>
    unfold perform
    dsimp only
    rw [if_pos put_accepted]
    exact hlog.cons (fun _ _ hevent => by cases hevent)
  | remove key => exact hlog.cons (fun _ _ hevent => by cases hevent)
  | purgeByTag tag => exact hlog.cons (fun _ _ hevent => by cases hevent)
  | purgeByRouteId routeId =>
    exact hlog.cons (fun _ _ hevent => by cases hevent)
  | purgeHost host => exact hlog.cons (fun _ _ hevent => by cases hevent)
  | flush => exact hlog.cons (fun _ _ hevent => by cases hevent)

end CircuitBreakerStore

namespace TracedStore

def Lands (s : TracedStore) (call : BackendCall) : Prop :=
  s.store.Lands call.link call.time call.op

structure Sound (s : TracedStore) : Prop where
  copies : s.store.Copies s.clock s.log
  reads : CopyEvent.ReadsCurrent s.log

theorem sound_start (threshold : UInt32) (resetSecs maxTtlSecs : Nat)
    (clock : Time) : (start threshold resetSecs maxTtlSecs clock).Sound := by
  refine ⟨⟨?_, ?_⟩, CopyEvent.readsCurrent_nil⟩
  · exact TaggedView.faithful_of_holds_none (fun _ => rfl)
  · exact TaggedView.faithful_of_holds_none (MokaStore.new_holds maxTtlSecs clock)

theorem sound_step {s s' : TracedStore} {call : BackendCall} (h : s.Sound)
    (hlands : s.Lands call) (hstep : s.step call = some s') : s'.Sound := by
  unfold step at hstep
  split at hstep
  · rename_i hclock
    cases hstep
    have hnow := h.copies.later hclock
    exact ⟨copies_perform hnow hlands, readsCurrent_perform hnow h.reads⟩
  · cases hstep

end TracedStore

/-- In a run whose operations leave no copy of what they replace or remove, every
value that is read is the one written last under its key, and it was not removed
since. -/
theorem removals_final {threshold : UInt32} {resetSecs maxTtlSecs : Nat}
    {clock : Time} {calls : List BackendCall} {t : TracedStore}
    (hmeet : StepsMeet TracedStore.step TracedStore.Lands
      (TracedStore.start threshold resetSecs maxTtlSecs clock) calls)
    (hrun : runFrom TracedStore.step
      (TracedStore.start threshold resetSecs maxTtlSecs clock) calls = some t) :
    CopyEvent.ReadsCurrent t.log :=
  (runFrom_invariant TracedStore.sound_step
    (TracedStore.sound_start threshold resetSecs maxTtlSecs clock) hmeet hrun).reads

def serverUp : Link :=
  { fate := fun _ => .answered, seen := [] }

def serverDown : Link :=
  { fate := fun _ => .undone, seen := [] }

def callAt (secs : Nat) (link : Link) (op : BackendOp) : BackendCall :=
  { link := link
    time :=
      { now := secs * nanosPerSec
        beginSecs := secs
        failureSecs := secs }
    op := op }

def pageKey : Text := "GET:shop:/".toList

def pageBody (body : List UInt8) : CachedResponse :=
  { status := 200
    headers := []
    body := body
    maxAge := 600 }

def putPage (body : List UInt8) : BackendOp :=
  .put pageKey (pageBody body) 600 ["shop".toList]

/-- The page is purged before the server fails, and removed while the breaker is
open. -/
def outageCalls : List BackendCall :=
  [callAt 1 serverUp (putPage [1]),
    callAt 2 serverUp (.get pageKey),
    callAt 3 serverUp (.purgeByTag "shop".toList),
    callAt 4 serverDown (putPage [2]),
    callAt 5 serverDown (.get pageKey),
    callAt 6 serverDown (.remove pageKey),
    callAt 7 serverDown (.get pageKey)]

def outageStart : TracedStore :=
  .start 1 30 3600 0

theorem outage_lands :
    StepsMeet TracedStore.step TracedStore.Lands outageStart outageCalls := by
  refine stepsMeet_cons ?_ rfl ?_
  · dsimp only [TracedStore.Lands, CircuitBreakerStore.Lands, callAt, putPage]
    decide
  refine stepsMeet_cons trivial rfl ?_
  refine stepsMeet_cons ?_ rfl ?_
  · dsimp only [TracedStore.Lands, CircuitBreakerStore.Lands, callAt]
    decide
  refine stepsMeet_cons ?_ rfl ?_
  · dsimp only [TracedStore.Lands, CircuitBreakerStore.Lands, callAt, putPage]
    decide
  refine stepsMeet_cons trivial rfl ?_
  refine stepsMeet_cons ?_ rfl ?_
  · intro k hk hlive
    rw [hk] at hlive
    exact absurd hlive (by decide)
  exact stepsMeet_cons trivial rfl trivial

def answersOf (log : List CacheEvent) : List (Option CachedResponse) :=
  log.filterMap (fun event =>
    match event with
    | .read _ result => some result
    | _ => none)

theorem outage_reads_current :
    exists t, runFrom TracedStore.step outageStart outageCalls = some t ∧ answersOf t.log =
        [none, some (pageBody [2]), some (pageBody [1])] ∧ CopyEvent.ReadsCurrent t.log :=
  ⟨_, rfl, by decide, removals_final outage_lands rfl⟩

/-- A page is removed or replaced while the server is down for a moment, and then
read. -/
def blipCalls (op : BackendOp) : List BackendCall :=
  [callAt 1 serverUp (putPage [1]), callAt 2 serverDown op, callAt 3 serverUp (.get pageKey)]

/-- The first page is served after it was removed, and after it was replaced. -/
theorem removed_page_served :
    (exists t, runFrom TracedStore.step (.start 3 30 3600 0)
        (blipCalls (.remove pageKey)) = some t ∧ answersOf t.log = [some (pageBody [1])] ∧
      ¬ CopyEvent.ReadsCurrent t.log) ∧
    exists t, runFrom TracedStore.step (.start 3 30 3600 0) (blipCalls (putPage [2])) = some t ∧
      answersOf t.log = [some (pageBody [1])] ∧ ¬ CopyEvent.ReadsCurrent t.log := by
  refine ⟨⟨_, rfl, by decide, ?_⟩, ⟨_, rfl, by decide, ?_⟩⟩
  · exact CopyEvent.not_readsCurrent_of_read pageKey (pageBody [1]) (by decide)
  · exact CopyEvent.not_readsCurrent_of_read pageKey (pageBody [1]) (by decide)

end Cache
end PrxWaf
