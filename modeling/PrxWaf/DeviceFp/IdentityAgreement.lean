import PrxWaf.DeviceFp.IdentityMemory
import PrxWaf.DeviceFp.IdentityRedis
import PrxWaf.Net.IpDisplay

/-!
# Both identity stores on the same calls

The store in memory gives up observations at the front of a queue, the store in
Redis forgets every member whose last time is too old.  Both are compared with
what is left of the history of calls.
-/

namespace PrxWaf
namespace DeviceFp

open Lib Net Redis

structure Call where
  nowMs : Int
  ip : IpAddr
  ua : Text
  ts : Int

def memoryAnswers (key : FpKey) : MemoryIdentityStore -> List Call -> List Observation
  | _, [] => []
  | store, call :: rest =>
    let result := store.observe key call.ip call.ua call.ts
    result.2 :: memoryAnswers key result.1 rest

def redisAnswers (store : RedisIdentityStore) (key : FpKey) : Server ->
    List Call -> List (Option Observation)
  | _, [] => []
  | server, call :: rest =>
    let result := store.observe server call.nowMs key call.ip call.ua call.ts
    result.2 :: redisAnswers store key result.1 rest

/-! ## Answers as functions of the history

Histories are listed from the newest call.
-/

section Along

variable {answer : Type}

/-- The answers to calls, each read off the call and those before it. -/
def answersAlong (f : Call -> List Call -> answer) : List Call -> List Call -> List answer
  | _, [] => []
  | past, call :: rest => f call past :: answersAlong f (call :: past) rest

theorem answersAlong_eq_iff {f g : Call -> List Call -> answer} {past calls : List Call} :
    answersAlong f past calls = answersAlong g past calls <->
      forall front call back, calls = front ++ call :: back ->
        f call (front.reverse ++ past) = g call (front.reverse ++ past) := by
  induction calls generalizing past with
  | nil => simp [answersAlong]
  | cons first rest ih =>
    unfold answersAlong
    rw [List.cons.injEq, ih]
    constructor
    · rintro ⟨hfirst, hrest⟩ front call back hsplit
      cases front with
      | nil =>
        obtain ⟨rfl, -⟩ := List.cons.inj hsplit
        exact hfirst
      | cons head front =>
        rw [List.cons_append] at hsplit
        obtain ⟨rfl, hback⟩ := List.cons.inj hsplit
        rw [List.reverse_cons, List.append_assoc]
        exact hrest front call back hback
    · intro h
      refine ⟨h [] first rest rfl, ?_⟩
      intro front call back hsplit
      have hcall := h (first :: front) call back (by rw [hsplit]; rfl)
      rw [List.reverse_cons, List.append_assoc] at hcall
      exact hcall

end Along

def seenOf (givesWay : Int -> Int -> Bool) : List Call -> Option Int
  | [] => none
  | call :: older =>
    some (seenAfter (seenOf givesWay older) (givesWay call.ts) call.ts)

def firstSeenOf : List Call -> Option Int :=
  seenOf (fun ts fs => ts < fs)

def lastSeenOf : List Call -> Option Int :=
  seenOf (fun ts ls => ls < ts)

namespace MemoryIdentityStore

def ipsAfter (store : MemoryIdentityStore) (history : List Call) : Window IpAddr :=
  Window.after Call.ts store.cutoff Call.ip history

def uasAfter (store : MemoryIdentityStore) (history : List Call) : Window UInt64 :=
  Window.after Call.ts store.cutoff (fun call => store.hashUa call.ua) history

def entryOf (store : MemoryIdentityStore) : List Call -> Option Entry
  | [] => none
  | call :: older =>
    some {
      firstSeen := seenAfter (firstSeenOf older) (fun fs => call.ts < fs)
        call.ts
      lastSeen := seenAfter (lastSeenOf older) (fun ls => ls < call.ts)
        call.ts
      ips := store.ipsAfter (call :: older)
      uas := store.uasAfter (call :: older) }

def answerOf (store : MemoryIdentityStore) (call : Call) (past : List Call) : Observation :=
  { distinctIpsInWindow := clampU16 (store.ipsAfter (call :: past)).card
    distinctUasInWindow := clampU16 (store.uasAfter (call :: past)).card
    firstSeenUnix := seenAfter (firstSeenOf past) (fun fs => call.ts < fs)
      call.ts
    lastSeenUnix := seenAfter (lastSeenOf past) (fun ls => ls < call.ts)
      call.ts }

def Holds (store : MemoryIdentityStore) (key : FpKey) (past : List Call) : Prop :=
  store.map.lookup key = store.entryOf past ∧
    store.map.size ≤ store.cfg.maxEntries ∧ (past = [] -> store.map.size < store.cfg.maxEntries)

theorem observed_entryOf (store : MemoryIdentityStore) (past : List Call) (call : Call) :
    some (Entry.observed (store.entryOf past) call.ip (store.hashUa call.ua)
      call.ts (store.cutoff call.ts)) = store.entryOf (call :: past) := by
  cases past with
  | nil =>
    unfold entryOf Entry.observed Entry.new Entry.push
    dsimp only
    rw [ite_self]
    rfl
  | cons last older =>
    unfold entryOf Entry.observed Entry.push Entry.evictWindow
    simp only [firstSeenOf, lastSeenOf, seenOf, seenAfter, decide_eq_true_eq]
    rfl

variable {store : MemoryIdentityStore} {key : FpKey} {past : List Call}

theorem observe_of_holds (h : store.Holds key past) (call : Call) :
    exists map, store.observe key call.ip call.ua call.ts =
        ({ store with map := map }, store.answerOf call past) ∧
      Holds { store with map := map } key (call :: past) := by
  obtain ⟨hlookup, hsize, hroom⟩ := h
  have hentry := store.observed_entryOf past call
  have hinsert : forall entry, (store.map.insert key entry).size ≤ store.cfg.maxEntries := by
    intro entry
    cases past with
    | nil =>
      rw [Table.size_insert_of_none hlookup]
      exact hroom rfl
    | cons last older =>
      rw [Table.size_insert_of_some hlookup]
      exact hsize
  refine ⟨store.map.insert key (Entry.observed (store.entryOf past) call.ip
    (store.hashUa call.ua) call.ts (store.cutoff call.ts)), ?_, ?_⟩
  · unfold observe
    dsimp only
    rw [hlookup, if_neg (Nat.not_lt.mpr (hinsert _)), Option.some.inj hentry]
    rfl
  · refine ⟨?_, hinsert _, fun hnil => by cases hnil⟩
    exact Table.lookup_insert_self.trans hentry

theorem memoryAnswers_eq (h : store.Holds key past) (calls : List Call) :
    memoryAnswers key store calls = answersAlong store.answerOf past calls := by
  induction calls generalizing store past with
  | nil => rfl
  | cons call rest ih =>
    obtain ⟨map, hobserve, hholds⟩ := observe_of_holds h call
    unfold memoryAnswers answersAlong
    rw [hobserve]
    dsimp only
    rw [ih hholds]
    rfl

end MemoryIdentityStore

namespace RedisIdentityStore

def ipsAfter (store : RedisIdentityStore) (history : List Call) : Table Text Int :=
  scoresAfter Call.ts store.cutoff (fun call => call.ip.display) history

def uasAfter (store : RedisIdentityStore) (history : List Call) : Table Text Int :=
  scoresAfter Call.ts store.cutoff (fun call => hex16 (store.hasher call.ua)) history

def answerOf (store : RedisIdentityStore) (call : Call) (past : List Call) : Observation :=
  { distinctIpsInWindow := clampU16 (store.ipsAfter (call :: past)).size
    distinctUasInWindow := clampU16 (store.uasAfter (call :: past)).size
    firstSeenUnix := seenAfter (firstSeenOf past) (fun fs => call.ts < fs)
      call.ts
    lastSeenUnix := seenAfter (lastSeenOf past) (fun ls => ls < call.ts)
      call.ts }

def Holds (store : RedisIdentityStore) (server : Server) (key : FpKey) : List Call -> Prop
  | [] =>
    server (store.scriptKeys key).kMeta = none ∧
      server (store.scriptKeys key).kIps = none ∧
      server (store.scriptKeys key).kUas = none
  | last :: older =>
    exists before fields, Written before server (store.scriptKeys key)
        (last.nowMs + store.cfg.ttlSecs * 1000) fields
        (store.ipsAfter (last :: older)) (store.uasAfter (last :: older)) ∧
      fields.lookup firstSeenField = firstSeenOf (last :: older) ∧
      fields.lookup lastSeenField = lastSeenOf (last :: older)

/-- The last call, if any, has not yet expired. -/
def Fresh (store : RedisIdentityStore) (past : List Call) (nowMs : Int) : Prop :=
  forall last, past.head? = some last -> nowMs < last.nowMs + store.cfg.ttlSecs * 1000

variable {store : RedisIdentityStore} {server : Server} {key : FpKey} {past : List Call}

theorem values_of_holds {nowMs : Int}
    (h : store.Holds server key past) (hfresh : store.Fresh past nowMs) :
    exists fields, server.hashAt nowMs (store.scriptKeys key).kMeta = some fields ∧
      server.zsetAt nowMs (store.scriptKeys key).kIps = some (store.ipsAfter past) ∧
      server.zsetAt nowMs (store.scriptKeys key).kUas = some (store.uasAfter past) ∧
      fields.lookup firstSeenField = firstSeenOf past ∧
      fields.lookup lastSeenField = lastSeenOf past := by
  cases past with
  | nil =>
    obtain ⟨hfields, hips, huas⟩ := h
    exact ⟨_, Server.hashAt_of_absent nowMs hfields, Server.zsetAt_of_absent nowMs hips,
      Server.zsetAt_of_absent nowMs huas, Table.lookup_empty _, Table.lookup_empty _⟩
  | cons last older =>
    obtain ⟨before, fields, hwritten, hfirst, hlast⟩ := h
    have hnow := hfresh last rfl
    exact ⟨fields, hwritten.hashAt hnow, hwritten.ipsAt hnow, hwritten.uasAt hnow, hfirst, hlast⟩

theorem observe_of_holds {call : Call}
    (h : store.Holds server key past) (hfresh : store.Fresh past call.nowMs)
    (hexact : Exact (store.cutoff call.ts)) (httl : 0 < store.cfg.ttlSecs) :
    exists after, store.observe server call.nowMs key call.ip call.ua call.ts =
        (after, some (store.answerOf call past)) ∧ store.Holds after key (call :: past) := by
  obtain ⟨fields, hfields, hips, huas, hfirst, hlast⟩ := values_of_holds h hfresh
  obtain ⟨after, fieldsAfter, seen, hobserve, hwritten, hseen, hfirstAfter,
    hlastAfter⟩ := observe_of_some call.ip call.ua hfields hips huas hexact httl
  rw [hfirst, hlast] at hseen
  cases hseen
  exact ⟨after, hobserve, server, fieldsAfter, hwritten, hfirstAfter, hlastAfter⟩

def Kept (store : RedisIdentityStore) (calls : List Call) : Prop :=
  calls.IsChain (fun (last call : Call) =>
    call.nowMs < last.nowMs + store.cfg.ttlSecs * 1000)

theorem redisAnswers_eq {calls : List Call}
    (h : store.Holds server key past) (httl : 0 < store.cfg.ttlSecs)
    (hkept : store.Kept (past.head?.toList ++ calls))
    (hexact : forall call, call ∈ calls -> Exact (store.cutoff call.ts)) :
    redisAnswers store key server calls = (answersAlong store.answerOf past calls).map some := by
  induction calls generalizing server past with
  | nil => rfl
  | cons call rest ih =>
    have hfresh : store.Fresh past call.nowMs := by
      intro last hlast
      rw [hlast] at hkept
      exact (List.isChain_cons_cons.mp hkept).1
    obtain ⟨after, hobserve, hholds⟩ :=
      observe_of_holds h hfresh (hexact call (List.mem_cons_self)) httl
    unfold redisAnswers answersAlong
    rw [hobserve]
    dsimp only
    rw [ih hholds (hkept.suffix (List.suffix_append _ _))
      (fun other hother => hexact other (List.mem_cons_of_mem _ hother))]
    rfl

end RedisIdentityStore

/-!
## Agreement

Both answers are functions of the history. While the hashes tell user agents apart, they
differ just where a cutoff does not pass the calls in order.
-/

def CollisionFree (hash : Text -> UInt64) (calls : List Call) : Prop :=
  forall a, a ∈ calls -> forall b, b ∈ calls -> hash a.ua = hash b.ua -> a.ua = b.ua

theorem CollisionFree.mono {hash : Text -> UInt64} {calls others : List Call}
    (h : CollisionFree hash calls) (hsub : others ⊆ calls) :
    CollisionFree hash others :=
  fun a ha b hb => h a (hsub ha) b (hsub hb)

section Agreement

variable {memory : MemoryIdentityStore} {redis : RedisIdentityStore}

theorem card_uas {name : Type} [DecidableEq name] {hash : Text -> UInt64}
    {rename : UInt64 -> name} (hrename : Function.Injective rename)
    {history : List Call} (hfree : CollisionFree hash history) (cut : Int -> Int) :
    ((fresh Call.ts cut history).map (fun call => rename (hash call.ua))).toFinset.card =
      ((fresh Call.ts cut history).map Call.ua).toFinset.card := by
  refine card_renamed (fun ua => rename (hash ua)) ?_
  intro a ha b hb hab
  exact hfree.mono (fresh_sublist history).subset a ha b hb (hrename hab)

theorem cutoff_eq (hwindow : memory.cfg.windowSecs = redis.cfg.windowSecs) :
    memory.cutoff = redis.cutoff := by
  funext ts
  unfold MemoryIdentityStore.cutoff RedisIdentityStore.cutoff
  rw [hwindow]

theorem answerOf_eq (hwindow : memory.cfg.windowSecs = redis.cfg.windowSecs)
    {call : Call} {past : List Call} (horder : Orderly Call.ts redis.cutoff (call :: past))
    (hmemory : CollisionFree memory.hashUa (call :: past))
    (hredis : CollisionFree redis.hasher (call :: past)) :
    redis.answerOf call past = memory.answerOf call past := by
  have hips : (redis.ipsAfter (call :: past)).size = (memory.ipsAfter (call :: past)).card := by
    unfold RedisIdentityStore.ipsAfter MemoryIdentityStore.ipsAfter
    rw [cutoff_eq hwindow, size_scoresAfter horder, Window.card_after horder]
    refine card_renamed IpAddr.display ?_
    intro a ha b hb hab
    exact IpAddr.display_injective hab
  have huas : (redis.uasAfter (call :: past)).size = (memory.uasAfter (call :: past)).card := by
    unfold RedisIdentityStore.uasAfter MemoryIdentityStore.uasAfter
    rw [cutoff_eq hwindow, size_scoresAfter horder, Window.card_after horder,
      card_uas hex16_injective hredis]
    exact (card_uas Function.injective_id hmemory redis.cutoff).symm
  unfold RedisIdentityStore.answerOf MemoryIdentityStore.answerOf
  rw [hips, huas]

def callAt (who : Int -> IpAddr) (ts : Int) : Call :=
  { nowMs := 0, ip := who ts, ua := [], ts := ts }

theorem orderly_concat_of_answer (hwindow : memory.cfg.windowSecs = redis.cfg.windowSecs)
    {front : List Int} {t : Int} (hexact : Exact (redis.cutoff t))
    (hfront : Orderly id redis.cutoff front.reverse) (h : forall who,
      redis.answerOf (callAt who t) (front.map (callAt who)).reverse =
        memory.answerOf (callAt who t) (front.map (callAt who)).reverse) :
    Orderly id redis.cutoff (front ++ [t]).reverse := by
  rw [List.reverse_append]
  refine ⟨Classical.byContradiction ?_, hfront⟩
  intro hnot
  have hdistinct : IpAddr.v4 (Ipv4Addr.new 10 0 0 1) ≠
    IpAddr.v4 (Ipv4Addr.new 10 0 0 2) := by decide
  have hcutoff : redis.cutoff (id t) ≤ id t := RedisIdentityStore.cutoff_le hexact
  obtain ⟨who, hcard, hsize⟩ := cards_differ hcutoff hfront hnot hdistinct
  have hanswer := congrArg Observation.distinctIpsInWindow (h who)
  unfold RedisIdentityStore.answerOf MemoryIdentityStore.answerOf
    RedisIdentityStore.ipsAfter MemoryIdentityStore.ipsAfter at hanswer
  dsimp only at hanswer
  rw [← List.map_reverse, ← List.map_cons, scoresAfter_map,
    Window.after_map, cutoff_eq hwindow] at hanswer
  have hone := congrArg clampU16 (hsize IpAddr.display)
  have htwo := congrArg clampU16 hcard
  exact absurd (hone.symm.trans (hanswer.trans htwo)) (by decide)

theorem orderly_of_answers (hwindow : memory.cfg.windowSecs = redis.cfg.windowSecs)
    {times : List Int} (hexact : forall t, t ∈ times -> Exact (redis.cutoff t))
    (h : forall who front t back, times = front ++ t :: back ->
      redis.answerOf (callAt who t) (front.map (callAt who)).reverse =
        memory.answerOf (callAt who t) (front.map (callAt who)).reverse) :
    Orderly id redis.cutoff times.reverse := by
  have hpart : forall front back, times = front ++ back ->
      Orderly id redis.cutoff front.reverse := by
    intro front
    induction front using List.reverseRecOn with
    | nil =>
      intro back hsplit
      exact True.intro
    | append_singleton front t ih =>
      intro back hsplit
      rw [List.append_assoc] at hsplit
      exact orderly_concat_of_answer hwindow (hexact t (by simp [hsplit])) (ih (t :: back) hsplit)
        (fun who => h who front t back hsplit)
  exact hpart times [] (List.append_nil times).symm

section Calls

variable {server : Server} {key : FpKey} {calls : List Call}

theorem answers_eq_iff (httl : 0 < redis.cfg.ttlSecs)
    (hmemory : memory.Holds key []) (hredis : redis.Holds server key []) (hkept : redis.Kept calls)
    (hexact : forall call, call ∈ calls -> Exact (redis.cutoff call.ts)) :
    redisAnswers redis key server calls = (memoryAnswers key memory calls).map some <->
      forall front call back, calls = front ++ call :: back ->
        redis.answerOf call front.reverse = memory.answerOf call front.reverse := by
  rw [RedisIdentityStore.redisAnswers_eq hredis httl hkept hexact,
    MemoryIdentityStore.memoryAnswers_eq hmemory,
    List.map_inj_right (fun _ _ => Option.some.inj), answersAlong_eq_iff]
  simp only [List.append_nil]

theorem answers_eq_of_orderly (hwindow : memory.cfg.windowSecs = redis.cfg.windowSecs)
    (httl : 0 < redis.cfg.ttlSecs) (hmemory : memory.Holds key [])
    (hredis : redis.Holds server key []) (hkept : redis.Kept calls)
    (hexact : forall call, call ∈ calls -> Exact (redis.cutoff call.ts))
    (hfree : CollisionFree memory.hashUa calls) (hfree' : CollisionFree redis.hasher calls)
    (horder : Orderly Call.ts redis.cutoff calls.reverse) :
    redisAnswers redis key server calls = (memoryAnswers key memory calls).map some := by
  refine (answers_eq_iff httl hmemory hredis hkept hexact).mpr ?_
  intro front call back hsplit
  have hreverse : calls.reverse = back.reverse ++ call :: front.reverse := by
    rw [hsplit, List.reverse_append, List.reverse_cons, List.append_assoc]
    rfl
  have hsub : call :: front.reverse ⊆ calls := by
    intro x hx
    rw [← List.mem_reverse, hreverse]
    exact List.mem_append_right _ hx
  rw [hreverse] at horder
  exact answerOf_eq hwindow (orderly_of_append horder) (hfree.mono hsub) (hfree'.mono hsub)

end Calls

/-- Both stores give the same answers to calls at the given times, from whatever
addresses and user agents, just if each cutoff passes the times in order. -/
theorem answers_agree_iff {server : Server} {key : FpKey} {times : List Int}
    (hwindow : memory.cfg.windowSecs = redis.cfg.windowSecs)
    (httl : 0 < redis.cfg.ttlSecs) (hmemory : memory.Holds key [])
    (hredis : redis.Holds server key []) (hexact : forall t, t ∈ times -> Exact (redis.cutoff t)) :
    (forall calls : List Call, calls.map Call.ts = times ->
        redis.Kept calls -> CollisionFree memory.hashUa calls ->
        CollisionFree redis.hasher calls -> redisAnswers redis key server calls =
          (memoryAnswers key memory calls).map some) <-> Orderly id redis.cutoff times.reverse := by
  have hexactCalls : forall calls : List Call, calls.map Call.ts = times ->
      forall call, call ∈ calls -> Exact (redis.cutoff call.ts) := by
    intro calls htimes call hcall
    exact hexact _ (htimes ▸ List.mem_map_of_mem hcall)
  constructor
  · intro hagree
    refine orderly_of_answers hwindow hexact ?_
    intro who front t back hsplit
    have hkept : redis.Kept (times.map (callAt who)) := by
      refine List.Pairwise.isChain (List.pairwise_map.mpr ?_)
      refine List.pairwise_of_forall ?_
      intro s t
      unfold callAt
      lia
    have hfree : forall hash, CollisionFree hash (times.map (callAt who)) := by
      intro hash a ha b hb _
      obtain ⟨s, -, rfl⟩ := List.mem_map.mp ha
      obtain ⟨t, -, rfl⟩ := List.mem_map.mp hb
      rfl
    have htimes : (times.map (callAt who)).map Call.ts = times := by
      rw [List.map_map]
      exact List.map_id times
    have hall := (answers_eq_iff httl hmemory hredis hkept (hexactCalls _ htimes)).mp
        (hagree _ htimes hkept (hfree _) (hfree _))
    refine hall (front.map (callAt who)) (callAt who t) (back.map (callAt who)) ?_
    rw [hsplit, List.map_append, List.map_cons]
  · intro horder calls htimes hkept hfree hfree'
    refine answers_eq_of_orderly hwindow httl hmemory hredis hkept
      (hexactCalls calls htimes) hfree hfree' ?_
    rw [← htimes, ← List.map_reverse, orderly_map] at horder
    exact horder

end Agreement

def smallMemory : MemoryIdentityStore :=
  MemoryIdentityStore.withConfig
    { ttlSecs := 3600, windowSecs := 10, maxEntries := 100 }
    (RedisIdentityStore.seeded 3)

def smallRedis : RedisIdentityStore :=
  { cfg := { keyPrefix := "wafp:".toList, ttlSecs := 3600, windowSecs := 10 }
    hasher := RedisIdentityStore.seeded 7 }

theorem smallMemory_holds (key : FpKey) : smallMemory.Holds key [] :=
  ⟨Table.lookup_empty key, by decide, fun _ => by decide⟩

theorem late_call_agrees :
    smallMemory.cfg.windowSecs = smallRedis.cfg.windowSecs ∧
      forall calls : List Call, calls.map Call.ts = [100, 95, 104, 200] ->
        smallRedis.Kept calls -> CollisionFree smallMemory.hashUa calls ->
        CollisionFree smallRedis.hasher calls ->
        redisAnswers smallRedis RedisIdentityStore.someDevice Keyspace.empty calls =
          (memoryAnswers RedisIdentityStore.someDevice smallMemory calls).map
            some :=
  ⟨rfl, (answers_agree_iff rfl (by decide) (smallMemory_holds _)
    ⟨rfl, rfl, rfl⟩ (by decide)).mpr (by decide)⟩

def skewedCalls : List Call :=
  [{ nowMs := 0, ip := .v4 (Ipv4Addr.new 10 0 0 1), ua := [], ts := 100 },
    { nowMs := 1, ip := .v4 (Ipv4Addr.new 10 0 0 2), ua := [], ts := 50 },
    { nowMs := 2, ip := .v4 (Ipv4Addr.new 10 0 0 3), ua := [], ts := 105 }]

/-- The observation at 50 stays in memory behind the one at 100. -/
theorem skewed_calls_disagree :
    (memoryAnswers RedisIdentityStore.someDevice smallMemory skewedCalls).map
        Observation.distinctIpsInWindow = [1, 2, 3] ∧
      (redisAnswers smallRedis RedisIdentityStore.someDevice Keyspace.empty
        skewedCalls).map (Option.map Observation.distinctIpsInWindow) =
          [some 1, some 2, some 2] := by
  decide +kernel

end DeviceFp
end PrxWaf
