import PrxWaf.Lib.Fading
import PrxWaf.Lib.Keyspace
import PrxWaf.Lib.Streak
import PrxWaf.Lib.Table
import PrxWaf.Lib.Text

/-!
# Counters of the burst detection

A counter store counts the calls for a key and forgets a key some time after.
The store in memory starts that time anew with every call, the store in Redis
only with the call that makes the key.
-/

namespace PrxWaf
namespace Ddos

open Lib

structure Entry where
  count : Nat
  expiresMs : Int
  deriving DecidableEq

structure MemoryCounterStore where
  map : Table Text Entry
  maxKeys : Nat

namespace MemoryCounterStore

def new (maxKeys : Nat) : MemoryCounterStore :=
  { map := Table.empty, maxKeys := maxKeys }

/-- Remove expired entries, then those that expire first above the maximum. -/
def gc (store : MemoryCounterStore) (nowMs : Int) : MemoryCounterStore :=
  { store with
    map := (store.map.retain (fun entry => nowMs < entry.expiresMs)).cutTo
      store.maxKeys Entry.expiresMs }

def incrGet (store : MemoryCounterStore) (key : Text) (ttlMs nowMs : Int) :
    MemoryCounterStore × Nat :=
  let expiresMs := saturatingAdd nowMs ttlMs
  let count :=
    match store.map.lookup key with
    | some entry => if nowMs < entry.expiresMs then entry.count + 1 else 1
    | none => 1
  ({ store with
      map := store.map.insert key { count := count, expiresMs := expiresMs } },
    count)

end MemoryCounterStore

structure RedisCounterStore where
  keyPrefix : Text

abbrev RedisServer := Keyspace Text Nat

namespace RedisCounterStore

/-- The script: the timeout is set when the key is made.  If that fails, so does
the script. -/
def incrWithExpire (server : RedisServer) (nowMs : Int) (key : Text)
    (ttlMs : Int) : RedisServer × Option Nat :=
  let v := (server.get nowMs key).getD 0 + 1
  let server := server.modify nowMs key (fun _ => v)
  if v = 1 then
    match server.pexpire nowMs key ttlMs with
    | some server => (server, some v)
    | none => (server, none)
  else (server, some v)

def incrGet (store : RedisCounterStore) (server : RedisServer) (key : Text)
    (ttlMs nowMs : Int) : RedisServer × Option Nat :=
  incrWithExpire server nowMs (store.keyPrefix ++ key) ttlMs

end RedisCounterStore

def memoryCounts (key : Text) (ttlMs : Int) : MemoryCounterStore -> List Int -> List Nat
  | _, [] => []
  | store, nowMs :: rest =>
    let result := store.incrGet key ttlMs nowMs
    result.2 :: memoryCounts key ttlMs result.1 rest

def redisCounts (store : RedisCounterStore) (key : Text) (ttlMs : Int) :
    RedisServer -> List Int -> List (Option Nat)
  | _, [] => []
  | server, nowMs :: rest =>
    let result := store.incrGet server key ttlMs nowMs
    result.2 :: redisCounts store key ttlMs result.1 rest

def arrival (ttlMs nowMs : Int) : Arrival :=
  { atMs := nowMs, untilMs := saturatingAdd nowMs ttlMs }

def entryOf : List Arrival -> Option Entry
  | [] => none
  | last :: older =>
    some {
      count := (streak last.atMs older).length + 1
      expiresMs := last.untilMs }

theorem incrGet_map (store : MemoryCounterStore) (key : Text) (ttlMs nowMs : Int) :
    (store.incrGet key ttlMs nowMs).1.map.lookup key = some {
        count := (store.incrGet key ttlMs nowMs).2
        expiresMs := saturatingAdd nowMs ttlMs } := Table.lookup_insert_self

variable {store : MemoryCounterStore} {key : Text} {history : List Arrival}

theorem incrGet_count (h : store.map.lookup key = entryOf history) (ttlMs nowMs : Int) :
    (store.incrGet key ttlMs nowMs).2 = (streak nowMs history).length + 1 := by
  unfold MemoryCounterStore.incrGet
  dsimp only
  rw [h]
  cases history with
  | nil => rfl
  | cons last older =>
    unfold entryOf
    dsimp only
    split
    · rename_i hlive
      rw [streak_cons_of_lt hlive]
      rfl
    · rename_i hdead
      rw [streak_cons_of_le (Int.not_lt.mp hdead)]
      rfl

theorem incrGet_map_of_ne (store : MemoryCounterStore) {key other : Text}
    (h : other ≠ key) (ttlMs nowMs : Int) :
    (store.incrGet key ttlMs nowMs).1.map.lookup other = store.map.lookup other :=
  Table.lookup_insert_of_ne h

theorem incrGet_count_of_fades {clockMs nowMs : Int}
    (h : Fades (fun entry => entry.expiresMs ≤ clockMs) (entryOf history)
      (store.map.lookup key)) (hclock : clockMs ≤ nowMs) (ttlMs : Int) :
    (store.incrGet key ttlMs nowMs).2 = (streak nowMs history).length + 1 := by
  rcases h with hsame | ⟨hnone, entry, hentry, hstale⟩
  · exact incrGet_count hsame ttlMs nowMs
  · have hstreak : streak nowMs history = [] := by
      cases history with
      | nil => rfl
      | cons last older =>
        cases hentry
        exact streak_cons_of_le (hstale.trans hclock)
    unfold MemoryCounterStore.incrGet
    dsimp only
    rw [hnone, hstreak]
    rfl

theorem incrGet_entryOf (h : store.map.lookup key = entryOf history) (ttlMs nowMs : Int) :
    (store.incrGet key ttlMs nowMs).1.map.lookup key =
      entryOf (arrival ttlMs nowMs :: history) := by
  rw [incrGet_map, incrGet_count h]
  rfl

section Script

variable {server : RedisServer} {nowMs : Int}

theorem incrWithExpire_of_live {cell : Cell Nat}
    (h : server.live nowMs key = some cell) (hpos : 0 < cell.value) (ttlMs : Int) :
    RedisCounterStore.incrWithExpire server nowMs key ttlMs =
      (server.modify nowMs key (fun _ => cell.value + 1), some (cell.value + 1)) := by
  have hget : server.get nowMs key = some cell.value := by
    unfold Keyspace.get
    rw [h]
    rfl
  unfold RedisCounterStore.incrWithExpire
  dsimp only
  rw [hget, Option.getD_some, if_neg (by lia)]

theorem incrWithExpire_of_dead (h : server.live nowMs key = none) (ttlMs : Int) :
    (RedisCounterStore.incrWithExpire server nowMs key ttlMs).2 =
        (if i64Max - nowMs < ttlMs then none else some 1) ∧ (ttlMs ≤ i64Max - nowMs ->
        (RedisCounterStore.incrWithExpire server nowMs key ttlMs).1 key =
          if ttlMs ≤ 0 then none
          else some { value := 1, deadline := some (nowMs + ttlMs) }) := by
  have hget : server.get nowMs key = none := by
    unfold Keyspace.get
    rw [h]
    rfl
  have hmade := Keyspace.live_modify_self server nowMs key (fun _ => 1)
  rw [h] at hmade
  unfold RedisCounterStore.incrWithExpire
  dsimp only
  rw [hget, Option.getD_none, if_pos rfl]
  unfold Keyspace.pexpire
  rcases Decidable.em (i64Max - nowMs < ttlMs) with hover | hover
  · rw [if_pos hover, if_pos hover]
    exact ⟨rfl, fun hle => absurd hover (Int.not_lt.mpr hle)⟩
  · rw [if_neg hover, if_neg hover]
    exact ⟨rfl, fun _ => Keyspace.expire_self hmade ttlMs⟩

end Script

/-!
## Agreement

Memory renews the timeout with each call, the script sets it with the first one. They agree
exactly when each streak of calls ends before the first timeout.
-/

/-- The streak that a call continues fits into one timeout, and the call that
starts a streak has its deadline in range. -/
def FitsWindow (ttlMs nowMs : Int) (history : List Arrival) : Prop :=
  (streak nowMs history = [] -> ttlMs ≤ i64Max - nowMs) ∧
    forall a, a ∈ streak nowMs history -> nowMs < a.atMs + ttlMs

def Confined (ttlMs : Int) : List Arrival -> List Int -> Prop
  | _, [] => True
  | history, nowMs :: rest =>
    FitsWindow ttlMs nowMs history ∧ Confined ttlMs (arrival ttlMs nowMs :: history) rest

instance (ttlMs nowMs : Int) (history : List Arrival) :
    Decidable (FitsWindow ttlMs nowMs history) :=
  inferInstanceAs (Decidable (_ ∧ _))

instance Confined.decidable (ttlMs : Int) : forall history times,
    Decidable (Confined ttlMs history times)
  | _, [] => isTrue trivial
  | history, nowMs :: rest =>
    have := Confined.decidable ttlMs (arrival ttlMs nowMs :: history) rest
    inferInstanceAs (Decidable (_ ∧ _))

/-- The value that a history of calls whose streaks fit leaves in Redis. -/
def CellOf (ttlMs : Int) (history : List Arrival) (cell : Option (Cell Nat)) : Prop :=
  match history with
  | [] => cell = none
  | last :: older =>
    if ttlMs ≤ 0 then cell = none
    else
      exists first, first ∈ last :: streak last.atMs older ∧
        (forall a, a ∈ last :: streak last.atMs older -> first.atMs ≤ a.atMs) ∧
        first.atMs + ttlMs ≤ i64Max ∧
        cell = some {
          value := (streak last.atMs older).length + 1
          deadline := some (first.atMs + ttlMs) }

def Ordered (ttlMs : Int) (nowMs : Int) (history : List Arrival) : Prop :=
  forall a, a ∈ history -> i64Min ≤ a.atMs ∧ a.atMs ≤ nowMs ∧ a = arrival ttlMs a.atMs

theorem ordered_cons {ttlMs nowMs nextMs : Int}
    (h : Ordered ttlMs nowMs history) (hmin : i64Min ≤ nowMs) (hnext : nowMs ≤ nextMs) :
    Ordered ttlMs nextMs (arrival ttlMs nowMs :: history) := by
  intro a ha
  rcases List.mem_cons.mp ha with ha | ha
  · rw [ha]
    exact ⟨hmin, hnext, rfl⟩
  · rcases h a ha with ⟨hlow, hle, heq⟩
    exact ⟨hlow, le_trans hle hnext, heq⟩

section Step

variable {ttlMs nowMs : Int} {server : RedisServer}

theorem streak_of_ttl_nonpos (hordered : Ordered ttlMs nowMs history)
    (httl : ttlMs ≤ 0) : streak nowMs history = [] := by
  cases history with
  | nil => rfl
  | cons last older =>
    rcases hordered last List.mem_cons_self with ⟨hmin, hle, heq⟩
    refine streak_cons_of_le ?_
    rw [heq]
    have hclamp := clampI64_cases (last.atMs + ttlMs)
    change clampI64 (last.atMs + ttlMs) ≤ nowMs
    lia

theorem live_eq_none (hordered : Ordered ttlMs nowMs history)
    (hmax : nowMs ≤ i64Max) (hcell : CellOf ttlMs history (server key))
    (hnil : streak nowMs history = []) : server.live nowMs key = none := by
  cases history with
  | nil => exact Keyspace.live_of_none nowMs hcell
  | cons last older =>
    unfold CellOf at hcell
    dsimp only at hcell
    split at hcell
    · exact Keyspace.live_of_none nowMs hcell
    · rename_i httl
      rcases hcell with ⟨first, _, hleast, hrange, hcell⟩
      rcases hordered last List.mem_cons_self with ⟨hmin, _, heq⟩
      have hdead : last.untilMs ≤ nowMs := by
        refine Int.not_lt.mp (fun hlive => ?_)
        rw [streak_cons_of_lt hlive] at hnil
        cases hnil
      have huntil : last.untilMs = clampI64 (last.atMs + ttlMs) := congrArg Arrival.untilMs heq
      have hclamp := clampI64_cases (last.atMs + ttlMs)
      have hfirst := hleast last List.mem_cons_self
      rw [Keyspace.live_of_some nowMs hcell, if_neg]
      unfold Cell.isLive
      simp only [decide_eq_true_eq]
      lia

theorem cell_of_streak_ne_nil (hordered : Ordered ttlMs nowMs history)
    (hcell : CellOf ttlMs history (server key)) (hne : streak nowMs history ≠ []) :
    0 < ttlMs ∧
      exists first, first ∈ streak nowMs history ∧
        (forall a, a ∈ streak nowMs history -> first.atMs ≤ a.atMs) ∧
        first.atMs + ttlMs ≤ i64Max ∧ server key = some {
          value := (streak nowMs history).length
          deadline := some (first.atMs + ttlMs) } := by
  have httl : ¬ ttlMs ≤ 0 := fun h => hne (streak_of_ttl_nonpos hordered h)
  cases history with
  | nil => exact absurd rfl hne
  | cons last older =>
    have hlive : nowMs < last.untilMs := Int.not_le.mp (fun hdead => hne (streak_cons_of_le hdead))
    unfold CellOf at hcell
    dsimp only at hcell
    rw [if_neg httl] at hcell
    rw [streak_cons_of_lt hlive]
    exact ⟨Int.not_le.mp httl, hcell⟩

/-- A call of the script gives the count of the memory store exactly when the
streak fits, and then keeps in step with it. -/
def StaysInStep (ttlMs nowMs : Int) (history : List Arrival)
    (server : RedisServer) (key : Text) : Prop :=
  ((RedisCounterStore.incrWithExpire server nowMs key ttlMs).2 =
      some ((streak nowMs history).length + 1) <->
    FitsWindow ttlMs nowMs history) ∧
  (FitsWindow ttlMs nowMs history ->
    CellOf ttlMs (arrival ttlMs nowMs :: history)
      ((RedisCounterStore.incrWithExpire server nowMs key ttlMs).1 key))

theorem staysInStep_of_new (hordered : Ordered ttlMs nowMs history)
    (hmax : nowMs ≤ i64Max) (hcell : CellOf ttlMs history (server key))
    (hnil : streak nowMs history = []) :
    StaysInStep ttlMs nowMs history server key := by
  rcases incrWithExpire_of_dead (live_eq_none hordered hmax hcell hnil) ttlMs with ⟨hcount, hmade⟩
  have hfits : FitsWindow ttlMs nowMs history <-> ttlMs ≤ i64Max - nowMs := by
    unfold FitsWindow
    rw [hnil]
    simp
  unfold StaysInStep
  rw [hfits, hcount, hnil]
  constructor
  · split
    · rename_i hover
      simpa using hover
    · rename_i hover
      simpa using hover
  · intro hle
    rw [hmade hle]
    unfold CellOf arrival
    dsimp only
    rw [hnil]
    split
    · rfl
    · exact ⟨_, List.mem_cons_self, by simp, by lia, rfl⟩

section Streak

variable {first : Arrival} (hfirst : first ∈ streak nowMs history)
  (hserver : server key = some {
    value := (streak nowMs history).length
    deadline := some (first.atMs + ttlMs) })

include hfirst hserver

theorem staysInStep_of_live (hordered : Ordered ttlMs nowMs history) (httl : 0 < ttlMs)
    (hleast : forall a, a ∈ streak nowMs history -> first.atMs ≤ a.atMs)
    (hrange : first.atMs + ttlMs ≤ i64Max) (hin : nowMs < first.atMs + ttlMs) :
    StaysInStep ttlMs nowMs history server key := by
  have hne := List.ne_nil_of_mem hfirst
  have hfits : FitsWindow ttlMs nowMs history := by
    refine ⟨fun h => absurd h hne, ?_⟩
    intro a ha
    have := hleast a ha
    lia
  have hlive := Keyspace.live_of_some nowMs hserver
  rw [if_pos (by unfold Cell.isLive; simpa using hin)] at hlive
  unfold StaysInStep
  rw [incrWithExpire_of_live hlive (List.length_pos_iff.mpr hne)]
  refine ⟨⟨fun _ => hfits, fun _ => rfl⟩, ?_⟩
  intro _
  have hself := Keyspace.modify_self server nowMs key (fun _ => (streak nowMs history).length + 1)
  rw [hlive] at hself
  unfold CellOf
  dsimp only
  rw [if_neg (Int.not_le.mpr httl)]
  refine ⟨first, List.mem_cons_of_mem _ hfirst, ?_, hrange, hself⟩
  intro a ha
  rcases List.mem_cons.mp ha with ha | ha
  · rw [ha]
    exact (hordered first (mem_of_mem_streak hfirst)).2.1
  · exact hleast a ha

theorem staysInStep_of_late (hout : ¬ nowMs < first.atMs + ttlMs) :
    StaysInStep ttlMs nowMs history server key := by
  have hnot : ¬ FitsWindow ttlMs nowMs history := fun h => hout (h.2 first hfirst)
  have hpos := List.length_pos_of_mem hfirst
  have hlive := Keyspace.live_of_some nowMs hserver
  rw [if_neg (by unfold Cell.isLive; simpa using hout)] at hlive
  refine ⟨⟨?_, fun h => absurd h hnot⟩, fun h => absurd h hnot⟩
  intro hcount
  rw [(incrWithExpire_of_dead hlive ttlMs).1] at hcount
  split at hcount
  · cases hcount
  · injection hcount with hcount
    lia

end Streak

theorem staysInStep (hordered : Ordered ttlMs nowMs history)
    (hmax : nowMs ≤ i64Max) (hcell : CellOf ttlMs history (server key)) :
    StaysInStep ttlMs nowMs history server key := by
  rcases Decidable.em (streak nowMs history = []) with hnil | hne
  · exact staysInStep_of_new hordered hmax hcell hnil
  · rcases cell_of_streak_ne_nil hordered hcell hne with
      ⟨httl, first, hfirst, hleast, hrange, hserver⟩
    rcases Decidable.em (nowMs < first.atMs + ttlMs) with hin | hout
    · exact staysInStep_of_live hfirst hserver hordered httl hleast hrange hin
    · exact staysInStep_of_late hfirst hserver hout

end Step

theorem redisCounts_eq_iff_confined (store : RedisCounterStore) (key : Text)
    {ttlMs : Int} {mem : MemoryCounterStore} {server : RedisServer}
    {history : List Arrival} {times : List Int} (hsorted : times.Pairwise (· ≤ ·))
    (hrange : forall nowMs, nowMs ∈ times -> InI64 nowMs)
    (hordered : forall nowMs, nowMs ∈ times -> Ordered ttlMs nowMs history)
    (hentry : mem.map.lookup key = entryOf history)
    (hcell : CellOf ttlMs history (server (store.keyPrefix ++ key))) :
    (memoryCounts key ttlMs mem times).map some = redisCounts store key ttlMs server times <->
      Confined ttlMs history times := by
  induction times generalizing mem server history with
  | nil => exact ⟨fun _ => trivial, fun _ => rfl⟩
  | cons nowMs rest ih =>
    have hnow := hrange nowMs List.mem_cons_self
    rcases staysInStep (hordered nowMs List.mem_cons_self) hnow.2 hcell with ⟨hcount, hkeep⟩
    have hrest : forall nextMs, nextMs ∈ rest ->
        Ordered ttlMs nextMs (arrival ttlMs nowMs :: history) :=
      fun nextMs hmem => ordered_cons (hordered nowMs List.mem_cons_self)
        hnow.1 (List.rel_of_pairwise_cons hsorted hmem)
    unfold memoryCounts redisCounts Confined
    dsimp only
    rw [List.map_cons, List.cons.injEq, incrGet_count hentry, ← hcount]
    unfold RedisCounterStore.incrGet
    constructor
    · rintro ⟨heq, htail⟩
      refine ⟨heq.symm, ?_⟩
      exact (ih hsorted.of_cons (fun t ht => hrange t
        (List.mem_cons_of_mem nowMs ht)) hrest (incrGet_entryOf hentry _ _)
        (hkeep (hcount.mp heq.symm))).mp htail
    · rintro ⟨heq, htail⟩
      refine ⟨heq.symm, ?_⟩
      exact (ih hsorted.of_cons (fun t ht => hrange t
        (List.mem_cons_of_mem nowMs ht)) hrest (incrGet_entryOf hentry _ _)
        (hkeep (hcount.mp heq))).mpr htail

/-- On fresh stores the two give the same counts exactly when calls that follow
each other within a timeout stay within a timeout of the first of them. -/
theorem memoryCounts_eq_redisCounts_iff (store : RedisCounterStore)
    (maxKeys : Nat) (key : Text) (ttlMs : Int) {times : List Int}
    (hsorted : times.Pairwise (· ≤ ·)) (hrange : forall nowMs, nowMs ∈ times -> InI64 nowMs) :
    (memoryCounts key ttlMs (MemoryCounterStore.new maxKeys) times).map some =
        redisCounts store key ttlMs Keyspace.empty times <-> Confined ttlMs [] times :=
  redisCounts_eq_iff_confined store key hsorted hrange
    (fun _ _ _ ha => nomatch ha) (Table.lookup_empty key) rfl

def wafddos : RedisCounterStore :=
  { keyPrefix := "wafddos:".toList }

theorem counts_agree_with_pause :
    (memoryCounts "k".toList 100 (MemoryCounterStore.new 10) [0, 30, 60, 200]).map some =
      redisCounts wafddos "k".toList 100 Keyspace.empty [0, 30, 60, 200] :=
  (memoryCounts_eq_redisCounts_iff wafddos 10 "k".toList 100 (by decide)
    (by decide)).mpr (by decide)

/-- Three calls, each within the timeout of the one before. -/
theorem counts_differ_without_pause :
    [0, 60, 120].Pairwise (· ≤ ·) ∧ (forall nowMs, nowMs ∈ [0, 60, 120] -> InI64 nowMs) ∧
      memoryCounts "k".toList 100 (MemoryCounterStore.new 10) [0, 60, 120] = [1, 2, 3] ∧
      redisCounts wafddos "k".toList 100 Keyspace.empty [0, 60, 120] =
        [some 1, some 2, some 1] := by
  decide

end Ddos
end PrxWaf
