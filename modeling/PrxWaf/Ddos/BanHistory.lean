import PrxWaf.Ddos.Ban

/-!
# What the history says about bans

The calls so far decide which of them are offenses, which step of the schedule an
offense is answered with, and until when an address is banned.  Each of the three
tables holds what follows from the calls, or nothing where that is out of date.
Histories are listed from the newest call.
-/

namespace PrxWaf
namespace Ddos

open Lib Net

/-!
## Offenses and chains of them

Offenses are the calls that are not debounced. A pause of an hour ends a chain of them, and
the length of the chain decides on the next ban.
-/

structure BanCall where
  ip : IpAddr
  atMs : Int
  result : ActionResult

/-- The call follows the last offense within 100 milliseconds. -/
def Debounced (nowMs : Int) : List Int -> Prop
  | [] => False
  | last :: _ => nowMs - last < 100

instance Debounced.decidable (nowMs : Int) : forall offs, Decidable (Debounced nowMs offs)
  | [] => isFalse id
  | last :: _ => inferInstanceAs (Decidable (nowMs - last < 100))

def offenses (ip : IpAddr) : List BanCall -> List Int
  | [] => []
  | call :: older =>
    if call.ip = ip ∧ ¬ Debounced call.atMs (offenses ip older) then
      call.atMs :: offenses ip older
    else offenses ip older

/-- The offenses before a time with less than an hour from each to the next. -/
def chain (nowMs : Int) : List Int -> List Int
  | [] => []
  | last :: older =>
    if nowMs - last < 3600 * 1000 then last :: chain last older else []

def rank (nowMs : Int) (offs : List Int) : Nat :=
  (chain nowMs offs).length + 1

def bansOf (ip : IpAddr) (log : List BanCall) : List Int :=
  (log.filter (fun call => call.ip = ip)).filterMap (fun call =>
    call.result.banTtlS.map (fun ttlS => call.atMs + ttlS.toNat * 1000))

section History

variable {ip other : IpAddr} {call : BanCall} {older : List BanCall}

theorem offenses_cons_of_ne (h : call.ip ≠ ip) (older : List BanCall) :
    offenses ip (call :: older) = offenses ip older :=
  if_neg (fun hboth => h hboth.1)

theorem offenses_cons_of_debounced (h : Debounced call.atMs (offenses ip older)) :
    offenses ip (call :: older) = offenses ip older :=
  if_neg (fun hboth => hboth.2 h)

theorem offenses_cons_self {atMs : Int}
    (h : ¬ Debounced atMs (offenses ip older)) (result : ActionResult) :
    offenses ip ({ ip := ip, atMs := atMs, result := result } :: older) =
      atMs :: offenses ip older :=
  if_pos ⟨rfl, h⟩

theorem mem_of_mem_offenses {atMs : Int} {log : List BanCall}
    (h : atMs ∈ offenses ip log) : exists call, call ∈ log ∧ call.atMs = atMs := by
  induction log with
  | nil => cases h
  | cons call older ih =>
    unfold offenses at h
    split at h
    · rcases List.mem_cons.mp h with heq | hmem
      · exact ⟨call, List.mem_cons_self, heq.symm⟩
      · obtain ⟨found, hfound, hat⟩ := ih hmem
        exact ⟨found, List.mem_cons_of_mem call hfound, hat⟩
    · obtain ⟨found, hfound, hat⟩ := ih h
      exact ⟨found, List.mem_cons_of_mem call hfound, hat⟩

theorem bansOf_cons_of_ne (h : call.ip ≠ ip) (older : List BanCall) :
    bansOf ip (call :: older) = bansOf ip older := by
  unfold bansOf
  rw [List.filter_cons_of_neg (by simpa using h)]

theorem bansOf_cons_of_none (h : call.result.banTtlS = none) (older : List BanCall) :
    bansOf ip (call :: older) = bansOf ip older := by
  rcases Decidable.em (call.ip = ip) with hip | hip
  · unfold bansOf
    rw [List.filter_cons_of_pos (by simpa using hip), List.filterMap_cons, h]
    rfl
  · exact bansOf_cons_of_ne hip older

theorem bansOf_cons_self {ttlS : UInt32} {result : ActionResult}
    (h : result.banTtlS = some ttlS) (atMs : Int) (older : List BanCall) :
    bansOf ip ({ ip := ip, atMs := atMs, result := result } :: older) =
      (atMs + ttlS.toNat * 1000) :: bansOf ip older := by
  unfold bansOf
  rw [List.filter_cons_of_pos (by simp), List.filterMap_cons, h]
  rfl

end History

structure BanRun where
  action : BanAction
  clockMs : Int
  log : List BanCall

inductive BanEvent where
  | execute (ip : IpAddr) (reason detector : Text) (nowMs : Int)
  | contains (ip : IpAddr) (nowMs : Int)
  | purgeDebounceLocks (nowMs : Int)
  | purgeBans (nowMs : Int)
  | purgeCounters (nowMs : Int)

def BanEvent.nowMs : BanEvent -> Int
  | execute _ _ _ nowMs => nowMs
  | contains _ nowMs => nowMs
  | purgeDebounceLocks nowMs => nowMs
  | purgeBans nowMs => nowMs
  | purgeCounters nowMs => nowMs

namespace BanRun

def start (schedule : BanSchedule) (maxKeys : Nat) : BanRun :=
  { action := .new .new (.new maxKeys) schedule
    clockMs := i64Min
    log := [] }

def outcome (s : BanRun) (ip : IpAddr) (reason detector : Text) (nowMs : Int) :
    BanAction × ActionResult :=
  s.action.execute ip (.hardBurst reason detector) nowMs

def perform (s : BanRun) : BanEvent -> BanRun
  | .execute ip reason detector nowMs =>
    let result := s.outcome ip reason detector nowMs
    { action := result.1
      clockMs := nowMs
      log := { ip := ip, atMs := nowMs, result := result.2 } :: s.log }
  | .contains _ nowMs => { s with clockMs := nowMs }
  | .purgeDebounceLocks nowMs =>
    { s with
      action := s.action.purgeDebounceLocks nowMs
      clockMs := nowMs }
  | .purgeBans nowMs =>
    { s with
      action := { s.action with
        banTable := (s.action.banTable.purgeExpired nowMs).1 }
      clockMs := nowMs }
  | .purgeCounters nowMs =>
    { s with
      action := { s.action with
        offenseStore := s.action.offenseStore.gc nowMs }
      clockMs := nowMs }

/-- The purge of the counters would have to remove some that are not expired. -/
def Evicts (s : BanRun) : BanEvent -> Prop
  | .purgeCounters nowMs =>
    s.action.offenseStore.maxKeys <
      (s.action.offenseStore.map.retain
        (fun entry => nowMs < entry.expiresMs)).size
  | _ => False

instance (s : BanRun) : forall event, Decidable (s.Evicts event)
  | .execute _ _ _ _ => isFalse id
  | .contains _ _ => isFalse id
  | .purgeDebounceLocks _ => isFalse id
  | .purgeBans _ => isFalse id
  | .purgeCounters _ => inferInstanceAs (Decidable (_ < _))

/-- Events come in the order of their times, and no counter is evicted. -/
def step (s : BanRun) (event : BanEvent) : Option BanRun :=
  if s.clockMs ≤ event.nowMs ∧ InI64 event.nowMs ∧ ¬ s.Evicts event then
    some (s.perform event)
  else none

/-- An offense is answered with the step of its number in the chain or the last one, a
debounced call does nothing, and an address is banned exactly until the last of its
bans ends. -/
def Answers (s : BanRun) : BanEvent -> Prop
  | .execute ip reason detector nowMs =>
    let outcome := s.outcome ip reason detector nowMs
    let steps := s.action.schedule.steps
    if Debounced nowMs (offenses ip s.log) then
      outcome = (s.action, .noop)
    else
      exists answer,
        steps[min (rank nowMs (offenses ip s.log)) steps.length - 1]? =
            some answer ∧
          outcome.2 =
            { banned := true
              banTtlS := some answer.ttlS
              riskDelta := answer.riskDelta }
  | .contains ip nowMs =>
    s.action.banTable.contains ip nowMs = true <->
      exists expiresMs, expiresMs ∈ bansOf ip s.log ∧ nowMs < expiresMs
  | _ => True

/-- Every event that takes place is answered as the history says. -/
def Right (s : BanRun) (event : BanEvent) : Prop :=
  (s.step event).isSome = true -> s.Answers event

/-- What the counter of an address would be if it were never purged. -/
def counterOf (offs : List Int) : Option Entry :=
  entryOf (offs.map (arrival (3600 * 1000)))

def banEnd (ip : IpAddr) (log : List BanCall) : Option Int :=
  ((bansOf ip log).max?).map clampI64

/-- The tables hold what follows from the calls, or nothing where it is out of date. -/
structure Tracks (schedule : BanSchedule) (s : BanRun) : Prop where
  schedule : s.action.schedule = schedule
  windowMs : s.action.offenseWindowMs = 3600 * 1000
  debounceMs : s.action.debounceMs = 100
  past : forall call, call ∈ s.log ->
    i64Min < call.atMs ∧ call.atMs ≤ s.clockMs ∧ call.atMs < i64Max
  locks : forall ip, Fades (fun last => last + 1000 ≤ s.clockMs)
    (offenses ip s.log).head? (s.action.debounceLocks.lookup ip)
  counters : forall ip, Fades (fun entry => entry.expiresMs ≤ s.clockMs)
    (counterOf (offenses ip s.log))
    (s.action.offenseStore.map.lookup (BanAction.offenseKey ip))
  bans : forall ip, Fades (fun exp => exp ≤ s.clockMs)
    (banEnd ip s.log) (s.action.banTable.entries.lookup ip)

theorem tracks_start (schedule : BanSchedule) (maxKeys : Nat) :
    Tracks schedule (start schedule maxKeys) where
  schedule := rfl
  windowMs := rfl
  debounceMs := rfl
  past := fun _ hcall => nomatch hcall
  locks := fun ip => Or.inl (Table.lookup_empty ip)
  counters := fun ip => Or.inl (Table.lookup_empty (BanAction.offenseKey ip))
  bans := fun ip => Or.inl (Table.lookup_empty ip)

/-! ## One call -/

theorem streak_arrivals {nowMs : Int} (hmin : i64Min ≤ nowMs)
    (hmax : nowMs < i64Max) {offs : List Int}
    (hpast : forall t, t ∈ offs -> i64Min < t ∧ t < i64Max) :
    streak nowMs (offs.map (arrival (3600 * 1000))) =
      (chain nowMs offs).map (arrival (3600 * 1000)) := by
  induction offs generalizing nowMs with
  | nil => rfl
  | cons last older ih =>
    have hlast := hpast last List.mem_cons_self
    have huntil : nowMs < (arrival (3600 * 1000) last).untilMs <-> nowMs - last < 3600 * 1000 := by
      change nowMs < clampI64 (last + 3600 * 1000) <-> _
      rw [lt_clampI64_iff hmin hmax]
      lia
    unfold chain
    rw [List.map_cons]
    split
    · rename_i hnear
      rw [streak_cons_of_lt (huntil.mpr hnear), List.map_cons]
      exact congrArg _ (ih hlast.1.le hlast.2 (fun t ht => hpast t (List.mem_cons_of_mem last ht)))
    · rename_i hfar
      exact streak_cons_of_le (Int.not_lt.mp (fun h => hfar (huntil.mp h)))

section Call

variable {schedule : BanSchedule} {s : BanRun} {nowMs : Int}

theorem Tracks.mem_offenses (h : Tracks schedule s) {ip : IpAddr} {t : Int}
    (ht : t ∈ offenses ip s.log) :
    i64Min < t ∧ t ≤ s.clockMs ∧ t < i64Max := by
  obtain ⟨call, hcall, rfl⟩ := mem_of_mem_offenses ht
  exact h.past call hcall

theorem debounce_gap_iff (nowMs last : Int) :
    99 < saturatingSub nowMs last <-> 99 < nowMs - last :=
  lt_clampI64_iff (by decide) (by decide)

theorem Tracks.acquire_of_debounced (h : Tracks schedule s)
    (hclock : s.clockMs ≤ nowMs) {ip : IpAddr} (hsoon : Debounced nowMs (offenses ip s.log)) :
    s.action.acquireDebounce ip nowMs = (s.action, false) := by
  have hlock := h.locks ip
  have hpast := @Tracks.mem_offenses _ _ h ip
  cases hoffs : offenses ip s.log with
  | nil =>
    rw [hoffs] at hsoon
    exact absurd hsoon id
  | cons last older =>
    rw [hoffs] at hsoon hlock hpast
    have hsoon : nowMs - last < 100 := hsoon
    have hlast := hpast List.mem_cons_self
    rcases hlock with hsame | ⟨-, v, hv, hstale⟩
    · have hgap := debounce_gap_iff nowMs last
      unfold BanAction.acquireDebounce
      rw [hsame]
      dsimp only [List.head?_cons]
      rw [h.debounceMs, if_neg]
      lia
    · cases hv
      lia

theorem Tracks.acquire_of_offense (h : Tracks schedule s) {ip : IpAddr}
    (hlate : ¬ Debounced nowMs (offenses ip s.log)) :
    s.action.acquireDebounce ip nowMs = ({ s.action with
          debounceLocks := s.action.debounceLocks.insert ip nowMs }, true) := by
  unfold BanAction.acquireDebounce
  rcases h.locks ip with hsame | ⟨hnone, -⟩
  · cases hoffs : offenses ip s.log with
    | nil =>
      rw [hsame, hoffs]
      rfl
    | cons last older =>
      rw [hoffs] at hlate
      have hlate : ¬ nowMs - last < 100 := hlate
      have hgap := debounce_gap_iff nowMs last
      rw [hsame, hoffs]
      dsimp only [List.head?_cons]
      rw [h.debounceMs, if_pos]
      lia
  · rw [hnone]

theorem Tracks.count_eq_rank (h : Tracks schedule s)
    (hclock : s.clockMs ≤ nowMs) (hmin : i64Min < nowMs) (hmax : nowMs < i64Max) (ip : IpAddr) :
    (s.action.offenseStore.incrGet (BanAction.offenseKey ip) (3600 * 1000)
      nowMs).2 = rank nowMs (offenses ip s.log) := by
  have hpast : forall t, t ∈ offenses ip s.log -> i64Min < t ∧ t < i64Max :=
    fun t ht => ⟨(h.mem_offenses ht).1, (h.mem_offenses ht).2.2⟩
  rw [incrGet_count_of_fades (h.counters ip) hclock,
    streak_arrivals hmin.le hmax hpast, List.length_map]
  rfl

theorem Tracks.outcome_of_debounced (h : Tracks schedule s)
    (hclock : s.clockMs ≤ nowMs) {ip : IpAddr}
    (hsoon : Debounced nowMs (offenses ip s.log)) (reason detector : Text) :
    s.outcome ip reason detector nowMs = (s.action, .noop) := by
  unfold outcome BanAction.execute
  dsimp only
  rw [h.acquire_of_debounced hclock hsoon]
  rfl

theorem Tracks.outcome_of_offense (h : Tracks schedule s)
    (hclock : s.clockMs ≤ nowMs) (hmin : i64Min < nowMs)
    (hmax : nowMs < i64Max) {ip : IpAddr}
    (hlate : ¬ Debounced nowMs (offenses ip s.log)) (reason detector : Text) :
    let answer := schedule.stepFor (rank nowMs (offenses ip s.log))
    s.outcome ip reason detector nowMs =
      ({ s.action with
          debounceLocks := s.action.debounceLocks.insert ip nowMs
          offenseStore := (s.action.offenseStore.incrGet
            (BanAction.offenseKey ip) (3600 * 1000) nowMs).1
          banTable := s.action.banTable.insert ip
            (saturatingAdd nowMs (answer.ttlS.toNat * 1000)) },
        { banned := true
          banTtlS := some answer.ttlS
          riskDelta := answer.riskDelta }) := by
  intro answer
  have hcount := h.count_eq_rank hclock hmin hmax ip
  unfold outcome BanAction.execute
  dsimp only
  rw [h.acquire_of_offense hlate, if_pos rfl]
  unfold BanAction.ban
  dsimp only
  rw [h.windowMs, h.schedule, hcount]

theorem any_banEnd {ip : IpAddr} {log : List BanCall} (hmin : i64Min < nowMs)
    (hmax : nowMs < i64Max) :
    (banEnd ip log).any (fun exp => nowMs < exp) = true <->
      exists expiresMs, expiresMs ∈ bansOf ip log ∧ nowMs < expiresMs := by
  unfold banEnd
  cases hlast : (bansOf ip log).max? with
  | none =>
    rw [List.max?_eq_none_iff.mp hlast]
    simp
  | some last =>
    obtain ⟨hmem, hle⟩ := List.max?_eq_some_iff.mp hlast
    rw [Option.map_some, Option.any_some, decide_eq_true_eq, lt_clampI64_iff hmin.le hmax]
    constructor
    · intro hlt
      exact ⟨last, hmem, hlt⟩
    · rintro ⟨expiresMs, hban, hlt⟩
      exact Int.lt_of_lt_of_le hlt (hle expiresMs hban)

theorem Tracks.contains_iff (h : Tracks schedule s)
    (hclock : s.clockMs ≤ nowMs) (hmin : i64Min < nowMs) (hmax : nowMs < i64Max) (ip : IpAddr) :
    s.action.banTable.contains ip nowMs = true <->
      exists expiresMs, expiresMs ∈ bansOf ip s.log ∧ nowMs < expiresMs := by
  rw [← any_banEnd hmin hmax]
  unfold DynamicBanTable.contains
  rcases h.bans ip with hsame | ⟨hnone, exp, hexp, hstale⟩
  · rw [hsame]
  · rw [hnone, hexp]
    simp only [Option.any_none, Option.any_some, decide_eq_true_eq, Bool.false_eq_true, false_iff]
    lia

theorem banEnd_cons_self {ip : IpAddr} {ttlS : UInt32} {result : ActionResult}
    (h : result.banTtlS = some ttlS) (atMs : Int) (older : List BanCall) :
    banEnd ip ({ ip := ip, atMs := atMs, result := result } :: older) =
      some ((banEnd ip older).elim (saturatingAdd atMs (ttlS.toNat * 1000))
        (fun exp => max exp (saturatingAdd atMs (ttlS.toNat * 1000)))) := by
  unfold banEnd saturatingAdd
  rw [bansOf_cons_self h, List.max?_cons]
  cases (bansOf ip older).max? with
  | none => rfl
  | some last =>
    rw [Option.map_some, Option.map_some]
    dsimp only [Option.elim_some]
    rw [max_comm, clampI64_max]

end Call

section Preserved

variable {schedule : BanSchedule} {s : BanRun} {nowMs : Int}

theorem Tracks.later (h : Tracks schedule s) (hclock : s.clockMs ≤ nowMs) :
    Tracks schedule { s with clockMs := nowMs } where
  schedule := h.schedule
  windowMs := h.windowMs
  debounceMs := h.debounceMs
  past := fun call hcall =>
    ⟨(h.past call hcall).1, (h.past call hcall).2.1.trans hclock, (h.past call hcall).2.2⟩
  locks := fun ip => (h.locks ip).mono (fun _ hstale => hstale.trans hclock)
  counters := fun ip =>
    (h.counters ip).mono (fun _ hstale => hstale.trans hclock)
  bans := fun ip => (h.bans ip).mono (fun _ hstale => hstale.trans hclock)

theorem Tracks.purgeDebounceLocks (h : Tracks schedule s) (hnow : s.clockMs = nowMs) :
    Tracks schedule { s with action := s.action.purgeDebounceLocks nowMs } where
  schedule := h.schedule
  windowMs := h.windowMs
  debounceMs := h.debounceMs
  past := h.past
  counters := h.counters
  bans := h.bans
  locks := by
    intro ip
    unfold BanAction.purgeDebounceLocks
    dsimp only
    rw [Table.lookup_retain, h.debounceMs]
    refine (h.locks ip).filter ?_
    intro last hlast hold
    have hold := Int.not_lt.mp (of_decide_eq_false hold)
    have hpast := h.mem_offenses (List.mem_of_head? hlast)
    -- the cutoff may be clamped, but no offense is at the end of the range
    have hcutoff : last - 1 < clampI64 (nowMs - 100 * 10) <-> last - 1 < nowMs - 100 * 10 :=
      lt_clampI64_iff (by lia) (by lia)
    unfold saturatingSub at hold
    lia

theorem Tracks.purgeBans (h : Tracks schedule s) (hnow : s.clockMs = nowMs) :
    Tracks schedule { s with
        action := { s.action with
          banTable := (s.action.banTable.purgeExpired nowMs).1 } } where
  schedule := h.schedule
  windowMs := h.windowMs
  debounceMs := h.debounceMs
  past := h.past
  locks := h.locks
  counters := h.counters
  bans := by
    intro ip
    unfold DynamicBanTable.purgeExpired
    dsimp only
    rw [Table.lookup_retain]
    refine (h.bans ip).filter ?_
    intro exp _ hold
    rw [hnow]
    exact Int.not_lt.mp (of_decide_eq_false hold)

theorem Tracks.purgeCounters (h : Tracks schedule s)
    (hnow : s.clockMs = nowMs) (hfew : ¬ s.Evicts (.purgeCounters nowMs)) :
    Tracks schedule { s with
        action := { s.action with
          offenseStore := s.action.offenseStore.gc nowMs } } where
  schedule := h.schedule
  windowMs := h.windowMs
  debounceMs := h.debounceMs
  past := h.past
  locks := h.locks
  bans := h.bans
  counters := by
    intro ip
    unfold MemoryCounterStore.gc
    dsimp only
    rw [Table.cutTo_of_size_le (Nat.not_lt.mp hfew), Table.lookup_retain]
    refine (h.counters ip).filter ?_
    intro entry _ hold
    rw [hnow]
    exact Int.not_lt.mp (of_decide_eq_false hold)

section Call

variable (h : Tracks schedule s) (hclock : s.clockMs ≤ nowMs)
  (hmin : i64Min < nowMs) (hmax : nowMs < i64Max)

include h hclock hmin hmax

theorem Tracks.past_cons (ip : IpAddr) (result : ActionResult) (call : BanCall)
    (hcall : call ∈ { ip := ip, atMs := nowMs, result := result } :: s.log) :
    i64Min < call.atMs ∧ call.atMs ≤ nowMs ∧ call.atMs < i64Max := by
  rcases List.mem_cons.mp hcall with rfl | hmem
  · exact ⟨hmin, le_refl nowMs, hmax⟩
  · exact (h.later hclock).past call hmem

variable {ip : IpAddr}

theorem Tracks.debounced
    (hsoon : Debounced nowMs (offenses ip s.log)) :
    Tracks schedule
      { action := s.action
        clockMs := nowMs
        log := { ip := ip, atMs := nowMs, result := .noop } :: s.log } := by
  have hlater := h.later hclock
  have hoffs : forall other,
      offenses other ({ ip := ip, atMs := nowMs, result := .noop } :: s.log) =
        offenses other s.log := by
    intro other
    rcases eq_or_ne ip other with rfl | hne
    · exact offenses_cons_of_debounced hsoon
    · exact offenses_cons_of_ne hne s.log
  have hbans : forall other,
      banEnd other ({ ip := ip, atMs := nowMs, result := .noop } :: s.log) =
        banEnd other s.log := by
    intro other
    unfold banEnd
    rw [bansOf_cons_of_none rfl]
  exact {
    schedule := hlater.schedule
    windowMs := hlater.windowMs
    debounceMs := hlater.debounceMs
    past := h.past_cons hclock hmin hmax ip .noop
    locks := by
      intro other
      dsimp only
      rw [hoffs]
      exact hlater.locks other
    counters := by
      intro other
      dsimp only
      rw [hoffs]
      exact hlater.counters other
    bans := by
      intro other
      dsimp only
      rw [hbans]
      exact hlater.bans other }

theorem Tracks.bans_insert {ttlS : UInt32}
    {result : ActionResult} (httl : result.banTtlS = some ttlS) :
    (s.action.banTable.insert ip (saturatingAdd nowMs (ttlS.toNat * 1000))).entries.lookup ip =
      banEnd ip ({ ip := ip, atMs := nowMs, result := result } :: s.log) := by
  rw [DynamicBanTable.lookup_insert_self, banEnd_cons_self httl]
  rcases h.bans ip with hsame | ⟨hnone, exp, hexp, hstale⟩
  · rw [hsame]
  · have hend : nowMs ≤ saturatingAdd nowMs (ttlS.toNat * 1000) := by
      have hcases := clampI64_cases (nowMs + ttlS.toNat * 1000)
      unfold saturatingAdd
      lia
    rw [hnone, hexp]
    dsimp only [Option.elim_none, Option.elim_some]
    rw [max_eq_right (hstale.trans (hclock.trans hend))]

theorem Tracks.offense
    (hlate : ¬ Debounced nowMs (offenses ip s.log)) {ttlS : UInt32}
    {result : ActionResult} (httl : result.banTtlS = some ttlS) :
    Tracks schedule
      { action := { s.action with
          debounceLocks := s.action.debounceLocks.insert ip nowMs
          offenseStore := (s.action.offenseStore.incrGet
            (BanAction.offenseKey ip) (3600 * 1000) nowMs).1
          banTable := s.action.banTable.insert ip
            (saturatingAdd nowMs (ttlS.toNat * 1000)) }
        clockMs := nowMs
        log := { ip := ip, atMs := nowMs, result := result } :: s.log } where
  schedule := h.schedule
  windowMs := h.windowMs
  debounceMs := h.debounceMs
  past := h.past_cons hclock hmin hmax ip result
  locks := by
    intro other
    dsimp only
    rcases eq_or_ne ip other with rfl | hne
    · rw [Table.lookup_insert_self, offenses_cons_self hlate]
      exact Fades.refl _ _
    · rw [Table.lookup_insert_of_ne hne.symm, offenses_cons_of_ne hne]
      exact (h.later hclock).locks other
  counters := by
    intro other
    dsimp only
    rcases eq_or_ne ip other with rfl | hne
    · rw [incrGet_map, incrGet_count_of_fades (h.counters ip) hclock,
        offenses_cons_self hlate]
      exact Fades.refl _ _
    · rw [incrGet_map_of_ne _
        (fun hkey => hne (BanAction.offenseKey_injective hkey).symm),
        offenses_cons_of_ne hne]
      exact (h.later hclock).counters other
  bans := by
    intro other
    dsimp only
    rcases eq_or_ne ip other with rfl | hne
    · rw [h.bans_insert hclock hmin hmax httl]
      exact Fades.refl _ _
    · unfold banEnd
      rw [DynamicBanTable.lookup_insert_of_ne _ _ hne.symm,
        bansOf_cons_of_ne hne]
      exact (h.later hclock).bans other

end Call

variable {event : BanEvent}

theorem step_some {s' : BanRun} (hstep : s.step event = some s') :
    s.clockMs ≤ event.nowMs ∧ ¬ s.Evicts event ∧ s' = s.perform event := by
  unfold step at hstep
  split at hstep
  · rename_i hguard
    cases hstep
    exact ⟨hguard.1, hguard.2.2, rfl⟩
  · cases hstep

theorem Tracks.step {s' : BanRun} (h : Tracks schedule s)
    (hrange : i64Min < event.nowMs ∧ event.nowMs < i64Max)
    (hstep : s.step event = some s') : Tracks schedule s' := by
  rcases step_some hstep with ⟨hclock, hfew, rfl⟩
  have hlater := h.later hclock
  cases event with
  | execute ip reason detector nowMs =>
    dsimp only [BanEvent.nowMs] at hclock hrange
    unfold perform
    dsimp only
    rcases Decidable.em (Debounced nowMs (offenses ip s.log)) with hsoon | hlate
    · rw [h.outcome_of_debounced hclock hsoon]
      exact h.debounced hclock hrange.1 hrange.2 hsoon
    · rw [h.outcome_of_offense hclock hrange.1 hrange.2 hlate]
      exact h.offense hclock hrange.1 hrange.2 hlate rfl
  | contains ip nowMs => exact hlater
  | purgeDebounceLocks nowMs => exact hlater.purgeDebounceLocks rfl
  | purgeBans nowMs => exact hlater.purgeBans rfl
  | purgeCounters nowMs => exact hlater.purgeCounters rfl hfew

theorem Tracks.right (h : Tracks schedule s)
    (hrange : i64Min < event.nowMs ∧ event.nowMs < i64Max) :
    s.Right event := by
  intro hsome
  obtain ⟨s', hstep⟩ := Option.isSome_iff_exists.mp hsome
  have hclock := (step_some hstep).1
  cases event with
  | execute ip reason detector nowMs =>
    dsimp only [BanEvent.nowMs] at hclock hrange
    unfold Answers
    dsimp only
    split
    · rename_i hsoon
      exact h.outcome_of_debounced hclock hsoon reason detector
    · rename_i hlate
      rw [h.outcome_of_offense hclock hrange.1 hrange.2 hlate, h.schedule]
      exact ⟨_, schedule.getElem?_stepFor _, rfl⟩
  | contains ip nowMs => exact h.contains_iff hclock hrange.1 hrange.2 ip
  | purgeDebounceLocks nowMs => trivial
  | purgeBans nowMs => trivial
  | purgeCounters nowMs => trivial

end Preserved

/-- As long as the clock is not at an end of its range, offenses escalate along the
schedule and bans last as long as they were given. -/
theorem bans_escalate (schedule : BanSchedule) (maxKeys : Nat) {events : List BanEvent}
    (hrange : forall event, event ∈ events -> i64Min < event.nowMs ∧ event.nowMs < i64Max) :
    StepsMeet step Right (start schedule maxKeys) events :=
  stepsMeet_of_invariant (fun h hok hstep => Tracks.step h hok hstep)
    (fun h hok => Tracks.right h hok) (tracks_start schedule maxKeys)
    (stepsMeet_of_forall (fun _ event hmem => hrange event hmem))

def burst (nowMs : Int) : BanEvent :=
  .execute (.v4 (.new 10 0 0 1)) "burst".toList "per_ip".toList nowMs

theorem bans_escalate_with_purges :
    StepsMeet step Right (start .default 10)
      [burst 0, .purgeDebounceLocks 1000, burst 2000, burst 2050,
        .purgeBans 70000, .purgeCounters 80000,
        .contains (.v4 (.new 10 0 0 1)) 90000, burst 100000] :=
  bans_escalate .default 10 (by decide)

/-- The second offense comes at the end of the clock, where the counter has expired. -/
theorem escalation_lost_at_clock_end :
    (runFrom step (start .default 10) [burst (i64Max - 1000)]).any (fun s =>
      decide (rank i64Max (offenses (.v4 (.new 10 0 0 1)) s.log) = 2) &&
        (s.step (burst i64Max)).isSome &&
        decide ((s.outcome (.v4 (.new 10 0 0 1)) "burst".toList "per_ip".toList i64Max).2 =
            { banned := true, banTtlS := some 60, riskDelta := 30 })) =
      true := by
  decide

end BanRun

end Ddos
end PrxWaf
