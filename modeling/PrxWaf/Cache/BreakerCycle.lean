import PrxWaf.Cache.CircuitBreaker

/-!
# The cycle of the circuit breaker

The state of the breaker is not kept but computed from a count of failures, the time
at which it opened, and the clock.  Its cycle is compared here with the commands that
reads and writes sent to the server, listed from the newest.
-/

namespace PrxWaf
namespace Cache

open Lib

inductive Outcome where
  | done
  | missed
  | failed
  deriving DecidableEq

structure Issued where
  command : Command
  outcome : Outcome

inductive Mark where
  | success
  | failure
  | nothing
  deriving DecidableEq

/-- Only writes and probes count as failures, and commands on tags not at all. -/
def Issued.mark (issued : Issued) : Mark :=
  match issued.command, issued.outcome with
  | .get _, .done => .success
  | .set _, .done => .success
  | .set _, .failed => .failure
  | .ping, .done => .success
  | .ping, .failed => .failure
  | _, _ => .nothing

def countedFailures : List Issued -> Nat
  | [] => 0
  | last :: older =>
    match last.mark with
    | .success => 0
    | .failure => countedFailures older + 1
    | .nothing => countedFailures older

/-- How many commands failed since the last one that did not. -/
def failedInARow (log : List Issued) : Nat :=
  (log.takeWhile (fun issued => issued.outcome = .failed)).length

/-- At some point of the commands that follow, as many failed in a row. -/
def Exhausted (threshold : Nat) : List Issued -> List Issued -> Prop
  | _, [] => False
  | log, next :: rest =>
    threshold ≤ failedInARow (next :: log) ∨ Exhausted threshold (next :: log) rest

instance Exhausted.decidable (threshold : Nat) : forall log commands,
    Decidable (Exhausted threshold log commands)
  | _, [] => isFalse id
  | log, next :: rest =>
    have := Exhausted.decidable threshold (next :: log) rest
    inferInstanceAs (Decidable (_ ∨ _))

variable {last : Issued}

theorem countedFailures_of_success (h : last.mark = .success)
    (older : List Issued) : countedFailures (last :: older) = 0 := by
  rw [countedFailures, h]

theorem countedFailures_of_failure (h : last.mark = .failure) (older : List Issued) :
    countedFailures (last :: older) = countedFailures older + 1 := by
  rw [countedFailures, h]

theorem countedFailures_of_nothing (h : last.mark = .nothing) (older : List Issued) :
    countedFailures (last :: older) = countedFailures older := by
  rw [countedFailures, h]

theorem countedFailures_append {front : List Issued}
    (h : forall issued, issued ∈ front -> issued.mark = .nothing) (log : List Issued) :
    countedFailures (front ++ log) = countedFailures log := by
  induction front with
  | nil => rfl
  | cons first rest ih =>
    rw [List.cons_append, countedFailures_of_nothing (h first List.mem_cons_self)]
    exact ih (fun issued hmem => h issued (List.mem_cons_of_mem first hmem))

structure Counters where
  threshold : UInt32
  resetSecs : Nat
  failures : UInt32
  trippedAt : Nat

namespace Counters

def state (c : Counters) (nowSecs : Nat) : CircuitState :=
  circuitBreakerStateFromCounters c.failures c.threshold c.trippedAt c.resetSecs nowSecs

def succeeded (c : Counters) : Counters :=
  { c with failures := 0, trippedAt := 0 }

def failed (c : Counters) (nowSecs : Nat) : Counters :=
  let failures := c.failures + 1
  if c.threshold ≤ failures ∧ c.trippedAt = 0 then
    { c with failures := failures, trippedAt := nowSecs }
  else { c with failures := failures }

/-- The count is that of the commands, and the breaker has a time exactly when it is
not closed. -/
structure Tallies (threshold : UInt32) (resetSecs : Nat) (log : List Issued)
    (c : Counters) : Prop where
  threshold : c.threshold = threshold
  resetSecs : c.resetSecs = resetSecs
  count : c.failures.toNat = countedFailures log
  armed : c.failures < c.threshold -> c.trippedAt = 0
  tripped : c.threshold ≤ c.failures -> c.trippedAt ≠ 0

section State

variable {c : Counters} {nowSecs : Nat}

theorem state_closed_iff : c.state nowSecs = .closed <-> c.failures < c.threshold := by
  unfold state circuitBreakerStateFromCounters
  split
  · rename_i hfew
    simp [hfew]
  · rename_i hmany
    split
    · simp [hmany]
    · simp [hmany]

theorem state_opened_iff : c.state nowSecs = .opened <->
    c.threshold ≤ c.failures ∧ nowSecs - c.trippedAt < c.resetSecs := by
  unfold state circuitBreakerStateFromCounters
  split
  · rename_i hfew
    simp [UInt32.not_le.mpr hfew]
  · rename_i hmany
    split
    · rename_i hlong
      simp [Nat.not_lt.mpr hlong]
    · rename_i hshort
      simp [UInt32.not_lt.mp hmany, Nat.not_le.mp hshort]

theorem state_halfOpen_iff : c.state nowSecs = .halfOpen <->
    c.threshold ≤ c.failures ∧ c.resetSecs ≤ nowSecs - c.trippedAt := by
  unfold state circuitBreakerStateFromCounters
  split
  · rename_i hfew
    simp [UInt32.not_le.mpr hfew]
  · rename_i hmany
    split
    · rename_i hlong
      simp [UInt32.not_lt.mp hmany, hlong]
    · rename_i hshort
      simp [hshort]

end State

section Tallies

variable {threshold : UInt32} {resetSecs : Nat} {log : List Issued}
  {c : Counters}

theorem tallies_succeeded (h : Tallies threshold resetSecs log c)
    (hpos : 0 < threshold) {newLog : List Issued} (hnew : countedFailures newLog = 0) :
    Tallies threshold resetSecs newLog c.succeeded where
  threshold := h.threshold
  resetSecs := h.resetSecs
  count := hnew.symm
  armed := fun _ => rfl
  tripped := by
    intro hle
    change c.threshold ≤ 0 at hle
    rw [h.threshold] at hle
    exact absurd hpos (UInt32.not_lt.mpr hle)

theorem toNat_failures_succ {c : Counters} (hfew : c.failures < c.threshold) :
    (c.failures + 1).toNat = c.failures.toNat + 1 := by
  have hlt := UInt32.lt_iff_toNat_lt.mp hfew
  have hmax := c.threshold.toNat_lt
  rw [UInt32.toNat_add]
  change (c.failures.toNat + 1) % 4294967296 = _
  change c.threshold.toNat < 4294967296 at hmax
  lia

theorem failed_of_closed (h : Tallies threshold resetSecs log c)
    (hfew : c.failures < c.threshold) {nowSecs : Nat} (hnow : 0 < nowSecs)
    {last : Issued} (hlast : last.mark = .failure) :
    Tallies threshold resetSecs (last :: log) (c.failed nowSecs) ∧
      (c.threshold ≤ c.failures + 1 -> (c.failed nowSecs).trippedAt = nowSecs) ∧
      (c.failed nowSecs).failures = c.failures + 1 := by
  have hcount : (c.failures + 1).toNat = countedFailures (last :: log) := by
    rw [toNat_failures_succ hfew, h.count, countedFailures_of_failure hlast]
  unfold failed
  dsimp only
  split
  · rename_i htrip
    refine ⟨⟨h.threshold, h.resetSecs, hcount, ?_, ?_⟩, fun _ => rfl, rfl⟩
    · intro hlt
      exact absurd htrip.1 (UInt32.not_le.mpr hlt)
    · intro _
      exact Nat.ne_of_gt hnow
  · rename_i hkeep
    have hbelow : ¬ c.threshold ≤ c.failures + 1 := fun hle => hkeep ⟨hle, h.armed hfew⟩
    refine ⟨⟨h.threshold, h.resetSecs, hcount, fun _ => h.armed hfew, ?_⟩,
      fun hle => absurd hle hbelow, rfl⟩
    intro hle
    exact absurd hle hbelow

theorem failed_of_halfOpen (h : Tallies threshold resetSecs log c)
    {beginSecs nowSecs : Nat} (hhalf : c.state beginSecs = .halfOpen)
    (hle : beginSecs ≤ nowSecs) : (c.failed nowSecs).state nowSecs ≠ .opened := by
  obtain ⟨hmany, hlong⟩ := state_halfOpen_iff.mp hhalf
  have hset := h.tripped hmany
  have hfailed : c.failed nowSecs = { c with failures := c.failures + 1 } :=
    if_neg (fun hboth => hset hboth.2)
  rw [hfailed]
  intro hopen
  have hshort := (state_opened_iff.mp hopen).2
  change nowSecs - c.trippedAt < c.resetSecs at hshort
  lia

end Tallies

end Counters

inductive BreakerOp where
  | get (key : Text)
  | put (key : Text) (value : CachedResponse) (ttlSecs : Nat)
      (tags : List Text)

structure BreakerCall where
  link : Link
  time : Moment
  op : BreakerOp

def Fate.outcome (fate : Fate) : Outcome :=
  if fate.isAnswered then .done else .failed

namespace CircuitBreakerStore

def counters (store : CircuitBreakerStore) : Counters :=
  { threshold := store.threshold
    resetSecs := store.resetSecs
    failures := store.failures
    trippedAt := store.trippedAt }

def readIssued (store : CircuitBreakerStore) (link : Link) (time : Moment) (key : Text) : Issued :=
  { command := .get key
    outcome :=
      if (store.inner.get link time.now key).isSome then .done
      else if link.answered (.get key) then .missed
      else .failed }

def tagsIssued (link : Link) (key : Text) (tags : List Text) : List Issued :=
  tags.flatMap (fun tag =>
    [{ command := .saddTag tag key
       outcome := (link.fate (.saddTag tag key)).outcome },
      { command := .saddKeyTag key tag
        outcome := (link.fate (.saddKeyTag key tag)).outcome }])

def issued (store : CircuitBreakerStore) (call : BreakerCall) : List Issued :=
  match call.op with
  | .get key =>
    match store.state call.time.beginSecs with
    | .closed => [store.readIssued call.link call.time key]
    | .opened => []
    | .halfOpen =>
      if call.link.answered .ping then
        [{ command := .ping, outcome := .done }, store.readIssued call.link call.time key]
      else [{ command := .ping, outcome := .failed }]
  | .put key _ ttlSecs tags =>
    if store.state call.time.beginSecs = .opened then []
    else
      let fate := ValkeyStore.setFate call.link call.time.now key ttlSecs
      { command := .set key, outcome := fate.outcome } ::
        if fate = .answered then tagsIssued call.link key tags else []

def after (store : CircuitBreakerStore) (call : BreakerCall) : CircuitBreakerStore :=
  match call.op with
  | .get key => (store.get call.link call.time key).1
  | .put key value ttlSecs tags =>
    (store.put call.link call.time key value ttlSecs tags).1

variable (store : CircuitBreakerStore) (nowSecs : Nat) (link : Link) (time : Moment)
  (key : Text)

theorem state_eq :
    store.state nowSecs = store.counters.state nowSecs :=
  rfl

theorem counters_recordFailure :
    (store.recordFailure nowSecs).counters = store.counters.failed nowSecs := by
  unfold recordFailure Counters.failed counters
  dsimp only
  split
  · rfl
  · rfl

theorem readIssued_mark :
    (store.readIssued link time key).mark =
      if (store.inner.get link time.now key).isSome then .success
      else .nothing := by
  unfold readIssued
  split
  · rfl
  · split
    · rfl
    · rfl

theorem counters_tryValkeyGet :
    (store.tryValkeyGet link time key).1.counters =
      if (store.inner.get link time.now key).isSome then
        store.counters.succeeded
      else store.counters := by
  unfold tryValkeyGet
  dsimp only
  split
  · rfl
  · rfl

theorem counters_put {store : CircuitBreakerStore} {time : Moment}
    (hnot : store.state time.beginSecs ≠ .opened) (link : Link) (key : Text)
    (value : CachedResponse) (ttlSecs : Nat) (tags : List Text) :
    (store.put link time key value ttlSecs tags).1.counters =
      if ValkeyStore.setFate link time.now key ttlSecs = .answered then
        store.counters.succeeded
      else store.counters.failed time.failureSecs := by
  have haccepted := ValkeyStore.put_accepted_iff store.inner link time.now key value ttlSecs tags
  unfold put
  rw [if_neg hnot]
  dsimp only
  split
  · rename_i hstored
    rw [if_pos (haccepted.mp hstored)]
    rfl
  · rename_i hlost
    rw [if_neg (fun hfate => hlost (haccepted.mpr hfate))]
    exact counters_recordFailure _ time.failureSecs

theorem tagsIssued_mark {link : Link} {key : Text} {tags : List Text}
    {issued : Issued} (h : issued ∈ tagsIssued link key tags) :
    issued.mark = .nothing := by
  obtain ⟨tag, -, hmem⟩ := List.mem_flatMap.mp h
  rcases List.mem_cons.mp hmem with rfl | hmem
  · rfl
  · rcases List.mem_singleton.mp hmem with rfl
    rfl

def Idle (store : CircuitBreakerStore) (call : BreakerCall) : Prop :=
  store.issued call = [] ∧ (store.after call).counters = store.counters

def Recovers (store : CircuitBreakerStore) (call : BreakerCall) : Prop :=
  (exists first rest, store.issued call = first :: rest ∧
      first.outcome = .done) ∧
    (forall log, countedFailures ((store.issued call).reverse ++ log) = 0) ∧
    (store.after call).counters = store.counters.succeeded

def Misses (store : CircuitBreakerStore) (call : BreakerCall) : Prop :=
  store.state call.time.beginSecs = .closed ∧
    (exists read, store.issued call = [read] ∧ read.mark = .nothing) ∧
    (store.after call).counters = store.counters

def Fails (store : CircuitBreakerStore) (call : BreakerCall) : Prop :=
  store.state call.time.beginSecs ≠ .opened ∧
    (exists last, store.issued call = [last] ∧ last.mark = .failure ∧ last.outcome = .failed) ∧
    (store.after call).counters = store.counters.failed call.time.failureSecs

section Calls

variable {store : CircuitBreakerStore} {link : Link} {time : Moment}

theorem get_of_closed (hstate : store.state time.beginSecs = .closed) (key : Text) :
    store.Recovers { link := link, time := time, op := .get key } ∨
      store.Misses { link := link, time := time, op := .get key } := by
  have hread := readIssued_mark store link time key
  have hissued : store.issued { link := link, time := time, op := .get key } =
      [store.readIssued link time key] := by
    unfold issued
    dsimp only
    rw [hstate]
  have hafter : (store.after { link := link, time := time, op := .get key }).counters =
        if (store.inner.get link time.now key).isSome then
          store.counters.succeeded
        else store.counters := by
    rw [← counters_tryValkeyGet]
    unfold after get
    dsimp only
    rw [hstate]
  cases hfound : (store.inner.get link time.now key).isSome with
  | true =>
    rw [hfound, if_pos rfl] at hread hafter
    apply Or.inl
    refine ⟨⟨_, [], hissued, if_pos hfound⟩, ?_, hafter⟩
    intro log
    rw [hissued]
    exact countedFailures_of_success hread log
  | false =>
    rw [hfound, if_neg (by simp)] at hread hafter
    exact Or.inr ⟨hstate, ⟨_, hissued, hread⟩, hafter⟩

theorem get_of_opened (hstate : store.state time.beginSecs = .opened) (key : Text) :
    store.Idle { link := link, time := time, op := .get key } := by
  unfold Idle issued after get
  dsimp only
  rw [hstate]
  exact ⟨rfl, rfl⟩

theorem get_of_probe_answered (hstate : store.state time.beginSecs = .halfOpen)
    (hping : link.answered .ping = true) (key : Text) :
    store.Recovers { link := link, time := time, op := .get key } := by
  have hread := readIssued_mark store link time key
  have hissued : store.issued { link := link, time := time, op := .get key } =
      [{ command := .ping, outcome := .done }, store.readIssued link time key] := by
    unfold issued
    dsimp only
    rw [hstate, hping]
    rfl
  have hafter : (store.after { link := link, time := time, op := .get key }).counters =
        (store.recordSuccess.tryValkeyGet link time key).1.counters := by
    unfold after get
    dsimp only
    rw [hstate, hping]
    rfl
  refine ⟨⟨_, _, hissued, rfl⟩, ?_, ?_⟩
  · intro log
    have hpinged : countedFailures ({ command := .ping, outcome := .done } :: log) = 0 := rfl
    rw [hissued]
    change countedFailures (store.readIssued link time key ::
      { command := .ping, outcome := .done } :: log) = 0
    split at hread
    · exact countedFailures_of_success hread _
    · rw [countedFailures_of_nothing hread]
      exact hpinged
  · rw [hafter, counters_tryValkeyGet]
    split
    · rfl
    · rfl

theorem get_of_probe_failed (hstate : store.state time.beginSecs = .halfOpen)
    (hping : link.answered .ping = false) (key : Text) :
    store.Fails { link := link, time := time, op := .get key } := by
  unfold Fails issued after get
  dsimp only
  rw [hstate, hping]
  refine ⟨by decide, ⟨_, rfl, rfl, rfl⟩, ?_⟩
  exact counters_recordFailure store time.failureSecs

theorem get_cases (key : Text) :
    store.Idle { link := link, time := time, op := .get key } ∨
      store.Recovers { link := link, time := time, op := .get key } ∨
      store.Misses { link := link, time := time, op := .get key } ∨
      store.Fails { link := link, time := time, op := .get key } := by
  cases hstate : store.state time.beginSecs with
  | closed =>
    rcases get_of_closed hstate key with hrecovers | hmisses
    · exact Or.inr (Or.inl hrecovers)
    · exact Or.inr (Or.inr (Or.inl hmisses))
  | opened => exact Or.inl (get_of_opened hstate key)
  | halfOpen =>
    cases hping : link.answered .ping with
    | true => exact Or.inr (Or.inl (get_of_probe_answered hstate hping key))
    | false =>
      exact Or.inr (Or.inr (Or.inr (get_of_probe_failed hstate hping key)))

theorem put_cases (key : Text) (value : CachedResponse) (ttlSecs : Nat)
    (tags : List Text) :
    let call : BreakerCall :=
      { link := link, time := time, op := .put key value ttlSecs tags }
    store.Idle call ∨ store.Recovers call ∨ store.Misses call ∨
      store.Fails call := by
  intro call
  rcases Decidable.em (store.state time.beginSecs = .opened) with
    hopen | hnot
  · apply Or.inl
    unfold Idle issued after put
    dsimp only [call]
    rw [if_pos hopen, if_pos hopen]
    exact ⟨rfl, rfl⟩
  · have hcounters := counters_put hnot link key value ttlSecs tags
    have hissued : store.issued call =
        { command := .set key
          outcome :=
            (ValkeyStore.setFate link time.now key ttlSecs).outcome } ::
          if ValkeyStore.setFate link time.now key ttlSecs = .answered then
            tagsIssued link key tags
          else [] :=
      if_neg hnot
    apply Or.inr
    split at hcounters
    · rename_i hfate
      rw [if_pos hfate, hfate] at hissued
      apply Or.inl
      refine ⟨⟨_, _, hissued, rfl⟩, ?_, hcounters⟩
      intro log
      rw [hissued, List.reverse_cons, List.append_assoc,
        countedFailures_append]
      · rfl
      · intro tag hmem
        exact tagsIssued_mark (List.mem_reverse.mp hmem)
    · rename_i hfate
      have houtcome : (ValkeyStore.setFate link time.now key
          ttlSecs).outcome = .failed := by
        cases hlost : ValkeyStore.setFate link time.now key ttlSecs with
        | answered => exact absurd hlost hfate
        | unanswered => rfl
        | undone => rfl
      rw [if_neg hfate, houtcome] at hissued
      apply Or.inr
      apply Or.inr
      exact ⟨hnot, ⟨_, hissued, rfl, rfl⟩, hcounters⟩

theorem call_cases (call : BreakerCall) :
    store.Idle call ∨ store.Recovers call ∨ store.Misses call ∨ store.Fails call := by
  obtain ⟨link, time, op⟩ := call
  cases op with
  | get key => exact get_cases key
  | put key value ttlSecs tags => exact put_cases key value ttlSecs tags

end Calls

end CircuitBreakerStore

/-!
## Runs

As long as no probe fails, the counters of the store say the same as the log of the
commands that were sent.
-/

structure BreakerRun where
  store : CircuitBreakerStore
  clockSecs : Nat
  log : List Issued

namespace BreakerRun

open CircuitBreakerStore

def start (inner : ValkeyStore) (fallback : MokaStore) (threshold : UInt32)
    (resetSecs : Nat) : BreakerRun :=
  { store := new inner fallback threshold resetSecs
    clockSecs := 0
    log := [] }

def perform (s : BreakerRun) (call : BreakerCall) : BreakerRun :=
  { store := s.store.after call
    clockSecs := call.time.failureSecs
    log := (s.store.issued call).reverse ++ s.log }

/-- Calls come in the order of their times, all after 0. -/
def InOrder (s : BreakerRun) (call : BreakerCall) : Prop :=
  s.clockSecs ≤ call.time.beginSecs ∧ 0 < call.time.beginSecs ∧
    call.time.beginSecs ≤ call.time.failureSecs

instance (s : BreakerRun) (call : BreakerCall) : Decidable (s.InOrder call) :=
  inferInstanceAs (Decidable (_ ∧ _))

def step (s : BreakerRun) (call : BreakerCall) : Option BreakerRun :=
  if s.InOrder call then some (s.perform call) else none

def ProbeFails (s : BreakerRun) (call : BreakerCall) : Prop :=
  s.store.state call.time.beginSecs = .halfOpen ∧
    (s.store.issued call).head?.map Issued.outcome = some .failed

instance (s : BreakerRun) (call : BreakerCall) : Decidable (s.ProbeFails call) :=
  inferInstanceAs (Decidable (_ ∧ _))

/-- After enough failures in a row the breaker is open, and after a probe that failed
it stays open for another period. -/
def FollowsCycle (s : BreakerRun) (call : BreakerCall) : Prop :=
  s.InOrder call ->
    (Exhausted s.store.threshold.toNat s.log (s.store.issued call) ->
      (s.perform call).store.state call.time.failureSecs = .opened) ∧
    (s.ProbeFails call ->
      forall nowSecs, call.time.failureSecs ≤ nowSecs ->
        nowSecs < call.time.failureSecs + s.store.resetSecs ->
        (s.perform call).store.state nowSecs = .opened)

/-- No probe fails, and where enough commands failed in a row, enough of the failures
count. -/
def FailuresCount (s : BreakerRun) (call : BreakerCall) : Prop :=
  s.InOrder call ->
    ¬ s.ProbeFails call ∧
    (Exhausted s.store.threshold.toNat s.log (s.store.issued call) ->
      s.store.threshold.toNat ≤ countedFailures (s.perform call).log)

instance (s : BreakerRun) (call : BreakerCall) : Decidable (s.FailuresCount call) :=
  inferInstanceAs (Decidable (_ -> _))

section Step

variable {threshold : UInt32} {resetSecs : Nat} {s : BreakerRun}
  {call : BreakerCall}

def Tallied (threshold : UInt32) (resetSecs : Nat) (s : BreakerRun) : Prop :=
  s.store.counters.Tallies threshold resetSecs s.log

theorem closed_of_fails (hfails : s.store.Fails call) (hprobe : ¬ s.ProbeFails call) :
    s.store.state call.time.beginSecs = .closed := by
  obtain ⟨hnot, ⟨last, hissued, -, hfailed⟩, -⟩ := hfails
  cases hstate : s.store.state call.time.beginSecs with
  | closed => rfl
  | opened => exact absurd hstate hnot
  | halfOpen =>
    refine absurd ⟨hstate, ?_⟩ hprobe
    rw [hissued]
    exact congrArg some hfailed

theorem Tallied.perform (h : Tallied threshold resetSecs s)
    (hpos : 0 < threshold) (hin : s.InOrder call) (hprobe : ¬ s.ProbeFails call) :
    Tallied threshold resetSecs (s.perform call) := by
  unfold Tallied BreakerRun.perform
  dsimp only
  rcases s.store.call_cases call with ⟨hissued, hafter⟩ | ⟨-, hcount, hafter⟩ |
      ⟨-, ⟨read, hissued, hmark⟩, hafter⟩ | hfails
  · rw [hissued, hafter]
    exact h
  · rw [hafter]
    exact Counters.tallies_succeeded h hpos (hcount s.log)
  · rw [hissued, hafter]
    have hsame := countedFailures_of_nothing hmark s.log
    exact ⟨h.threshold, h.resetSecs, h.count.trans hsame.symm, h.armed, h.tripped⟩
  · have hclosed := closed_of_fails hfails hprobe
    obtain ⟨-, ⟨last, hissued, hmark, -⟩, hafter⟩ := hfails
    rw [hissued, hafter]
    exact (Counters.failed_of_closed h (Counters.state_closed_iff.mp hclosed)
      (Nat.lt_of_lt_of_le hin.2.1 hin.2.2) hmark).1

theorem Tallied.not_opened_of_probeFails (h : Tallied threshold resetSecs s)
    (hin : s.InOrder call) (hprobe : s.ProbeFails call) :
    (s.perform call).store.state call.time.failureSecs ≠ .opened := by
  obtain ⟨hhalf, hhead⟩ := hprobe
  rcases s.store.call_cases call with
    ⟨hissued, -⟩ | ⟨⟨first, rest, hissued, hdone⟩, -⟩ | ⟨hclosed, -⟩ | ⟨-, -, hafter⟩
  · rw [hissued] at hhead
    cases hhead
  · rw [hissued] at hhead
    have hfailed := Option.some.inj hhead
    rw [hdone] at hfailed
    cases hfailed
  · rw [hclosed] at hhalf
    cases hhalf
  · have hstate := Counters.failed_of_halfOpen h hhalf hin.2.2
    rw [← hafter] at hstate
    exact hstate

theorem Tallied.opened_iff (h : Tallied threshold resetSecs s)
    (hpos : 0 < threshold) (hreset : 0 < resetSecs) (hin : s.InOrder call)
    (hprobe : ¬ s.ProbeFails call) (hsent : s.store.issued call ≠ []) :
    (s.perform call).store.state call.time.failureSecs = .opened <->
      s.store.threshold.toNat ≤ countedFailures (s.perform call).log := by
  have hnext := h.perform hpos hin hprobe
  have hsame : (s.perform call).store.counters.threshold = s.store.threshold :=
    hnext.threshold.trans h.threshold.symm
  have hcount : (s.perform call).store.counters.threshold ≤
      (s.perform call).store.counters.failures <->
        s.store.threshold.toNat ≤ countedFailures (s.perform call).log := by
    rw [UInt32.le_iff_toNat_le, hnext.count, hsame]
  rw [← hcount, state_eq, Counters.state_opened_iff]
  apply and_iff_left_of_imp
  intro hmany
  rcases s.store.call_cases call with ⟨hissued, -⟩ | ⟨-, -, hafter⟩ | ⟨hclosed, -, hafter⟩ | hfails
  · exact absurd hissued hsent
  · change (s.store.after call).counters.threshold ≤ (s.store.after call).counters.failures at hmany
    rw [hafter] at hmany
    exact absurd hmany (UInt32.not_le.mpr (h.threshold ▸ hpos))
  · change (s.store.after call).counters.threshold ≤ (s.store.after call).counters.failures at hmany
    rw [hafter] at hmany
    rw [state_eq, Counters.state_closed_iff] at hclosed
    exact absurd hclosed (UInt32.not_lt.mpr hmany)
  · have hclosed := closed_of_fails hfails hprobe
    obtain ⟨-, ⟨last, -, hmark, -⟩, hafter⟩ := hfails
    have hfailed := Counters.failed_of_closed h (Counters.state_closed_iff.mp hclosed)
      (Nat.lt_of_lt_of_le hin.2.1 hin.2.2) hmark
    change call.time.failureSecs - (s.store.after call).counters.trippedAt <
      (s.store.after call).counters.resetSecs
    change (s.store.after call).counters.threshold ≤ (s.store.after call).counters.failures at hmany
    rw [hafter] at hmany ⊢
    rw [hfailed.1.threshold, ← h.threshold, hfailed.2.2] at hmany
    rw [hfailed.2.1 hmany, hfailed.1.resetSecs, Nat.sub_self]
    exact hreset

theorem sent_of_exhausted {bound : Nat} {log commands : List Issued}
    (h : Exhausted bound log commands) : commands ≠ [] := by
  rintro rfl
  exact h

theorem Tallied.followsCycle_iff (h : Tallied threshold resetSecs s)
    (hpos : 0 < threshold) (hreset : 0 < resetSecs) :
    s.FollowsCycle call <-> s.FailuresCount call := by
  apply imp_congr_right
  intro hin
  rcases Decidable.em (s.ProbeFails call) with hprobe | hprobe
  · apply iff_of_false
    · intro hcycle
      have hperiod : 0 < s.store.resetSecs := Nat.lt_of_lt_of_eq hreset h.resetSecs.symm
      have hopen := hcycle.2 hprobe call.time.failureSecs (le_refl _)
        (Nat.lt_add_of_pos_right hperiod)
      exact h.not_opened_of_probeFails hin hprobe hopen
    · intro hcount
      exact hcount.1 hprobe
  · constructor
    · intro hcycle
      refine ⟨hprobe, ?_⟩
      intro hexhausted
      exact (h.opened_iff hpos hreset hin hprobe
        (sent_of_exhausted hexhausted)).mp (hcycle.1 hexhausted)
    · intro hcount
      refine ⟨?_, fun hfails => absurd hfails hprobe⟩
      intro hexhausted
      exact (h.opened_iff hpos hreset hin hprobe
        (sent_of_exhausted hexhausted)).mpr (hcount.2 hexhausted)

end Step

theorem tallied_start (inner : ValkeyStore) (fallback : MokaStore)
    {threshold : UInt32} (hpos : 0 < threshold) (resetSecs : Nat) :
    Tallied threshold resetSecs (start inner fallback threshold resetSecs) where
  threshold := rfl
  resetSecs := rfl
  count := rfl
  armed := fun _ => rfl
  tripped := fun hle => absurd hpos (UInt32.not_lt.mpr hle)

/-- The breaker follows its cycle in exactly the runs in which no probe fails and
enough of the failed commands count. -/
theorem follows_cycle_iff (inner : ValkeyStore) (fallback : MokaStore)
    {threshold : UInt32} {resetSecs : Nat} (hpos : 0 < threshold)
    (hreset : 0 < resetSecs) (calls : List BreakerCall) :
    StepsMeet step FollowsCycle (start inner fallback threshold resetSecs) calls <->
      StepsMeet step FailuresCount (start inner fallback threshold resetSecs)
        calls := by
  refine stepsMeet_iff_of_invariant (I := Tallied threshold resetSecs)
    (fun h _ => h.followsCycle_iff hpos hreset) ?_ (tallied_start inner fallback hpos resetSecs)
    (stepsMeet_true _ calls)
  intro s call s' h _ hcount hstep
  unfold step at hstep
  split at hstep
  · rename_i hin
    cases hstep
    exact h.perform hpos hin (hcount hin).1
  · cases hstep

def lost : Link :=
  { fate := fun _ => .undone, seen := [] }

def moment (secs : Nat) : Moment :=
  { now := secs * nanosPerSec, beginSecs := secs, failureSecs := secs }

def lostRead (secs : Nat) : BreakerCall :=
  { link := lost, time := moment secs, op := .get "k".toList }

def lostWrite (secs : Nat) : BreakerCall :=
  { link := lost
    time := moment secs
    op := .put "k".toList
      { status := 200, headers := [], body := [], maxAge := 60 } 60 [] }

theorem follows_cycle_of_writes :
    StepsMeet step FollowsCycle (start .empty (.new 60) 2 30)
      [lostWrite 10, lostWrite 11, lostRead 12] :=
  (follows_cycle_iff .empty (.new 60) (by decide) (by decide) _).mpr (by decide)

/-- Two reads that fail leave the breaker closed, and a probe that fails leaves it
half open. -/
theorem cycle_not_followed :
    (runFrom step (start .empty (.new 60) 2 30) [lostRead 10, lostRead 11]).map
        (fun s => (failedInARow s.log, s.store.state 11)) = some (2, .closed) ∧
    (runFrom step (start .empty (.new 60) 2 30) [lostWrite 10, lostWrite 11]).map
        (fun s => (s.store.state 11, s.store.state 50, (s.perform (lostRead 50)).store.state 50)) =
      some (.opened, .halfOpen, .halfOpen) := by
  decide

end BreakerRun

end Cache
end PrxWaf
