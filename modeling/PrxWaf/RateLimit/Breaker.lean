import PrxWaf.RateLimit.Redis

/-!
# The rate-limit store behind its breaker

A call asks Redis as long as the breaker is closed, and the store in memory when it
is open or when Redis fails.  The counter behind the breaker is set back by an
answer of Redis only, and while the breaker is open no call asks Redis.  Calls that
asked before it opened may still be waiting for their answers.
-/

namespace PrxWaf
namespace RateLimit

open Lib

structure Call where
  key : Text
  cfg : LimitCfg
  nowMs : Int
  deriving DecidableEq

/-- What becomes of a script that was sent to Redis. -/
inductive RedisAnswer where
  | returned (code : Int)
  | failed
  | timedOut
  deriving DecidableEq

def RedisAnswer.decision : RedisAnswer -> Option Decision
  | returned (.ofNat code) => Decision.ofCode code
  | returned (.negSucc _) => none
  | failed => none
  | timedOut => none

inductive Source where
  | redis
  | memory
  deriving DecidableEq

structure Served where
  call : Call
  source : Source
  decision : Decision
  deriving DecidableEq

/-- Both stores, the calls that wait for Redis and those that are finished, the
last one first. -/
structure BreakerStore where
  breakerThreshold : UInt32
  consecutiveFails : UInt32
  memory : MemoryStore
  inFlight : List Call
  served : List Served

namespace BreakerStore

def defaultThreshold : UInt32 := 5

def new (breakerThreshold : UInt32) (memory : MemoryStore) : BreakerStore :=
  { breakerThreshold := breakerThreshold
    consecutiveFails := 0
    memory := memory
    inFlight := []
    served := [] }

def breakerOpen (s : BreakerStore) : Bool :=
  s.breakerThreshold ≤ s.consecutiveFails

def recordOk (s : BreakerStore) : BreakerStore :=
  { s with consecutiveFails := 0 }

def recordFail (s : BreakerStore) : BreakerStore :=
  { s with consecutiveFails := s.consecutiveFails + 1 }

def serve (call : Call) (source : Source) (decision : Decision) (s : BreakerStore) : BreakerStore :=
  { s with served := ⟨call, source, decision⟩ :: s.served }

def fromMemory (call : Call) (s : BreakerStore) : BreakerStore :=
  let result := s.memory.checkAndConsume call.key call.cfg call.nowMs
  { s with memory := result.1 }.serve call .memory result.2

/-- `check_and_consume` up to the point where it waits for Redis. -/
def checkAndConsume (call : Call) (s : BreakerStore) : BreakerStore :=
  if s.breakerOpen then s.fromMemory call
  else { s with inFlight := call :: s.inFlight }

/-- The rest of it, with what became of the script. -/
def resume (call : Call) (answer : RedisAnswer) (s : BreakerStore) : BreakerStore :=
  match answer.decision with
  | some decision => s.recordOk.serve call .redis decision
  | none => s.recordFail.fromMemory call

/-- Redis expires its keys itself. -/
def purgeExpired (nowMs : Int) (s : BreakerStore) : BreakerStore :=
  { s with memory := s.memory.cleanup nowMs }

/-- Calls come at any times; the calls that wait are answered in any order. -/
inductive Event where
  | check (call : Call)
  | answer (index : Nat) (answer : RedisAnswer)
  | purge (nowMs : Int)

def step (s : BreakerStore) : Event -> Option BreakerStore
  | .check call => some (s.checkAndConsume call)
  | .answer index answer =>
    match s.inFlight[index]? with
    | none => none
    | some call =>
      some ({ s with inFlight := s.inFlight.eraseIdx index }.resume call answer)
  | .purge nowMs => some (s.purgeExpired nowMs)

def Answers : Event -> Prop
  | .check _ => True
  | .answer _ answer => answer.decision.isSome = true
  | .purge _ => True

def ServedByRedis (s : BreakerStore) (call : Call) : Prop :=
  exists waiting done answer decision,
    step s (.check call) = some waiting ∧
    waiting.inFlight = call :: s.inFlight ∧
    RedisAnswer.decision answer = some decision ∧
    step waiting (.answer 0 answer) = some done ∧
    done.served.head? = some ⟨call, .redis, decision⟩

/-- With Redis answering again, some sequence of calls ends in one that Redis
serves. -/
def CanRecover (s : BreakerStore) : Prop :=
  exists events t, (forall event, event ∈ events -> Answers event) ∧
    runFrom step s events = some t ∧ exists call, t.ServedByRedis call

variable {s t : BreakerStore}

theorem servedByRedis_of_closed (hclosed : s.breakerOpen = false)
    (call : Call) : s.ServedByRedis call := by
  have hwaits : s.checkAndConsume call = { s with inFlight := call :: s.inFlight } := by
    unfold checkAndConsume
    rw [hclosed]
    rfl
  refine ⟨_, s.recordOk.serve call .redis .allow, .returned 0, .allow, rfl, ?_,
    rfl, ?_, rfl⟩
  · rw [hwaits]
  · rw [step, hwaits]
    rfl

theorem breakerOpen_resume {answer : RedisAnswer} {decision : Decision}
    (hthreshold : s.breakerThreshold ≠ 0)
    (hanswer : answer.decision = some decision) (call : Call) :
    (s.resume call answer).breakerOpen = false := by
  unfold resume
  rw [hanswer]
  unfold breakerOpen recordOk serve
  rw [decide_eq_false_iff_not, UInt32.le_iff_toNat_le]
  intro hle
  have hzero : s.breakerThreshold.toNat = 0 := Nat.le_zero.mp hle
  exact hthreshold (UInt32.toNat_inj.mp hzero)

def Stuck (s : BreakerStore) : Prop :=
  s.breakerOpen = true ∧ s.inFlight = []

theorem checkAndConsume_of_open (hopen : s.breakerOpen = true) (call : Call) :
    s.checkAndConsume call = s.fromMemory call := by
  unfold checkAndConsume
  rw [if_pos hopen]

theorem stuck_step {event : Event} (h : s.Stuck) (hstep : step s event = some t) : t.Stuck := by
  cases event with
  | check call =>
    rw [step, checkAndConsume_of_open h.left] at hstep
    injection hstep with hstep
    rw [← hstep]
    exact h
  | answer index answer =>
    rw [step, h.right, List.getElem?_nil] at hstep
    cases hstep
  | purge nowMs =>
    injection hstep with hstep
    rw [← hstep]
    exact h

theorem not_servedByRedis_of_stuck (h : s.Stuck) (call : Call) :
    ¬ s.ServedByRedis call := by
  rintro ⟨waiting, done, answer, decision, hcheck, hwaiting, -⟩
  have hstuck := stuck_step h hcheck
  rw [hstuck.right] at hwaiting
  cases hwaiting

theorem not_canRecover_of_stuck (h : s.Stuck) : ¬ s.CanRecover := by
  rintro ⟨events, t, -, hrun, call, hserved⟩
  have hstuck := runFrom_invariant (fun {_ _ _} h _ hstep => stuck_step h hstep) h
    (stepsMeet_true s events) hrun
  exact not_servedByRedis_of_stuck hstuck call hserved

/-- A breaker that is open from the start never lets a call wait for Redis. -/
def OpenFromStart (breakerThreshold : UInt32) (s : BreakerStore) : Prop :=
  s.breakerThreshold = breakerThreshold ∧ (breakerThreshold = 0 -> s.inFlight = [])

theorem openFromStart_step {breakerThreshold : UInt32} {event : Event}
    (h : s.OpenFromStart breakerThreshold)
    (hstep : step s event = some t) : t.OpenFromStart breakerThreshold := by
  cases event with
  | check call =>
    rw [step] at hstep
    injection hstep with hstep
    rw [← hstep]
    unfold checkAndConsume
    split
    · exact h
    · rename_i hclosed
      refine ⟨h.left, ?_⟩
      intro hzero
      refine absurd ?_ hclosed
      unfold breakerOpen
      rw [h.left, hzero, decide_eq_true_iff, UInt32.le_iff_toNat_le]
      exact Nat.zero_le _
  | answer index answer =>
    rw [step] at hstep
    split at hstep
    · cases hstep
    · rename_i call hcall
      have hrest : breakerThreshold = 0 -> s.inFlight.eraseIdx index = [] := by
        intro hzero
        rw [h.right hzero] at hcall
        cases hcall
      injection hstep with hstep
      rw [← hstep]
      unfold resume
      split
      · exact ⟨h.left, hrest⟩
      · exact ⟨h.left, hrest⟩
  | purge nowMs =>
    injection hstep with hstep
    rw [← hstep]
    exact h

theorem threshold_ne_zero_of_waiting {breakerThreshold : UInt32}
    {memory : MemoryStore} {events : List Event}
    (hrun : runFrom step (new breakerThreshold memory) events = some s)
    (hwaiting : s.inFlight ≠ []) : s.breakerThreshold ≠ 0 := by
  have hstart := runFrom_invariant (fun {_ _ _} h _ hstep => openFromStart_step h hstep)
    (show (new breakerThreshold memory).OpenFromStart breakerThreshold from ⟨rfl, fun _ => rfl⟩)
    (stepsMeet_true _ events) hrun
  rw [hstart.left]
  exact fun hzero => hwaiting (hstart.right hzero)

/-- A reachable state can recover exactly when its breaker is closed or a call that
asked Redis before still waits for the answer. -/
theorem canRecover_iff {breakerThreshold : UInt32} {memory : MemoryStore} {events : List Event}
    (hrun : runFrom step (new breakerThreshold memory) events = some s) :
    s.CanRecover <-> (s.breakerOpen = true -> s.inFlight ≠ []) := by
  constructor
  · intro hrecover hopen hnone
    exact not_canRecover_of_stuck ⟨hopen, hnone⟩ hrecover
  · intro hwaiting
    have call : Call := ⟨[], ⟨0, 0, 0, 0⟩, 0⟩
    cases hopen : s.breakerOpen with
    | false =>
      exact ⟨[], s, fun _ h => absurd h List.not_mem_nil, rfl, call,
        servedByRedis_of_closed hopen call⟩
    | true =>
      have hthreshold := threshold_ne_zero_of_waiting hrun (hwaiting hopen)
      obtain ⟨first, rest, hlist⟩ := List.exists_cons_of_ne_nil (hwaiting hopen)
      have hstep : step s (.answer 0 (.returned 0)) =
          some ({ s with inFlight := rest }.resume first (.returned 0)) := by
        rw [step, hlist]
        rfl
      refine ⟨[.answer 0 (.returned 0)], _, ?_,
        runFrom_cons_of_some [] hstep, call, servedByRedis_of_closed
          (breakerOpen_resume (s := { s with inFlight := rest }) hthreshold
            rfl first) call⟩
      intro event hevent
      rw [List.mem_singleton.mp hevent]
      rfl

def unanswered : List Event :=
  [.check ⟨"k".toList, ⟨1, 1, 60, 10⟩, 0⟩, .answer 0 .timedOut]

theorem canRecover_with_a_call_waiting :
    exists s, runFrom step (new 1 MemoryStore.empty)
        (.check ⟨"k".toList, ⟨1, 1, 60, 10⟩, 0⟩ :: unanswered) = some s ∧
      s.breakerOpen = true ∧ s.CanRecover := by
  obtain ⟨s, hrun, hopen, hwaiting⟩ : exists s, runFrom step (new 1 MemoryStore.empty)
        (.check ⟨"k".toList, ⟨1, 1, 60, 10⟩, 0⟩ :: unanswered) = some s ∧
      s.breakerOpen = true ∧ s.inFlight.length = 1 := ⟨_, rfl, rfl, rfl⟩
  refine ⟨s, hrun, hopen, (canRecover_iff hrun).mpr ?_⟩
  intro _ hnone
  rw [hnone] at hwaiting
  cases hwaiting

/-- Five calls without an answer, and Redis is never asked again. -/
theorem five_failures_for_ever :
    exists s, runFrom step (new defaultThreshold MemoryStore.empty)
        (unanswered ++ unanswered ++ unanswered ++ unanswered ++ unanswered) = some s ∧
      s.breakerOpen = true ∧ ¬ s.CanRecover :=
  ⟨_, rfl, rfl, not_canRecover_of_stuck ⟨rfl, rfl⟩⟩

end BreakerStore
end RateLimit
end PrxWaf
