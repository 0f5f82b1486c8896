import PrxWaf.Lib.Ring
import PrxWaf.Lib.Table
import PrxWaf.TxVelocity.Config

/-!
# The recorder of transactions

The recorder keeps the last events of a session in a ring.  Every recorded event
is classified unless a signal was emitted for the session a short time ago.
-/

namespace PrxWaf
namespace TxVelocity

open Lib DeviceFp

structure Event where
  role : EndpointRole
  tsMs : Nat
  ok : Bool
  deriving DecidableEq

def window : Nat := 16

structure ActorTx where
  events : Ring window Event
  updatedMs : Nat
  lastSignalMs : Nat

namespace ActorTx

def new : ActorTx :=
  { events := Ring.empty, updatedMs := 0, lastSignalMs := 0 }

def record (actor : ActorTx) (event : Event) : ActorTx :=
  { actor with
    events := actor.events.record event
    updatedMs := event.tsMs }

end ActorTx

structure ActorTxSnapshot where
  events : List Event
  updatedMs : Nat
  lastSignalMs : Nat

structure Classifier where
  name : Text
  evaluate : ActorTxSnapshot -> Nat -> TxVelocityConfig -> Option Signal

/-- The transitions that are timed, each with the role it ends at. -/
def transitions : List (EndpointRole × EndpointRole) :=
  [(.login, .otp), (.otp, .deposit)]

def sequenceTiming : Classifier where
  name := "tx_sequence_timing".toList
  evaluate := fun snap _ cfg => do
    let scfg ← cfg.classifiers.sequence
    let last ← snap.events.getLast?
    let found ← transitions.find? (fun t => t.2 = last.role)
    let prior ← snap.events.reverse.tail.find? (fun e => e.role = found.1)
    let intervalMs := last.tsMs - prior.tsMs
    if intervalMs < scfg.minHumanMs then
      some (.txSequenceTooFast found.1 found.2 intervalMs)
    else none

def inWindow (role : EndpointRole) (windowMs nowMs : Nat) (events : List Event) : Nat :=
  events.countP (fun e => e.role = role ∧ nowMs - windowMs ≤ e.tsMs)

def evaluateVelocity (snap : ActorTxSnapshot) (nowMs : Nat)
    (cfg : VelocityCfg) (role : EndpointRole) : Option (Nat × Nat) :=
  if cfg.windowMs = 0 then none
  else
    let count := min (inWindow role cfg.windowMs nowMs snap.events) u32Max
    if cfg.maxCount < count then
      some (count, min ((cfg.windowMs + 999) / 1000) u32Max)
    else none

def withdrawalVelocity : Classifier where
  name := "withdrawal_velocity".toList
  evaluate := fun snap nowMs cfg =>
    cfg.classifiers.withdrawalVelocity.bind (fun vcfg =>
      (evaluateVelocity snap nowMs vcfg .withdrawal).map (fun found =>
        .withdrawalVelocity found.1 found.2))

def limitChangeBurst : Classifier where
  name := "limit_change_burst".toList
  evaluate := fun snap nowMs cfg =>
    cfg.classifiers.limitChangeVelocity.bind (fun vcfg =>
      (evaluateVelocity snap nowMs vcfg .limitChange).map (fun found =>
        .limitChangeBurst found.1 found.2))

def defaultClassifiers : List Classifier :=
  [sequenceTiming, withdrawalVelocity, limitChangeBurst]

/-! ## The store -/

inductive SessionIdent where
  | cookie (value : Text)
  | fingerprint (key : FpKey)
  deriving DecidableEq

structure SessionKey where
  host : Text
  ident : SessionIdent
  deriving DecidableEq

structure Submission where
  key : FpKey
  signals : List Signal
  deriving DecidableEq

/-- A session that is known by a cookie has no fingerprint to submit. -/
def fpKeyForSubmission (key : SessionKey) : FpKey :=
  match key.ident with
  | .fingerprint fp => fp
  | .cookie _ => { ja3 := none, ja4 := none, h2Akamai := none }

structure TxStore where
  actors : Table SessionKey ActorTx
  cfg : TxVelocityConfig
  classifiers : List Classifier

namespace TxStore

def withPipeline (cfg : TxVelocityConfig) (classifiers : List Classifier) : TxStore :=
  { actors := Table.empty, cfg := cfg, classifiers := classifiers }

def snapshot (store : TxStore) (key : SessionKey) : Option ActorTxSnapshot :=
  (store.actors.lookup key).map (fun actor =>
    { events := actor.events.items
      updatedMs := actor.updatedMs
      lastSignalMs := actor.lastSignalMs })

def markSignal (store : TxStore) (key : SessionKey) (nowMs : Nat) : TxStore :=
  match store.actors.lookup key with
  | some actor =>
    { store with
      actors := store.actors.insert key
        { actor with lastSignalMs := nowMs } }
  | none => store

/-- The signals of the classifiers, unless they are off or the session has to cool
down. -/
def classify (store : TxStore) (key : SessionKey) (lastSignalMs nowMs : Nat) : List Signal :=
  if store.classifiers.isEmpty then []
  else if store.cfg.enabled = false then []
  else if nowMs - lastSignalMs < store.cfg.signalCooldownMs ∧ lastSignalMs ≠ 0 then []
  else
    match store.snapshot key with
    | none => []
    | some snap =>
      store.classifiers.filterMap (fun c => c.evaluate snap nowMs store.cfg)

def record (store : TxStore) (key : SessionKey) (role : EndpointRole)
    (ok : Bool) (nowMs : Nat) : TxStore × Option Submission :=
  if role = .none then (store, none)
  else
    let event := { role := role, tsMs := nowMs, ok := ok }
    let actor := ((store.actors.lookup key).getD ActorTx.new).record event
    let store := { store with actors := store.actors.insert key actor }
    let signals := store.classify key actor.lastSignalMs nowMs
    if signals.isEmpty then (store, none)
    else
      (store.markSignal key (max nowMs 1),
        some { key := fpKeyForSubmission key, signals := signals })

def purgeExpired (store : TxStore) (nowMs : Nat) : TxStore × Nat :=
  let cutoff := nowMs - store.cfg.sessionTtlMs
  let kept := store.actors.retain (fun actor => !(actor.updatedMs < cutoff))
  ({ store with actors := kept }, store.actors.size - kept.size)

section Record

variable {store : TxStore} {key : SessionKey}

def actorOf (store : TxStore) (key : SessionKey) : ActorTx :=
  (store.actors.lookup key).getD ActorTx.new

def signalsOf (store : TxStore) (key : SessionKey) (event : Event) : List Signal :=
  let actor := (store.actorOf key).record event
  classify { store with actors := store.actors.insert key actor } key actor.lastSignalMs event.tsMs

theorem record_none (ok : Bool) (nowMs : Nat) :
    store.record key .none ok nowMs = (store, none) :=
  if_pos rfl

variable {role : EndpointRole}

theorem role_ne_none_of_isSome {ok : Bool} {nowMs : Nat}
    (h : (store.record key role ok nowMs).2.isSome = true) :
    role ≠ .none := by
  rintro rfl
  rw [record_none] at h
  cases h

theorem actorOf_of_some {actor : ActorTx} (h : store.actors.lookup key = some actor) :
    store.actorOf key = actor := by
  unfold actorOf
  rw [h]
  rfl

theorem markSignal_insert (actor : ActorTx) (nowMs : Nat) :
    markSignal { store with actors := store.actors.insert key actor } key nowMs = { store with
        actors := (store.actors.insert key actor).insert key
          { actor with lastSignalMs := nowMs } } := by
  unfold markSignal
  dsimp only
  rw [Table.lookup_insert_self]

theorem record_cases (hrole : role ≠ .none) (ok : Bool) (nowMs : Nat) :
    let event := { role := role, tsMs := nowMs, ok := ok }
    let actor := (store.actorOf key).record event
    (store.signalsOf key event = [] ∧ store.record key role ok nowMs =
        ({ store with actors := store.actors.insert key actor }, none)) ∨
    (store.signalsOf key event ≠ [] ∧ store.record key role ok nowMs = ({ store with
            actors := (store.actors.insert key actor).insert key
              { actor with lastSignalMs := max nowMs 1 } }, some {
            key := fpKeyForSubmission key
            signals := store.signalsOf key event })) := by
  intro event actor
  have hrecord : store.record key role ok nowMs =
      if (store.signalsOf key event).isEmpty then
        ({ store with actors := store.actors.insert key actor }, none)
      else
        (markSignal { store with actors := store.actors.insert key actor } key (max nowMs 1), some {
            key := fpKeyForSubmission key
            signals := store.signalsOf key event }) :=
    if_neg hrole
  rw [hrecord, markSignal_insert]
  rcases Decidable.em (store.signalsOf key event = []) with hsignals | hsignals
  · exact Or.inl ⟨hsignals, if_pos (List.isEmpty_iff.mpr hsignals)⟩
  · refine Or.inr ⟨hsignals, if_neg ?_⟩
    rw [List.isEmpty_iff]
    exact hsignals

theorem lookup_record_self (hrole : role ≠ .none) (ok : Bool) (nowMs : Nat) :
    (store.record key role ok nowMs).1.actors.lookup key = some { (store.actorOf key).record
          { role := role, tsMs := nowMs, ok := ok } with
        lastSignalMs :=
          if (store.record key role ok nowMs).2.isSome then max nowMs 1
          else (store.actorOf key).lastSignalMs } := by
  rcases record_cases hrole ok nowMs with ⟨-, h⟩ | ⟨-, h⟩
  · rw [h, Table.lookup_insert_self]
    rfl
  · rw [h, Table.lookup_insert_self]
    rfl

theorem actorOf_record (hrole : role ≠ .none) (ok : Bool) (nowMs : Nat) :
    (store.record key role ok nowMs).1.actorOf key =
      { (store.actorOf key).record { role := role, tsMs := nowMs, ok := ok } with
        lastSignalMs :=
          if (store.record key role ok nowMs).2.isSome then max nowMs 1
          else (store.actorOf key).lastSignalMs } :=
  actorOf_of_some (lookup_record_self hrole ok nowMs)

theorem lookup_record_of_ne {other : SessionKey} (hother : other ≠ key)
    (role : EndpointRole) (ok : Bool) (nowMs : Nat) :
    (store.record key role ok nowMs).1.actors.lookup other = store.actors.lookup other := by
  rcases Decidable.em (role = .none) with rfl | hrole
  · rw [record_none]
  · rcases record_cases hrole ok nowMs with ⟨-, h⟩ | ⟨-, h⟩
    · rw [h, Table.lookup_insert_of_ne hother]
    · rw [h, Table.lookup_insert_of_ne hother, Table.lookup_insert_of_ne hother]

theorem signalsOf_eq (event : Event) :
    store.signalsOf key event =
      if store.classifiers.isEmpty then []
      else if store.cfg.enabled = false then []
      else if event.tsMs - (store.actorOf key).lastSignalMs <
          store.cfg.signalCooldownMs ∧ (store.actorOf key).lastSignalMs ≠ 0
        then []
      else
        store.classifiers.filterMap (fun c => c.evaluate
          { events := (store.actorOf key).events.record event |>.items
            updatedMs := event.tsMs
            lastSignalMs := (store.actorOf key).lastSignalMs } event.tsMs store.cfg) := by
  unfold signalsOf classify snapshot
  dsimp only
  rw [Table.lookup_insert_self]
  rfl

theorem record_isSome_iff (hrole : role ≠ .none)
    (ok : Bool) (nowMs : Nat) :
    (store.record key role ok nowMs).2.isSome = true <-> store.cfg.enabled = true ∧
        ¬ (nowMs - (store.actorOf key).lastSignalMs < store.cfg.signalCooldownMs ∧
            (store.actorOf key).lastSignalMs ≠ 0) ∧
        exists c, c ∈ store.classifiers ∧ (c.evaluate
            { events := ((store.actorOf key).events.record
                { role := role, tsMs := nowMs, ok := ok }).items
              updatedMs := nowMs
              lastSignalMs := (store.actorOf key).lastSignalMs }
            nowMs store.cfg).isSome = true := by
  have hsignals : (store.record key role ok nowMs).2.isSome = true <->
      store.signalsOf key { role := role, tsMs := nowMs, ok := ok } ≠ [] := by
    rcases record_cases hrole ok nowMs with ⟨hnil, h⟩ | ⟨hne, h⟩
    · rw [h, hnil]
      simp
    · rw [h]
      exact ⟨fun _ => hne, fun _ => rfl⟩
  rw [hsignals, signalsOf_eq]
  cases hclassifiers : store.classifiers with
  | nil => simp
  | cons first rest =>
    cases store.cfg.enabled with
    | false => simp
    | true =>
      rw [if_neg (by simp), if_neg (by simp), ← hclassifiers]
      split
      · rename_i hcooling
        simp [hcooling]
      · rename_i hcool
        rw [Ne, List.filterMap_eq_nil_iff]
        simp [hcool, Option.isSome_iff_ne_none]

theorem record_settings (role : EndpointRole) (ok : Bool) (nowMs : Nat) :
    (store.record key role ok nowMs).1.cfg = store.cfg ∧
      (store.record key role ok nowMs).1.classifiers = store.classifiers := by
  rcases Decidable.em (role = .none) with rfl | hrole
  · rw [record_none]
    exact ⟨rfl, rfl⟩
  · rcases record_cases hrole ok nowMs with ⟨-, h⟩ | ⟨-, h⟩
    · rw [h]
      exact ⟨rfl, rfl⟩
    · rw [h]
      exact ⟨rfl, rfl⟩

end Record

/-! ## Calls for one session

Histories are listed from the newest call.
-/

structure Call where
  role : EndpointRole
  ok : Bool
  nowMs : Nat

def after (store : TxStore) (key : SessionKey) : List Call -> TxStore
  | [] => store
  | call :: older =>
    ((store.after key older).record key call.role call.ok call.nowMs).1

def submission (store : TxStore) (key : SessionKey) (call : Call)
    (past : List Call) : Option Submission :=
  ((store.after key past).record key call.role call.ok call.nowMs).2

def eventsOf (history : List Call) : List Event :=
  (history.filter (fun call => call.role ≠ .none)).map (fun call =>
    { role := call.role, tsMs := call.nowMs, ok := call.ok })

/-- The time of the last call that submitted something. -/
def lastSignal (store : TxStore) (key : SessionKey) : List Call -> Option Nat
  | [] => none
  | call :: older =>
    if (store.submission key call older).isSome then some call.nowMs
    else store.lastSignal key older

/-- No call submitted anything less than the cooldown ago. -/
def Quiet (store : TxStore) (key : SessionKey) (nowMs : Nat) : List Call -> Prop
  | [] => True
  | call :: older =>
    ((store.submission key call older).isSome = true ->
      call.nowMs + store.cfg.signalCooldownMs ≤ nowMs) ∧
    store.Quiet key nowMs older

instance Quiet.decidable (store : TxStore) (key : SessionKey) (nowMs : Nat) :
    (past : List Call) -> Decidable (store.Quiet key nowMs past)
  | [] => isTrue True.intro
  | call :: older =>
    have := Quiet.decidable store key nowMs older
    inferInstanceAs (Decidable
      (((store.submission key call older).isSome = true ->
        call.nowMs + store.cfg.signalCooldownMs ≤ nowMs) ∧
        store.Quiet key nowMs older))

section Runs

variable {store : TxStore} {key : SessionKey}

theorem after_settings (past : List Call) :
    (store.after key past).cfg = store.cfg ∧
      (store.after key past).classifiers = store.classifiers := by
  induction past with
  | nil => exact ⟨rfl, rfl⟩
  | cons call older ih =>
    have hcall : (store.after key (call :: older)).cfg = (store.after key older).cfg ∧
        (store.after key (call :: older)).classifiers = (store.after key older).classifiers :=
      record_settings call.role call.ok call.nowMs
    exact ⟨hcall.1.trans ih.1, hcall.2.trans ih.2⟩

theorem eventsOf_cons {call : Call} {older : List Call} (hrole : call.role ≠ .none) :
    eventsOf (call :: older) = { role := call.role, tsMs := call.nowMs, ok := call.ok } ::
        eventsOf older := by
  unfold eventsOf
  rw [List.filter_cons_of_pos (by simp [hrole])]
  rfl

theorem actorOf_after (hnew : store.actors.lookup key = none) (past : List Call) :
    ((store.after key past).actorOf key).events.Holds (eventsOf past) ∧
      ((store.after key past).actorOf key).lastSignalMs =
        ((store.lastSignal key past).map (fun ms => max ms 1)).getD 0 := by
  induction past with
  | nil =>
    unfold after actorOf
    rw [hnew]
    exact ⟨Ring.holds_empty (by decide), rfl⟩
  | cons call older ih =>
    obtain ⟨hevents, hlast⟩ := ih
    unfold after lastSignal submission
    rcases Decidable.em (call.role = .none) with hrole | hrole
    · have heventsOf : eventsOf (call :: older) = eventsOf older := by
        unfold eventsOf
        rw [List.filter_cons_of_neg (by simp [hrole])]
      rw [hrole, record_none, heventsOf]
      exact ⟨hevents, hlast⟩
    · rw [eventsOf_cons hrole, actorOf_record hrole]
      refine ⟨Ring.record_holds hevents _, ?_⟩
      dsimp only
      split
      · rfl
      · exact hlast

theorem lastSignal_le (past : List Call) {nowMs ms : Nat} (hquiet : store.Quiet key nowMs past)
    (h : store.lastSignal key past = some ms) :
    ms + store.cfg.signalCooldownMs ≤ nowMs := by
  induction past with
  | nil => cases h
  | cons call older ih =>
    unfold lastSignal at h
    split at h
    · rename_i hsome
      cases h
      exact hquiet.1 hsome
    · exact ih hquiet.2 h

end Runs

end TxStore

end TxVelocity
end PrxWaf
