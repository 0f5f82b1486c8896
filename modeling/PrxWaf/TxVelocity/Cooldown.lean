import PrxWaf.Lib.Run
import PrxWaf.TxVelocity.Recorder

/-!
# How far apart the submissions of a session are

A session that gave a signal has to cool down before it gives another.  The time of
the signal is kept with the events of the session, and is dropped with them when the
session was idle for long.
-/

namespace PrxWaf
namespace TxVelocity

open Lib DeviceFp

structure Emission where
  key : SessionKey
  atMs : Nat
  deriving DecidableEq

/-- Emissions of one session are at least so far apart.  The newest is first. -/
def Spaced (gapMs : Nat) (log : List Emission) : Prop :=
  log.Pairwise (fun later earlier =>
    later.key = earlier.key -> earlier.atMs + gapMs ≤ later.atMs)

/-- The store with what was submitted so far. -/
structure TxRun where
  store : TxStore
  clockMs : Nat
  log : List Emission

inductive TxEvent where
  | record (key : SessionKey) (role : EndpointRole) (ok : Bool) (nowMs : Nat)
  | purgeExpired (nowMs : Nat)

def TxEvent.nowMs : TxEvent -> Nat
  | record _ _ _ nowMs => nowMs
  | purgeExpired nowMs => nowMs

namespace TxRun

def start (cfg : TxVelocityConfig) (classifiers : List Classifier) : TxRun :=
  { store := .withPipeline cfg classifiers, clockMs := 0, log := [] }

def perform (s : TxRun) : TxEvent -> TxRun
  | .record key role ok nowMs =>
    let result := s.store.record key role ok nowMs
    { store := result.1
      clockMs := nowMs
      log :=
        if result.2.isSome then { key := key, atMs := nowMs } :: s.log
        else s.log }
  | .purgeExpired nowMs =>
    { s with store := (s.store.purgeExpired nowMs).1, clockMs := nowMs }

def step (s : TxRun) (event : TxEvent) : Option TxRun :=
  if s.clockMs ≤ event.nowMs then some (s.perform event) else none

theorem step_some {s s' : TxRun} {event : TxEvent} (h : s.step event = some s') :
    s.clockMs ≤ event.nowMs ∧ s' = s.perform event := by
  unfold step at h
  split at h
  · rename_i hclock
    cases h
    exact ⟨hclock, rfl⟩
  · cases h

/-- The session is there, with a mark that is not older than the submission. -/
def Remembers (s : TxRun) (e : Emission) : Prop :=
  exists actor, s.store.actors.lookup e.key = some actor ∧
    e.atMs ≤ actor.lastSignalMs ∧ actor.lastSignalMs ≠ 0 ∧
    e.atMs ≤ actor.updatedMs

/-- A submission is forgotten only when its session was idle for long. -/
structure Marked (cfg : TxVelocityConfig) (s : TxRun) : Prop where
  settings : s.store.cfg = cfg
  past : forall e, e ∈ s.log -> e.atMs ≤ s.clockMs
  marks : forall e, e ∈ s.log -> s.Remembers e ∨ e.atMs + cfg.sessionTtlMs + 1 ≤ s.clockMs

theorem marked_start (cfg : TxVelocityConfig) (classifiers : List Classifier) :
    Marked cfg (start cfg classifiers) where
  settings := rfl
  past := fun _ he => nomatch he
  marks := fun _ he => nomatch he

section Step

variable {cfg : TxVelocityConfig} {s : TxRun} {nowMs : Nat}

theorem mem_log_record {key : SessionKey} {role : EndpointRole} {ok : Bool}
    {e : Emission} (h : e ∈ (s.perform (.record key role ok nowMs)).log) :
    e ∈ s.log ∨ e = { key := key, atMs := nowMs } ∧ role ≠ .none ∧
        (s.store.record key role ok nowMs).2.isSome = true := by
  unfold perform at h
  dsimp only at h
  split at h
  · rename_i hsome
    rcases List.mem_cons.mp h with heq | hmem
    · exact Or.inr ⟨heq, TxStore.role_ne_none_of_isSome hsome, hsome⟩
    · exact Or.inl hmem
  · exact Or.inl h

theorem Remembers.record {e : Emission} (h : s.Remembers e)
    (hpast : e.atMs ≤ nowMs) (key : SessionKey) (role : EndpointRole)
    (ok : Bool) : (s.perform (.record key role ok nowMs)).Remembers e := by
  obtain ⟨actor, hactor, hmark, hset, hupdated⟩ := h
  rcases eq_or_ne key e.key with rfl | hkey
  · rcases Decidable.em (role = .none) with rfl | hrole
    · refine ⟨actor, ?_, hmark, hset, hupdated⟩
      unfold perform
      dsimp only
      rw [TxStore.record_none]
      exact hactor
    · have hlookup := @TxStore.lookup_record_self s.store e.key role hrole ok nowMs
      rw [TxStore.actorOf_of_some hactor] at hlookup
      refine ⟨_, hlookup, ?_, ?_, ?_⟩
      · dsimp only
        split
        · exact hpast.trans (Nat.le_max_left nowMs 1)
        · exact hmark
      · dsimp only
        split
        · lia
        · exact hset
      · exact hpast
  · refine ⟨actor, ?_, hmark, hset, hupdated⟩
    unfold perform
    dsimp only
    rw [TxStore.lookup_record_of_ne hkey.symm]
    exact hactor

theorem remembers_new {key : SessionKey} {role : EndpointRole} {ok : Bool}
    (hrole : role ≠ .none) (hsome : (s.store.record key role ok nowMs).2.isSome = true) :
    (s.perform (.record key role ok nowMs)).Remembers { key := key, atMs := nowMs } := by
  refine ⟨_, TxStore.lookup_record_self hrole ok nowMs, ?_, ?_, ?_⟩
  · dsimp only
    rw [if_pos hsome]
    exact Nat.le_max_left nowMs 1
  · dsimp only
    rw [if_pos hsome]
    lia
  · exact le_refl nowMs

theorem Marked.record (h : Marked cfg s) (hclock : s.clockMs ≤ nowMs)
    (key : SessionKey) (role : EndpointRole) (ok : Bool) :
    Marked cfg (s.perform (.record key role ok nowMs)) where
  settings := (TxStore.record_settings role ok nowMs).1.trans h.settings
  past := by
    intro e he
    rcases mem_log_record he with hmem | ⟨rfl, -, -⟩
    · exact (h.past e hmem).trans hclock
    · exact le_refl nowMs
  marks := by
    intro e he
    rcases mem_log_record he with hmem | ⟨rfl, hrole, hsome⟩
    · rcases h.marks e hmem with hthere | hgone
      · exact Or.inl (hthere.record ((h.past e hmem).trans hclock) key role ok)
      · exact Or.inr (hgone.trans hclock)
    · exact Or.inl (remembers_new hrole hsome)

theorem Marked.purgeExpired (h : Marked cfg s) (hclock : s.clockMs ≤ nowMs) :
    Marked cfg (s.perform (.purgeExpired nowMs)) where
  settings := h.settings
  past := fun e he => (h.past e he).trans hclock
  marks := by
    intro e he
    rcases h.marks e he with ⟨actor, hactor, hmark, hset, hupdated⟩ | hgone
    · rcases Decidable.em (actor.updatedMs < nowMs - cfg.sessionTtlMs) with hidle | hlive
      · apply Or.inr
        change e.atMs + cfg.sessionTtlMs + 1 ≤ nowMs
        lia
      · apply Or.inl
        refine ⟨actor, ?_, hmark, hset, hupdated⟩
        unfold perform TxStore.purgeExpired
        dsimp only
        rw [Table.lookup_retain, hactor, h.settings]
        exact Option.filter_some_pos (by simpa using hlive)
    · exact Or.inr (hgone.trans hclock)

theorem Marked.step {event : TxEvent} {s' : TxRun} (h : Marked cfg s)
    (hstep : s.step event = some s') : Marked cfg s' := by
  rcases step_some hstep with ⟨hclock, rfl⟩
  cases event with
  | record key role ok nowMs => exact h.record hclock key role ok
  | purgeExpired nowMs => exact h.purgeExpired hclock

theorem Marked.spaced (h : Marked cfg s) (hcool : cfg.enabled = false ∨
      cfg.signalCooldownMs ≤ cfg.sessionTtlMs + 1)
    (hspaced : Spaced cfg.signalCooldownMs s.log) {event : TxEvent}
    (hclock : s.clockMs ≤ event.nowMs) :
    Spaced cfg.signalCooldownMs (s.perform event).log := by
  cases event with
  | purgeExpired nowMs => exact hspaced
  | record key role ok nowMs =>
    unfold perform
    dsimp only
    split
    · rename_i hsome
      apply List.Pairwise.cons
      · rintro e he rfl
        have hrole := TxStore.role_ne_none_of_isSome hsome
        obtain ⟨henabled, hcooled, -⟩ := (TxStore.record_isSome_iff hrole ok nowMs).mp hsome
        rw [h.settings] at henabled hcooled
        rcases hcool with hoff | hcool
        · rw [hoff] at henabled
          cases henabled
        · have hpast := h.past e he
          change e.atMs + cfg.signalCooldownMs ≤ nowMs
          change s.clockMs ≤ nowMs at hclock
          rcases h.marks e he with ⟨actor, hactor, hmark, hset, -⟩ | hgone
          · rw [TxStore.actorOf_of_some hactor] at hcooled
            lia
          · lia
      · exact hspaced
    · exact hspaced

end Step

def always : Classifier where
  name := "always".toList
  evaluate := fun _ _ _ => some .missingReferer

def visitor : SessionKey :=
  { host := "h".toList, ident := .cookie "c".toList }

theorem perform_of_absent {cfg : TxVelocityConfig} {s : TxRun}
    (hcfg : s.store.cfg = cfg) (henabled : cfg.enabled = true)
    (hclassifiers : s.store.classifiers = [always])
    (habsent : s.store.actors.lookup visitor = none) (nowMs : Nat) :
    (s.perform (.record visitor .login true nowMs)).log =
        { key := visitor, atMs := nowMs } :: s.log ∧
      exists actor, actor.updatedMs = nowMs ∧
        (s.perform (.record visitor .login true nowMs)).store.actors.lookup
          visitor = some actor := by
  have hnew : s.store.actorOf visitor = ActorTx.new := by
    unfold TxStore.actorOf
    rw [habsent]
    rfl
  have hsome : (s.store.record visitor .login true nowMs).2.isSome = true := by
    rw [TxStore.record_isSome_iff (by decide), hnew, hcfg, hclassifiers]
    refine ⟨henabled, ?_, always, List.mem_cons_self, rfl⟩
    intro hcooling
    exact hcooling.2 rfl
  constructor
  · exact if_pos hsome
  · exact ⟨_, rfl, TxStore.lookup_record_self (by decide) true nowMs⟩

theorem lookup_purged {s : TxRun} {cfg : TxVelocityConfig}
    (hcfg : s.store.cfg = cfg) {key : SessionKey} {actor : ActorTx}
    (h : s.store.actors.lookup key = some actor) :
    (s.perform (.purgeExpired (actor.updatedMs + cfg.sessionTtlMs + 1))).store.actors.lookup key =
      none := by
  unfold perform TxStore.purgeExpired
  dsimp only
  rw [Table.lookup_retain, h, hcfg, Option.filter_some, if_neg]
  simp only [Bool.not_eq_true', decide_eq_false_iff_not]
  lia

def reopened (cfg : TxVelocityConfig) : List TxEvent :=
  [.record visitor .login true 0, .purgeExpired (cfg.sessionTtlMs + 1),
    .record visitor .login true (cfg.sessionTtlMs + 1)]

theorem run_reopened {cfg : TxVelocityConfig} (henabled : cfg.enabled = true) :
    exists s, runFrom step (start cfg [always]) (reopened cfg) = some s ∧ s.log =
        [{ key := visitor, atMs := cfg.sessionTtlMs + 1 }, { key := visitor, atMs := 0 }] := by
  obtain ⟨hfirst, actor, hat, hactor⟩ := @perform_of_absent cfg
    (start cfg [always]) rfl henabled rfl (Table.lookup_empty visitor) 0
  have hcfg := (marked_start cfg [always]).record (le_refl 0) visitor .login true
  have hgone := lookup_purged hcfg.settings hactor
  rw [hat, Nat.zero_add] at hgone
  have hlater := hcfg.purgeExpired (Nat.zero_le (cfg.sessionTtlMs + 1))
  have hsecond := perform_of_absent hlater.settings henabled
    (@TxStore.record_settings (.withPipeline cfg [always]) visitor .login true
      0).2 hgone (cfg.sessionTtlMs + 1)
  refine ⟨_, ?_, hsecond.1.trans (congrArg _ hfirst)⟩
  unfold reopened
  rw [runFrom_cons_of_some _ (if_pos (Nat.zero_le _)),
    runFrom_cons_of_some _ (if_pos (Nat.zero_le _)), runFrom_cons_of_some _ (if_pos (le_refl _))]
  rfl

/-- The submissions of a session are spaced in every run exactly when a session is
not dropped before it has cooled down, or nothing is submitted at all. -/
theorem submissions_spaced_iff (cfg : TxVelocityConfig) :
    (forall classifiers events s, runFrom step (start cfg classifiers) events = some s ->
        Spaced cfg.signalCooldownMs s.log) <->
      cfg.enabled = false ∨ cfg.signalCooldownMs ≤ cfg.sessionTtlMs + 1 := by
  constructor
  · intro hall
    cases henabled : cfg.enabled with
    | false => exact Or.inl rfl
    | true =>
      apply Or.inr
      obtain ⟨s, hrun, hlog⟩ := run_reopened henabled
      have hspaced := hall [always] (reopened cfg) s hrun
      rw [hlog] at hspaced
      have hgap := List.rel_of_pairwise_cons hspaced List.mem_cons_self rfl
      rw [Nat.zero_add] at hgap
      exact hgap
  · intro hcool classifiers events s hrun
    have hboth : Marked cfg s ∧ Spaced cfg.signalCooldownMs s.log := runFrom_invariant
        (I := fun s => Marked cfg s ∧ Spaced cfg.signalCooldownMs s.log) (fun hs _ hstep => by
          refine ⟨hs.1.step hstep, ?_⟩
          rcases step_some hstep with ⟨hclock, rfl⟩
          exact hs.1.spaced hcool hs.2 hclock)
        ⟨marked_start cfg classifiers, List.Pairwise.nil⟩
        (stepsMeet_true _ events) hrun
    exact hboth.2

end TxRun

def hasty : TxVelocityFileConfig :=
  { TxVelocityFileConfig.default with
    enabled := true
    sessionTtlSecs := 1
    classifiers :=
      { sequence := some { minHumanMs := 1500 }
        withdrawalVelocity := none
        limitChangeVelocity := none } }

/-- With a cooldown of 5 seconds, two logins with a fast second step are submitted 2
seconds apart. -/
theorem submissions_too_close :
    hasty.validate = .ok () ∧ hasty.signalCooldownMs = 5000 ∧
      (runFrom TxRun.step (.start hasty.intoRuntime defaultClassifiers)
          [.record TxRun.visitor .login true 1000, .record TxRun.visitor .otp true 1100,
            .purgeExpired 2500, .record TxRun.visitor .login true 3000,
            .record TxRun.visitor .otp true 3100]).map TxRun.log =
        some [{ key := TxRun.visitor, atMs := 3100 }, { key := TxRun.visitor, atMs := 1100 }] := by
  refine ⟨rfl, rfl, ?_⟩
  decide

end TxVelocity
end PrxWaf
