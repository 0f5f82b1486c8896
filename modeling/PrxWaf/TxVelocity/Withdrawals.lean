import PrxWaf.TxVelocity.Recorder

/-!
# When too many withdrawals are noticed

The classifier sees the last events of a session, whatever their roles.
-/

namespace PrxWaf
namespace TxVelocity

open Lib DeviceFp

/-! ## The classifier -/

theorem inWindow_reverse (role : EndpointRole) (windowMs nowMs : Nat) (events : List Event) :
    inWindow role windowMs nowMs events.reverse = inWindow role windowMs nowMs events :=
  List.countP_reverse

variable {snap : ActorTxSnapshot} {nowMs : Nat} {cfg : TxVelocityConfig}

theorem evaluateVelocity_isSome
    {cfg : VelocityCfg} {role : EndpointRole} (hevents : snap.events.length ≤ window) :
    (evaluateVelocity snap nowMs cfg role).isSome = true <-> cfg.windowMs ≠ 0 ∧
        cfg.maxCount < inWindow role cfg.windowMs nowMs snap.events := by
  have hcount : inWindow role cfg.windowMs nowMs snap.events ≤ u32Max :=
    (List.countP_le_length.trans hevents).trans (by decide)
  unfold evaluateVelocity
  split
  · rename_i hwindow
    simp [hwindow]
  · rename_i hwindow
    rw [min_eq_left hcount]
    dsimp only
    split
    · rename_i hmany
      exact ⟨fun _ => ⟨hwindow, hmany⟩, fun _ => rfl⟩
    · rename_i hfew
      exact ⟨fun h => (by cases h), fun h => absurd h.2 hfew⟩

theorem sequenceTiming_ne (count windowSec : Nat) :
    sequenceTiming.evaluate snap nowMs cfg ≠ some (.withdrawalVelocity count windowSec) := by
  intro h
  obtain ⟨scfg, -, h⟩ := Option.bind_eq_some_iff.mp h
  obtain ⟨last, -, h⟩ := Option.bind_eq_some_iff.mp h
  obtain ⟨found, -, h⟩ := Option.bind_eq_some_iff.mp h
  obtain ⟨prior, -, h⟩ := Option.bind_eq_some_iff.mp h
  dsimp only at h
  split at h
  · cases h
  · cases h

theorem limitChangeBurst_ne (count windowSec : Nat) :
    limitChangeBurst.evaluate snap nowMs cfg ≠ some (.withdrawalVelocity count windowSec) := by
  intro h
  obtain ⟨vcfg, -, h⟩ := Option.bind_eq_some_iff.mp h
  obtain ⟨found, -, h⟩ := Option.map_eq_some_iff.mp h
  cases h

theorem withdrawal_mem_signals {vcfg : VelocityCfg}
    (hcfg : cfg.classifiers.withdrawalVelocity = some vcfg) :
    (exists count windowSec, Signal.withdrawalVelocity count windowSec ∈
        defaultClassifiers.filterMap (fun c => c.evaluate snap nowMs cfg)) <->
      (evaluateVelocity snap nowMs vcfg .withdrawal).isSome = true := by
  have heval : withdrawalVelocity.evaluate snap nowMs cfg =
      (evaluateVelocity snap nowMs vcfg .withdrawal).map
        (fun found => .withdrawalVelocity found.1 found.2) := by
    unfold withdrawalVelocity
    dsimp only
    rw [hcfg, Option.bind_some]
  constructor
  · rintro ⟨count, windowSec, hmem⟩
    obtain ⟨c, hc, hsignal⟩ := List.mem_filterMap.mp hmem
    simp only [defaultClassifiers, List.mem_cons, List.not_mem_nil, or_false] at hc
    rcases hc with rfl | rfl | rfl
    · exact absurd hsignal (sequenceTiming_ne count windowSec)
    · rw [heval] at hsignal
      obtain ⟨found, hfound, -⟩ := Option.map_eq_some_iff.mp hsignal
      rw [hfound]
      rfl
    · exact absurd hsignal (limitChangeBurst_ne count windowSec)
  · intro hsome
    obtain ⟨⟨count, windowSec⟩, hfound⟩ := Option.isSome_iff_exists.mp hsome
    refine ⟨count, windowSec, List.mem_filterMap.mpr
      ⟨withdrawalVelocity, by simp [defaultClassifiers], ?_⟩⟩
    rw [heval, hfound]
    rfl

namespace TxStore

variable {store : TxStore} {key : SessionKey}

variable {past : List Call}

theorem cooldown_iff {nowMs : Nat} (hquiet : store.Quiet key nowMs past) :
    let mark := ((store.lastSignal key past).map (fun ms => max ms 1)).getD 0
    nowMs - mark < store.cfg.signalCooldownMs ∧ mark ≠ 0 <->
      store.lastSignal key past = some 0 ∧ nowMs = store.cfg.signalCooldownMs ∧ 0 < nowMs := by
  cases hlast : store.lastSignal key past with
  | none => simp
  | some ms =>
    have hle := lastSignal_le past hquiet hlast
    simp only [Option.map_some, Option.getD_some, Option.some.injEq]
    lia

def Noticed (submission : Option Submission) : Prop :=
  exists submitted count windowSec, submission = some submitted ∧
    Signal.withdrawalVelocity count windowSec ∈ submitted.signals

theorem noticed_none : ¬ Noticed none := by
  rintro ⟨submitted, count, windowSec, h, -⟩
  cases h

def Call.event (call : Call) : Event :=
  { role := call.role, tsMs := call.nowMs, ok := call.ok }

theorem noticed_iff_mem {call : Call} (hrole : call.role ≠ .none) :
    Noticed (store.submission key call past) <->
      exists count windowSec, Signal.withdrawalVelocity count windowSec ∈
        (store.after key past).signalsOf key call.event := by
  unfold submission
  rcases record_cases hrole call.ok call.nowMs with ⟨hsignals, hrecord⟩ | ⟨-, hrecord⟩
  · rw [hrecord]
    refine ⟨fun h => absurd h noticed_none, ?_⟩
    rintro ⟨count, windowSec, hmem⟩
    rw [show (store.after key past).signalsOf key call.event = [] from hsignals] at hmem
    cases hmem
  · rw [hrecord]
    constructor
    · rintro ⟨submitted, count, windowSec, h, hmem⟩
      cases h
      exact ⟨count, windowSec, hmem⟩
    · rintro ⟨count, windowSec, hmem⟩
      exact ⟨_, count, windowSec, rfl, hmem⟩

theorem items_after (hnew : store.actors.lookup key = none) {past : List Call}
    {call : Call} (hrole : call.role ≠ .none) :
    (((store.after key past).actorOf key).events.record call.event).items =
      ((eventsOf (call :: past)).take window).reverse := by
  have hevents := Ring.record_holds (actorOf_after hnew past).1 call.event
  rw [Ring.items_of_holds hevents, eventsOf_cons hrole]
  rfl

/-- After the last signal has cooled down, withdrawals are noticed just if there
are too many of them among the last events. -/
theorem noticed_iff {vcfg : VelocityCfg} {call : Call}
    (hclassifiers : store.classifiers = defaultClassifiers)
    (hcfg : store.cfg.classifiers.withdrawalVelocity = some vcfg)
    (hnew : store.actors.lookup key = none) (hquiet : store.Quiet key call.nowMs past) :
    Noticed (store.submission key call past) <->
      store.cfg.enabled = true ∧ call.role ≠ .none ∧ vcfg.windowMs ≠ 0 ∧
        ¬ (store.lastSignal key past = some 0 ∧
          call.nowMs = store.cfg.signalCooldownMs ∧ 0 < call.nowMs) ∧
        vcfg.maxCount < inWindow .withdrawal vcfg.windowMs call.nowMs
          ((eventsOf (call :: past)).take window) := by
  rcases Decidable.em (call.role = .none) with hrole | hrole
  · unfold submission
    rw [hrole, record_none]
    exact ⟨fun h => absurd h noticed_none, fun h => absurd rfl h.2.1⟩
  have hlength : ((eventsOf (call :: past)).take window).reverse.length ≤
      window := by
    rw [List.length_reverse]
    exact List.length_take_le _ _
  rw [noticed_iff_mem hrole, signalsOf_eq, (after_settings past).1,
    (after_settings past).2, hclassifiers, (actorOf_after hnew past).2,
    items_after hnew hrole, if_neg (by simp [defaultClassifiers]),
    show call.event.tsMs = call.nowMs from rfl]
  cases henabled : store.cfg.enabled with
  | false => simp
  | true =>
    rw [if_neg (by decide)]
    rcases Decidable.em (store.lastSignal key past = some 0 ∧
      call.nowMs = store.cfg.signalCooldownMs ∧ 0 < call.nowMs) with hzero | hzero
    · rw [if_pos ((cooldown_iff hquiet).mpr hzero)]
      refine ⟨?_, fun h => absurd hzero h.2.2.2.1⟩
      rintro ⟨count, windowSec, hmem⟩
      cases hmem
    · rw [if_neg (fun h => hzero ((cooldown_iff hquiet).mp h)),
        withdrawal_mem_signals hcfg, evaluateVelocity_isSome hlength]
      dsimp only
      rw [inWindow_reverse]
      exact ⟨fun h => ⟨rfl, hrole, h.1, hzero, h.2⟩, fun h => ⟨h.2.2.1, h.2.2.2.2⟩⟩

/-- After the last signal has cooled down, a call with too many withdrawals in the
window is noticed just if the recorder is on, the call has a role, the window is
not empty, the mark shows the last signal, and the last events suffice. -/
theorem withdrawals_noticed_iff {vcfg : VelocityCfg} {past : List Call}
    {call : Call} (hclassifiers : store.classifiers = defaultClassifiers)
    (hcfg : store.cfg.classifiers.withdrawalVelocity = some vcfg)
    (hnew : store.actors.lookup key = none) (hquiet : store.Quiet key call.nowMs past) :
    (vcfg.maxCount < inWindow .withdrawal vcfg.windowMs call.nowMs (eventsOf (call :: past)) ->
      Noticed (store.submission key call past)) <->
    (vcfg.maxCount < inWindow .withdrawal vcfg.windowMs call.nowMs (eventsOf (call :: past)) ->
      store.cfg.enabled = true ∧ call.role ≠ .none ∧ vcfg.windowMs ≠ 0 ∧
        ¬ (store.lastSignal key past = some 0 ∧
          call.nowMs = store.cfg.signalCooldownMs ∧ 0 < call.nowMs) ∧
        vcfg.maxCount < inWindow .withdrawal vcfg.windowMs call.nowMs
          ((eventsOf (call :: past)).take window)) :=
  imp_congr_right (fun _ => noticed_iff hclassifiers hcfg hnew hquiet)

end TxStore

def someSession : SessionKey :=
  { host := "shop.example".toList, ident := .cookie "abc".toList }

def threeAMinute : TxVelocityFileConfig :=
  { TxVelocityFileConfig.default with
    enabled := true
    classifiers :=
      { sequence := none
        withdrawalVelocity := some { maxCount := 3, windowMs := 60000 }
        limitChangeVelocity := none } }

def sampleStore : TxStore :=
  { actors := Table.empty
    cfg := threeAMinute.intoRuntime
    classifiers := defaultClassifiers }

def withdrawalAt (nowMs : Nat) : TxStore.Call :=
  { role := .withdrawal, ok := true, nowMs := nowMs }

def depositAt (nowMs : Nat) : TxStore.Call :=
  { role := .deposit, ok := true, nowMs := nowMs }

def threeWithdrawals : List TxStore.Call :=
  [withdrawalAt 300, withdrawalAt 200, withdrawalAt 100]

theorem threeWithdrawals_quiet :
    sampleStore.Quiet someSession 400 threeWithdrawals := by
  decide +kernel

/-- Withdrawals one after the other are noticed. -/
theorem fourth_withdrawal_noticed :
    3 < inWindow .withdrawal 60000 400 (TxStore.eventsOf (withdrawalAt 400 :: threeWithdrawals)) ∧
      TxStore.Noticed (sampleStore.submission someSession (withdrawalAt 400) threeWithdrawals) := by
  have hmany : 3 < inWindow .withdrawal 60000 400
      (TxStore.eventsOf (withdrawalAt 400 :: threeWithdrawals)) := by
    decide +kernel
  refine ⟨hmany, (TxStore.withdrawals_noticed_iff rfl rfl
    (Table.lookup_empty someSession) threeWithdrawals_quiet).mpr ?_ hmany⟩
  intro _
  decide +kernel

/-- Three withdrawals, sixteen deposits and one more withdrawal, all within a
second. -/
def spacedWithdrawals : List TxStore.Call :=
  (List.range 16).reverse.map (fun i => depositAt (400 + i)) ++
    [withdrawalAt 300, withdrawalAt 200, withdrawalAt 100]

/-- The deposits push the withdrawals out of the ring. -/
theorem spaced_withdrawals_missed :
    threeAMinute.validate = .ok () ∧ sampleStore.Quiet someSession 500 spacedWithdrawals ∧
      inWindow .withdrawal 60000 500
        (TxStore.eventsOf (withdrawalAt 500 :: spacedWithdrawals)) = 4 ∧
      (sampleStore.submission someSession (withdrawalAt 500) spacedWithdrawals).isNone = true :=
  ⟨rfl, by decide +kernel⟩

end TxVelocity
end PrxWaf
