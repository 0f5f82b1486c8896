import PrxWaf.Ddos.Detector
import PrxWaf.Net.IpDisplay

/-!
# Bans that escalate

A burst bans its address for a time that grows with the number of its offenses.  Calls
that follow an offense at once are not counted.  The bans, the offenses and the times
of the last offenses are kept in three tables, each with a purge of its own.
-/

namespace PrxWaf
namespace Ddos

open Lib Net

structure DynamicBanTable where
  entries : Table IpAddr Int

namespace DynamicBanTable

def new : DynamicBanTable :=
  { entries := Table.empty }

/-- A ban is never shortened. -/
def insert (table : DynamicBanTable) (ip : IpAddr) (expiresMs : Int) : DynamicBanTable :=
  match table.entries.lookup ip with
  | some exp => { entries := table.entries.insert ip (max exp expiresMs) }
  | none => { entries := table.entries.insert ip expiresMs }

def contains (table : DynamicBanTable) (ip : IpAddr) (nowMs : Int) : Bool :=
  (table.entries.lookup ip).any (fun exp => nowMs < exp)

def purgeExpired (table : DynamicBanTable) (nowMs : Int) : DynamicBanTable × Nat :=
  let kept := table.entries.retain (fun exp => nowMs < exp)
  ({ entries := kept }, table.entries.size - kept.size)

section Insert

variable (table : DynamicBanTable) {ip other : IpAddr} (expiresMs : Int)

theorem lookup_insert_self :
    (table.insert ip expiresMs).entries.lookup ip =
      some ((table.entries.lookup ip).elim expiresMs (fun exp => max exp expiresMs)) := by
  unfold insert
  cases table.entries.lookup ip with
  | none => exact Table.lookup_insert_self
  | some exp => exact Table.lookup_insert_self

theorem lookup_insert_of_ne (h : other ≠ ip) :
    (table.insert ip expiresMs).entries.lookup other = table.entries.lookup other := by
  unfold insert
  cases table.entries.lookup ip with
  | none => exact Table.lookup_insert_of_ne h
  | some exp => exact Table.lookup_insert_of_ne h

end Insert

end DynamicBanTable

structure BanStep where
  ttlS : UInt32
  riskDelta : UInt8
  deriving DecidableEq

structure BanSchedule where
  steps : List BanStep
  nonempty : steps ≠ []

namespace BanSchedule

/-- The step for an offense, counted from one; the last step is for all later ones. -/
def stepFor (schedule : BanSchedule) (offenseN : Nat) : BanStep :=
  let maxIdx := schedule.steps.length - 1
  let idx := min (offenseN - 1) maxIdx
  (schedule.steps[idx]?.or schedule.steps.head?).getD
    { ttlS := 3600, riskDelta := 100 }

def default : BanSchedule :=
  { steps :=
      [{ ttlS := 60, riskDelta := 30 }, { ttlS := 300, riskDelta := 50 },
        { ttlS := 3600, riskDelta := 100 }]
    nonempty := List.cons_ne_nil _ _ }

theorem getElem?_stepFor (schedule : BanSchedule) (n : Nat) :
    schedule.steps[min (n + 1) schedule.steps.length - 1]? = some (schedule.stepFor (n + 1)) := by
  have hpos := List.length_pos_iff.mpr schedule.nonempty
  have hidx : min (n + 1) schedule.steps.length - 1 =
      min (n + 1 - 1) (schedule.steps.length - 1) := by
    lia
  unfold stepFor
  dsimp only
  rw [hidx]
  cases hstep : schedule.steps[min (n + 1 - 1) (schedule.steps.length - 1)]? with
  | none =>
    have hshort := List.getElem?_eq_none_iff.mp hstep
    lia
  | some step => rfl

end BanSchedule

/-! ## The action -/

structure ActionResult where
  banned : Bool
  banTtlS : Option UInt32
  riskDelta : UInt8
  deriving DecidableEq

def ActionResult.noop : ActionResult :=
  { banned := false, banTtlS := none, riskDelta := 0 }

structure BanAction where
  banTable : DynamicBanTable
  offenseStore : MemoryCounterStore
  schedule : BanSchedule
  offenseWindowMs : Int
  debounceMs : Int
  debounceLocks : Table IpAddr Int

namespace BanAction

def new (banTable : DynamicBanTable) (offenseStore : MemoryCounterStore)
    (schedule : BanSchedule) : BanAction :=
  { banTable := banTable
    offenseStore := offenseStore
    schedule := schedule
    offenseWindowMs := 3600 * 1000
    debounceMs := 100
    debounceLocks := Table.empty }

def offenseKey (ip : IpAddr) : Text :=
  "ddos:offense:".toList ++ ip.display

def acquireDebounce (action : BanAction) (ip : IpAddr) (nowMs : Int) : BanAction × Bool :=
  let acquired := { action with debounceLocks := action.debounceLocks.insert ip nowMs }
  match action.debounceLocks.lookup ip with
  | some last =>
    if action.debounceMs ≤ saturatingSub nowMs last then (acquired, true)
    else (action, false)
  | none => (acquired, true)

def purgeDebounceLocks (action : BanAction) (nowMs : Int) : BanAction :=
  let cutoff := saturatingSub nowMs (action.debounceMs * 10)
  { action with
    debounceLocks := action.debounceLocks.retain (fun ts => cutoff < ts) }

def ban (action : BanAction) (ip : IpAddr) (nowMs : Int) : BanAction × ActionResult :=
  let result := action.offenseStore.incrGet (offenseKey ip)
    action.offenseWindowMs nowMs
  let step := action.schedule.stepFor result.2
  let expiresMs := saturatingAdd nowMs (step.ttlS.toNat * 1000)
  ({ action with
      offenseStore := result.1
      banTable := action.banTable.insert ip expiresMs },
    { banned := true
      banTtlS := some step.ttlS
      riskDelta := step.riskDelta })

/-- The store in memory never fails. -/
def execute (action : BanAction) (ip : IpAddr) (verdict : DetectorVerdict)
    (nowMs : Int) : BanAction × ActionResult :=
  match verdict with
  | .hardBurst _ _ =>
    let (action, proceed) := action.acquireDebounce ip nowMs
    if proceed then action.ban ip nowMs else (action, .noop)
  | _ => (action, .noop)

theorem offenseKey_injective {ip other : IpAddr}
    (h : offenseKey ip = offenseKey other) : ip = other :=
  IpAddr.display_injective (List.append_cancel_left h)

end BanAction

end Ddos
end PrxWaf
