import PrxWaf.Lib.Fading
import PrxWaf.Lib.Machine
import PrxWaf.Lib.Table
import PrxWaf.Lib.Upkeep
import PrxWaf.Net.IpAddr

/-!
# The rate limiter of the management API

A token bucket for each address.  A task removes buckets that were idle for some time;
a bucket that is made again later is full, as the removed one would be by then.

Times are in nanoseconds, and fractions of tokens are exact.
-/

namespace PrxWaf
namespace Api

open Lib Net

def apiRateMaxEntries : Nat := 50000

def apiRateTtl : Nat := 600 * nanosPerSec

structure Bucket where
  tokens : Rat
  lastRefill : Nat
  deriving DecidableEq

structure ApiRateLimiter where
  buckets : Table IpAddr Bucket
  rps : Rat
  burst : Rat

namespace ApiRateLimiter

def new (rps : UInt32) : ApiRateLimiter :=
  { buckets := Table.empty
    rps := rps.toNat
    burst := (max (min (rps.toNat * 5) u32Max) 10 : Nat) }

def refilled (limiter : ApiRateLimiter) (ip : IpAddr) (now : Nat) : Rat :=
  let bucket := (limiter.buckets.lookup ip).getD
    { tokens := limiter.burst, lastRefill := now }
  let elapsed : Rat := (now - bucket.lastRefill : Nat) / nanosPerSec
  min (elapsed * limiter.rps + bucket.tokens) limiter.burst

def check (limiter : ApiRateLimiter) (ip : IpAddr) (now : Nat) : ApiRateLimiter × Bool :=
  if limiter.rps = 0 then (limiter, true)
  else
    let tokens := limiter.refilled ip now
    if 1 ≤ tokens then
      ({ limiter with
          buckets := limiter.buckets.insert ip
            { tokens := tokens - 1, lastRefill := now } },
        true)
    else
      ({ limiter with
          buckets := limiter.buckets.insert ip
            { tokens := tokens, lastRefill := now } },
        false)

def cleanup (limiter : ApiRateLimiter) (now : Nat) : ApiRateLimiter :=
  { limiter with
    buckets := (limiter.buckets.retain (fun bucket =>
      now - bucket.lastRefill < apiRateTtl)).cutTo apiRateMaxEntries
        (fun bucket => bucket.lastRefill) }

def spent (tokens : Rat) (now : Nat) : Bucket :=
  { tokens := if 1 ≤ tokens then tokens - 1 else tokens, lastRefill := now }

def Idle (now : Nat) (bucket : Bucket) : Prop :=
  bucket.lastRefill + apiRateTtl ≤ now

theorem Idle.later {clock now : Nat} (hclock : clock ≤ now) {bucket : Bucket}
    (h : Idle clock bucket) : Idle now bucket :=
  Nat.le_trans h hclock

section Check

variable {limiter : ApiRateLimiter} {ip : IpAddr} {now : Nat}

theorem check_eq (hrps : limiter.rps ≠ 0) :
    limiter.check ip now = ({ limiter with
          buckets := limiter.buckets.insert ip
            (spent (limiter.refilled ip now) now) },
        decide (1 ≤ limiter.refilled ip now)) := by
  unfold check spent
  rw [if_neg hrps]
  dsimp only
  split
  · rename_i henough
    rw [decide_eq_true henough]
  · rename_i hfew
    rw [decide_eq_false hfew]

theorem spent_tokens_nonneg {tokens : Rat} (h : 0 ≤ tokens) (now : Nat) :
    0 ≤ (spent tokens now).tokens := by
  unfold spent
  dsimp only
  split
  · rename_i henough
    exact sub_nonneg.mpr henough
  · exact h

theorem refilled_of_none (h : limiter.buckets.lookup ip = none) :
    limiter.refilled ip now = limiter.burst := by
  unfold refilled
  rw [h]
  dsimp only [Option.getD_none]
  rw [Nat.sub_self, Nat.cast_zero, zero_div, zero_mul, zero_add, min_self]

theorem refilled_of_idle (hburst : limiter.burst ≤ 600 * limiter.rps)
    (hrps : 0 ≤ limiter.rps) {bucket : Bucket} (h : limiter.buckets.lookup ip = some bucket)
    (htokens : 0 ≤ bucket.tokens) (hidle : Idle now bucket) :
    limiter.refilled ip now = limiter.burst := by
  have helapsed : (600 : Rat) ≤ (now - bucket.lastRefill : Nat) / (nanosPerSec : Nat) := by
    have hpos : (0 : Rat) < (nanosPerSec : Nat) := by
      unfold nanosPerSec
      norm_num
    rw [le_div_iff₀ hpos]
    have hnanos : 600 * nanosPerSec ≤ now - bucket.lastRefill := by
      unfold Idle apiRateTtl at hidle
      lia
    exact_mod_cast hnanos
  unfold refilled
  rw [h]
  dsimp only [Option.getD_some]
  refine min_eq_right ?_
  calc limiter.burst ≤ 600 * limiter.rps := hburst
    _ ≤ (now - bucket.lastRefill : Nat) / (nanosPerSec : Nat) *
          limiter.rps := mul_le_mul_of_nonneg_right helapsed hrps
    _ ≤ _ := le_add_of_nonneg_right htokens

theorem refilled_nonneg (hburst : 0 ≤ limiter.burst) (hrps : 0 ≤ limiter.rps)
    (htokens : forall bucket, limiter.buckets.lookup ip = some bucket ->
      0 ≤ bucket.tokens) : 0 ≤ limiter.refilled ip now := by
  cases hbucket : limiter.buckets.lookup ip with
  | none =>
    rw [refilled_of_none hbucket]
    exact hburst
  | some bucket =>
    unfold refilled
    rw [hbucket]
    dsimp only [Option.getD_some]
    refine le_min (add_nonneg (mul_nonneg ?_ hrps) (htokens bucket hbucket)) hburst
    exact div_nonneg (Nat.cast_nonneg _) (Nat.cast_nonneg _)

end Check

/-- Two limiters with the same settings, of which the first has forgotten idle buckets
of the second. -/
structure Alike (clock : Nat) (s t : ApiRateLimiter) : Prop where
  rps : s.rps = t.rps
  burst : s.burst = t.burst
  positive : 0 < t.rps
  nonneg : 0 ≤ t.burst
  enough : t.burst ≤ 600 * t.rps
  filled : forall ip bucket, t.buckets.lookup ip = some bucket -> 0 ≤ bucket.tokens
  kept : forall ip, Fades (Idle clock) (t.buckets.lookup ip) (s.buckets.lookup ip)

section Alike

variable {clock now : Nat} {s t : ApiRateLimiter}

theorem Alike.rps_ne_zero (h : Alike clock s t) : s.rps ≠ 0 := by
  rw [h.rps]
  exact h.positive.ne'

theorem Alike.refilled_eq (h : Alike clock s t) (hclock : clock ≤ now)
    (ip : IpAddr) : s.refilled ip now = t.refilled ip now := by
  rcases h.kept ip with hsame | ⟨hnone, bucket, hbucket, hidle⟩
  · unfold refilled
    rw [hsame, h.rps, h.burst]
  · rw [refilled_of_none hnone, h.burst]
    exact (refilled_of_idle h.enough h.positive.le hbucket
      (h.filled ip bucket hbucket) (hidle.later hclock)).symm

theorem Alike.check (h : Alike clock s t) (hclock : clock ≤ now) (ip : IpAddr) :
    (s.check ip now).2 = (t.check ip now).2 ∧ Alike now (s.check ip now).1 (t.check ip now).1 := by
  have hrefilled := h.refilled_eq hclock ip
  rw [check_eq h.rps_ne_zero, check_eq h.positive.ne', hrefilled]
  refine ⟨rfl, h.rps, h.burst, h.positive, h.nonneg, h.enough, ?_, ?_⟩
  · intro other bucket hbucket
    rcases Decidable.em (other = ip) with rfl | hother
    · rw [Table.lookup_insert_self] at hbucket
      cases hbucket
      exact spent_tokens_nonneg (refilled_nonneg h.nonneg h.positive.le (h.filled other)) now
    · rw [Table.lookup_insert_of_ne hother] at hbucket
      exact h.filled other bucket hbucket
  · intro other
    rcases Decidable.em (other = ip) with rfl | hother
    · rw [Table.lookup_insert_self, Table.lookup_insert_self]
      exact Fades.refl _ _
    · rw [Table.lookup_insert_of_ne hother, Table.lookup_insert_of_ne hother]
      exact (h.kept other).mono (fun _ hidle => hidle.later hclock)

theorem lookup_cleanup (hfew : s.buckets.size ≤ apiRateMaxEntries) (ip : IpAddr) :
    (s.cleanup now).buckets.lookup ip = (s.buckets.lookup ip).filter (fun bucket =>
        now - bucket.lastRefill < apiRateTtl) := by
  unfold cleanup
  dsimp only
  rw [Table.cutTo_of_size_le ((Table.size_retain_le _ _).trans hfew), Table.lookup_retain]

theorem Alike.cleanup (h : Alike clock s t) (hclock : clock ≤ now)
    (hfew : s.buckets.size ≤ apiRateMaxEntries) :
    Alike now (s.cleanup now) t := by
  refine ⟨h.rps, h.burst, h.positive, h.nonneg, h.enough, h.filled, ?_⟩
  intro ip
  rw [lookup_cleanup hfew]
  refine ((h.kept ip).mono (fun _ hidle => hidle.later hclock)).filter ?_
  intro bucket _ hlong
  have hlong := of_decide_eq_false hlong
  have hpos : 0 < apiRateTtl := by decide
  unfold Idle
  lia

end Alike

structure CheckCall where
  ip : IpAddr
  now : Nat

abbrev Event := CheckCall ⊕ Nat

def Event.time : Event -> Nat
  | .inl call => call.now
  | .inr now => now

def service : Service ApiRateLimiter CheckCall Nat Bool where
  serve := fun limiter call => limiter.check call.ip call.now
  upkeep := cleanup

def addresses (events : List Event) : Finset IpAddr :=
  (events.filterMap (fun event => event.getLeft?.map CheckCall.ip)).toFinset

/-- The events still to come are in order and from the given addresses, which are the
only ones that the first limiter has buckets for. -/
structure Related (allowed : Finset IpAddr) (events : List Event)
    (s t : ApiRateLimiter) : Prop where
  sorted : (events.map Event.time).Pairwise (· ≤ ·)
  alike : exists clock, Alike clock s t ∧ forall event, event ∈ events -> clock ≤ event.time
  known : forall ip, (s.buckets.lookup ip).isSome = true -> ip ∈ allowed
  coming : forall call, .inl call ∈ events -> call.ip ∈ allowed

section Related

variable {allowed : Finset IpAddr} {rest : List Event} {s t : ApiRateLimiter}

theorem Related.serve {call : CheckCall} (h : Related allowed (.inl call :: rest) s t) :
    (service.serve s call).2 = (service.serve t call).2 ∧
      Related allowed rest (service.serve s call).1 (service.serve t call).1 := by
  obtain ⟨clock, halike, hclock⟩ := h.alike
  obtain ⟨hanswer, hnext⟩ := halike.check (hclock (.inl call) List.mem_cons_self) call.ip
  have hpair := List.pairwise_cons.mp h.sorted
  refine ⟨hanswer, hpair.2, ⟨call.now, hnext, ?_⟩, ?_, ?_⟩
  · intro event hevent
    exact hpair.1 event.time (List.mem_map_of_mem hevent)
  · intro ip hsome
    change ((s.check call.ip call.now).1.buckets.lookup ip).isSome = true at hsome
    rw [check_eq halike.rps_ne_zero] at hsome
    rcases Decidable.em (ip = call.ip) with rfl | hother
    · exact h.coming call List.mem_cons_self
    · rw [Table.lookup_insert_of_ne hother] at hsome
      exact h.known ip hsome
  · intro later hlater
    exact h.coming later (List.mem_cons_of_mem _ hlater)

theorem Related.upkeep {now : Nat} (hfew : allowed.card ≤ apiRateMaxEntries)
    (h : Related allowed (.inr now :: rest) s t) :
    Related allowed rest (service.upkeep s now) t := by
  obtain ⟨clock, halike, hclock⟩ := h.alike
  have hsize := (Table.size_le_card h.known).trans hfew
  have hpair := List.pairwise_cons.mp h.sorted
  refine ⟨hpair.2, ⟨now, halike.cleanup (hclock (.inr now) List.mem_cons_self) hsize, ?_⟩, ?_, ?_⟩
  · intro event hevent
    exact hpair.1 event.time (List.mem_map_of_mem hevent)
  · intro ip hsome
    change ((s.cleanup now).buckets.lookup ip).isSome = true at hsome
    rw [lookup_cleanup hsize] at hsome
    exact h.known ip (Option.isSome_of_isSome_filter _ _ hsome)
  · intro later hlater
    exact h.coming later (List.mem_cons_of_mem _ hlater)

end Related

theorem lookup_new (rps : UInt32) (ip : IpAddr) :
    (new rps).buckets.lookup ip = none :=
  Table.lookup_empty ip

theorem alike_new {rps : UInt32} (hrps : 1 ≤ rps.toNat) :
    Alike 0 (new rps) (new rps) := by
  have hburst : max (min (rps.toNat * 5) u32Max) 10 ≤ 600 * rps.toNat := by
    lia
  refine ⟨rfl, rfl, ?_, ?_, ?_, ?_, fun _ => Fades.refl _ _⟩
  · exact Nat.cast_pos.mpr hrps
  · exact Nat.cast_nonneg _
  · change ((max (min (rps.toNat * 5) u32Max) 10 : Nat) : Rat) ≤ 600 * (rps.toNat : Rat)
    exact_mod_cast hburst
  · intro ip bucket hbucket
    rw [lookup_new] at hbucket
    cases hbucket

/-- The runs of the cleanup cannot be noticed: every check is answered as it is without
them. -/
theorem cleanup_transparent {rps : UInt32} (hrps : 1 ≤ rps.toNat) {events : List Event}
    (hsorted : (events.map Event.time).Pairwise (· ≤ ·)) (hfew : (addresses events).card ≤ 50000) :
    service.answers (new rps) events = service.answers (new rps) (Service.calls events) := by
  refine Service.answers_calls_of_related Related.serve (Related.upkeep hfew)
    (⟨hsorted, ⟨0, alike_new hrps, fun _ _ => Nat.zero_le _⟩, ?_, ?_⟩ :
      Related (addresses events) events (new rps) (new rps))
  · intro ip hsome
    rw [lookup_new] at hsome
    cases hsome
  · intro call hcall
    exact List.mem_toFinset.mpr (List.mem_filterMap.mpr ⟨_, hcall, rfl⟩)

def localhost : IpAddr :=
  .v4 (Ipv4Addr.new 127 0 0 1)

/-- The cleanup removes the bucket of an address that comes back later. -/
def idleRun : List Event :=
  [.inl { ip := localhost, now := 0 }, .inr (600 * nanosPerSec),
    .inl { ip := localhost, now := 601 * nanosPerSec }]

theorem cleanup_transparent_after_idle :
    (((new 1).check localhost 0).1.cleanup
        (600 * nanosPerSec)).buckets.lookup localhost = none ∧ service.answers (new 1) idleRun =
        service.answers (new 1) (Service.calls idleRun) :=
  ⟨by decide +kernel, cleanup_transparent (by decide) (by decide) (by decide)⟩

end ApiRateLimiter

end Api
end PrxWaf
