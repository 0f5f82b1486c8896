import PrxWaf.DeviceFp.Behavior

/-!
# The state of an actor and its history

The paths of an actor are kept in eight slots that are zero at first, although zero
is also the hash of a path.  Only the slots below the length count; they are the
list that `ActorBehavior` has.
-/

namespace PrxWaf
namespace DeviceFp

open Lib

/-- Up to a limit the list has every hash that was seen, once. -/
structure Remembers (paths seen : List UInt64) : Prop where
  nodup : paths.Nodup
  subset : paths ⊆ seen
  bound : paths.length ≤ maxDistinctPaths
  complete : paths.length < maxDistinctPaths -> seen ⊆ paths

theorem remembers_nil : Remembers [] [] :=
  ⟨List.nodup_nil, List.Subset.refl [], Nat.zero_le _, fun _ => List.Subset.refl []⟩

theorem Remembers.record {actor : ActorBehavior} {seen : List UInt64} {sample : Sample}
    (h : Remembers actor.distinctPaths seen) :
    Remembers (actor.record sample).distinctPaths (sample.pathHash :: seen) := by
  unfold ActorBehavior.record
  dsimp only
  split
  · rename_i hnew
    refine ⟨?_, ?_, ?_, ?_⟩
    · rw [← List.concat_eq_append]
      exact h.nodup.concat hnew.1
    · intro x hx
      rcases List.mem_append.mp hx with hold | hlast
      · exact List.mem_cons_of_mem _ (h.subset hold)
      · rw [List.mem_singleton.mp hlast]
        exact List.mem_cons_self
    · rw [List.length_append]
      exact hnew.2
    · intro _ x hx
      rcases List.mem_cons.mp hx with rfl | hold
      · exact List.mem_append_right _ (List.mem_singleton_self _)
      · exact List.mem_append_left _ (h.complete hnew.2 hold)
  · rename_i hknown
    refine ⟨h.nodup, fun x hx => List.mem_cons_of_mem _ (h.subset hx), h.bound, ?_⟩
    intro hroom x hx
    rcases List.mem_cons.mp hx with rfl | hold
    · exact Classical.byContradiction (fun hnew => hknown ⟨hnew, hroom⟩)
    · exact h.complete hroom hold

theorem Remembers.length_eq {paths seen : List UInt64} (h : Remembers paths seen) :
    paths.length = min maxDistinctPaths seen.toFinset.card := by
  have hcard : paths.toFinset.card = paths.length := List.toFinset_card_of_nodup h.nodup
  have hmono : forall {a b : List UInt64}, a ⊆ b -> a.toFinset.card ≤ b.toFinset.card := by
    intro a b hsub
    refine Finset.card_le_card ?_
    intro x hx
    exact List.mem_toFinset.mpr (hsub (List.mem_toFinset.mp hx))
  have hle := hmono h.subset
  have hbound := h.bound
  rcases Nat.lt_or_ge paths.length maxDistinctPaths with hroom | hfull
  · have hge := hmono (h.complete hroom)
    lia
  · lia

namespace BehaviorState

structure ActorBehavior where
  samples : Ring sampleWindow Sample
  distinctPaths : List UInt64
  distinctPathsLen : Nat
  updatedMs : Nat

namespace ActorBehavior

def new : ActorBehavior :=
  { samples := Ring.empty
    distinctPaths := List.replicate maxDistinctPaths 0
    distinctPathsLen := 0
    updatedMs := 0 }

def alreadyKnown (actor : ActorBehavior) (pathHash : UInt64) : Bool :=
  decide (actor.distinctPathsLen ≤ actor.distinctPaths.length) &&
    (actor.distinctPaths.take actor.distinctPathsLen).contains pathHash

def record (actor : ActorBehavior) (sample : Sample) : ActorBehavior :=
  let recorded := { actor with samples := actor.samples.record sample, updatedMs := sample.tsMs }
  if !actor.alreadyKnown sample.pathHash &&
      decide (actor.distinctPathsLen < actor.distinctPaths.length) then
    { recorded with
      distinctPaths := actor.distinctPaths.set actor.distinctPathsLen sample.pathHash
      distinctPathsLen := actor.distinctPathsLen + 1 }
  else recorded

def intervalsFrom : Option Nat -> List Sample -> List Nat
  | _, [] => []
  | prev, s :: rest =>
    (prev.map (fun p => s.tsMs - p)).toList ++ intervalsFrom (some s.tsMs) rest

def intervalsMs (actor : ActorBehavior) : List Nat :=
  intervalsFrom none actor.samples.items

theorem intervalsFrom_none (samples : List Sample) :
    intervalsFrom none samples = DeviceFp.intervalsMs samples := by
  have hsome : forall s rest, intervalsFrom (some s.tsMs) rest =
      DeviceFp.intervalsMs (s :: rest) := by
    intro s rest
    induction rest generalizing s with
    | nil => rfl
    | cons next rest ih =>
      rw [intervalsFrom, ih next]
      rfl
  cases samples with
  | nil => rfl
  | cons s rest => exact hsome s rest

def live (actor : ActorBehavior) : DeviceFp.ActorBehavior :=
  { samples := actor.samples
    distinctPaths := actor.distinctPaths.take actor.distinctPathsLen
    updatedMs := actor.updatedMs }

structure WellFormed (actor : ActorBehavior) : Prop where
  slots : actor.distinctPaths.length = maxDistinctPaths
  len : actor.distinctPathsLen ≤ maxDistinctPaths

theorem wellFormed_new : new.WellFormed :=
  ⟨List.length_replicate, Nat.zero_le _⟩

theorem WellFormed.record {actor : ActorBehavior} (h : actor.WellFormed) (sample : Sample) :
    (actor.record sample).WellFormed ∧ (actor.record sample).live = actor.live.record sample := by
  have hlive : (actor.distinctPaths.take actor.distinctPathsLen).length =
      actor.distinctPathsLen := by
    rw [List.length_take, h.slots, Nat.min_eq_left h.len]
  have hguard : ((!actor.alreadyKnown sample.pathHash &&
        decide (actor.distinctPathsLen < actor.distinctPaths.length)) = true) <->
      sample.pathHash ∉ actor.live.distinctPaths ∧
        actor.live.distinctPaths.length < maxDistinctPaths := by
    unfold alreadyKnown live
    rw [h.slots, hlive, decide_eq_true h.len]
    simp
  unfold ActorBehavior.record DeviceFp.ActorBehavior.record
  dsimp only
  split
  · rename_i hnew
    rw [if_pos (hguard.mp hnew)]
    have hroom : actor.distinctPathsLen < maxDistinctPaths := hlive ▸ (hguard.mp hnew).2
    refine ⟨⟨List.length_set.trans h.slots, hroom⟩, ?_⟩
    -- the slot that is written is the first one behind the live slots
    unfold live
    dsimp only
    rw [List.take_add_one, List.take_set_of_le (Nat.le_refl _),
      List.getElem?_set_self (by rw [h.slots]; exact hroom)]
    rfl
  · rename_i hknown
    rw [if_neg (fun hnew => hknown (hguard.mpr hnew))]
    exact ⟨⟨h.slots, h.len⟩, rfl⟩

structure Holds (actor : ActorBehavior) (history : List Sample) : Prop where
  wellFormed : actor.WellFormed
  samples : actor.samples.Holds history
  paths : Remembers actor.live.distinctPaths (history.map Sample.pathHash)

theorem holds_run (samples : List Sample) :
    (samples.foldl record new).Holds samples.reverse := by
  induction samples using List.reverseRecOn with
  | nil => exact ⟨wellFormed_new, Ring.holds_empty (by decide), remembers_nil⟩
  | append_singleton samples sample ih =>
    obtain ⟨hformed, hlive⟩ := ih.wellFormed.record sample
    rw [List.foldl_concat, List.reverse_concat]
    refine ⟨hformed, ?_, ?_⟩
    · have hring : ((samples.foldl record new).record sample).samples =
          (samples.foldl record new).samples.record sample :=
        congrArg DeviceFp.ActorBehavior.samples hlive
      rw [hring]
      exact Ring.record_holds ih.samples sample
    · rw [hlive]
      exact ih.paths.record

/-- The ring shows the last samples and the intervals between them, and the paths
are counted up to the limit. -/
theorem shows_recent_history (samples : List Sample) :
    (samples.foldl record new).samples.items = samples.rtake sampleWindow ∧
      (samples.foldl record new).intervalsMs = DeviceFp.intervalsMs (samples.rtake sampleWindow) ∧
      (samples.foldl record new).distinctPathsLen =
        min maxDistinctPaths (samples.map Sample.pathHash).toFinset.card := by
  have h := holds_run samples
  have hitems : (samples.foldl record new).samples.items = samples.rtake sampleWindow := by
    rw [Ring.items_of_holds h.samples, List.rtake_eq_reverse_take_reverse]
  refine ⟨hitems, ?_, ?_⟩
  · unfold intervalsMs
    rw [hitems, intervalsFrom_none]
  · have hlength := h.paths.length_eq
    rw [List.map_reverse, List.toFinset_reverse] at hlength
    rw [← hlength]
    unfold live
    rw [List.length_take, h.wellFormed.slots, Nat.min_eq_left h.wellFormed.len]

end ActorBehavior

end BehaviorState

end DeviceFp
end PrxWaf
