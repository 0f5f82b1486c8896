import PrxWaf.Lib.Text

/-!
# The buffer in front of the log server

Senders put entries into a channel of bounded length.  A task takes them out and
ships them in batches: when a batch is full, when the timer fires, and when the
senders are gone.  A batch has one attempt.
-/

namespace PrxWaf
namespace Logging

open Lib

structure BatchConfig where
  batchSize : Nat
  channelCapacity : Nat

/-- The channel and the task, with what the server has, what the channel has taken,
and the batches with their outcome. -/
structure Flusher (entry : Type) where
  channel : List entry
  closed : Bool
  batch : List entry
  exited : Bool
  ingested : Text
  taken : List entry
  flushed : List (List entry × Bool)

inductive FlusherEvent (entry : Type) where
  | trySend (e : entry)
  | dropSenders
  | recv (success : Bool)
  | tick (success : Bool)

def FlusherEvent.sent {entry : Type} : FlusherEvent entry -> Option entry
  | .trySend e => some e
  | _ => none

section Loop

variable {entry : Type} (cfg : BatchConfig) (toString : entry -> Option Text)

/-- Without its client the task ends at once. -/
def start (built : Bool) : Flusher entry :=
  { channel := [], closed := false, batch := [], exited := !built
    ingested := [], taken := [], flushed := [] }

/-- A line for each entry that can be written. -/
def body (batch : List entry) : Text :=
  (batch.filterMap toString).flatMap (fun line => line ++ ['\n'])

def doFlush (success : Bool) (s : Flusher entry) : Flusher entry :=
  if s.batch.isEmpty then s
  else
    { s with
      batch := []
      ingested := if success then s.ingested ++ body toString s.batch else s.ingested
      flushed := s.flushed ++ [(s.batch, success)] }

def step (s : Flusher entry) (event : FlusherEvent entry) : Flusher entry :=
  if s.exited then s
  else
    match event with
    | .trySend e =>
      if !s.closed && s.channel.length < cfg.channelCapacity then
        { s with channel := s.channel ++ [e], taken := s.taken ++ [e] }
      else s
    | .dropSenders => { s with closed := true }
    | .recv success =>
      match s.channel with
      | e :: rest =>
        let s := { s with channel := rest, batch := s.batch ++ [e] }
        if cfg.batchSize ≤ s.batch.length then doFlush toString success s else s
      | [] => if s.closed then { doFlush toString success s with exited := true } else s
    | .tick success =>
      -- the channel is polled first
      if s.channel.isEmpty && !s.closed then doFlush toString success s else s

/-- Of what was offered, every entry that was taken is in one place, and in order. -/
structure Accounted (offered : List entry) (s : Flusher entry) : Prop where
  order : s.taken.Sublist offered
  taken : s.flushed.flatMap Prod.fst ++ (s.batch ++ s.channel) = s.taken
  sizes : forall b, b ∈ s.flushed -> b.1 ≠ [] ∧ b.1.length ≤ max cfg.batchSize 1
  ended : s.exited = true -> s.batch = [] ∧ s.channel = []
  ingested : s.ingested = body toString ((s.flushed.filter Prod.snd).flatMap Prod.fst)

variable {cfg} {toString} {offered : List entry} {s : Flusher entry}

theorem batch_doFlush (success : Bool) : (doFlush toString success s).batch = [] := by
  unfold doFlush
  split
  · rename_i hempty
    exact List.isEmpty_iff.mp hempty
  · rfl

theorem channel_doFlush (success : Bool) : (doFlush toString success s).channel = s.channel := by
  unfold doFlush
  split
  · rfl
  · rfl

theorem Accounted.doFlush (h : Accounted cfg toString offered s)
    (hroom : s.batch.length ≤ max cfg.batchSize 1) (success : Bool) :
    Accounted cfg toString offered (doFlush toString success s) := by
  unfold Logging.doFlush
  split
  · exact h
  · rename_i hne
    refine ⟨h.order, ?_, ?_, fun hexited => ⟨rfl, (h.ended hexited).2⟩, ?_⟩
    · rw [← h.taken]
      simp
    · intro b hb
      rcases List.mem_append.mp hb with hold | hnew
      · exact h.sizes b hold
      · rw [List.mem_singleton.mp hnew]
        exact ⟨fun hnil => hne (List.isEmpty_iff.mpr hnil), hroom⟩
    · cases success with
      | false => simpa using h.ingested
      | true => simp [h.ingested, body, List.filter_append]

/-- Between two events a batch is not full. -/
theorem Accounted.step (hold : Accounted cfg toString offered s)
    (hroom : s.batch.length < max cfg.batchSize 1) (event : FlusherEvent entry) :
    Accounted cfg toString (offered ++ event.sent.toList) (step cfg toString s event) ∧
      (step cfg toString s event).batch.length < max cfg.batchSize 1 := by
  have hempty : ([] : List entry).length < max cfg.batchSize 1 := Nat.zero_lt_of_lt hroom
  have h : Accounted cfg toString (offered ++ event.sent.toList) s :=
    ⟨hold.order.trans (List.sublist_append_left _ _), hold.taken, hold.sizes, hold.ended,
      hold.ingested⟩
  unfold Logging.step
  split
  · exact ⟨h, hroom⟩
  rename_i hrunning
  cases event with
  | trySend e =>
    dsimp only
    split
    · refine ⟨⟨hold.order.append_right [e], ?_, h.sizes, fun hexited => absurd hexited hrunning,
        h.ingested⟩, hroom⟩
      rw [← h.taken]
      simp
    · exact ⟨h, hroom⟩
  | dropSenders => exact ⟨⟨h.order, h.taken, h.sizes, h.ended, h.ingested⟩, hroom⟩
  | recv success =>
    dsimp only
    split
    · rename_i e rest hchannel
      have hnext : Accounted cfg toString (offered ++ [])
          { s with channel := rest, batch := s.batch ++ [e] } := by
        refine ⟨h.order, ?_, h.sizes, fun hexited => absurd hexited hrunning, h.ingested⟩
        rw [← h.taken, hchannel]
        simp
      have hlength : (s.batch ++ [e]).length = s.batch.length + 1 := List.length_append
      split
      · rw [batch_doFlush]
        exact ⟨hnext.doFlush (by dsimp only; lia) success, hempty⟩
      · rename_i hsmall
        exact ⟨hnext, by dsimp only at hsmall ⊢; lia⟩
    · rename_i hchannel
      split
      · have hlast := h.doFlush (Nat.le_of_lt hroom) success
        refine ⟨⟨hlast.order, hlast.taken, hlast.sizes, fun _ => ⟨batch_doFlush success, ?_⟩,
          hlast.ingested⟩, ?_⟩
        · exact (channel_doFlush success).trans hchannel
        · dsimp only
          rw [batch_doFlush]
          exact hempty
      · exact ⟨h, hroom⟩
  | tick success =>
    dsimp only
    split
    · rw [batch_doFlush]
      exact ⟨h.doFlush (Nat.le_of_lt hroom) success, hempty⟩
    · exact ⟨h, hroom⟩

end Loop

end Logging
end PrxWaf
