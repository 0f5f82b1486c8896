import Mathlib.Data.List.Basic

/-!
# Upkeep between calls

A service answers calls, and chores tidy up its state in between.  The chores are
transparent if a state that was tidied up and one that was not stay related, where the
relation may look at the events that are still to come.
-/

namespace PrxWaf
namespace Lib

structure Service (state call chore answer : Type) where
  serve : state -> call -> state × answer
  upkeep : state -> chore -> state

namespace Service

variable {state call chore answer : Type}
  (service : Service state call chore answer)

def answers : state -> List (call ⊕ chore) -> List answer
  | _, [] => []
  | s, .inl c :: rest =>
    (service.serve s c).2 :: answers (service.serve s c).1 rest
  | s, .inr c :: rest => answers (service.upkeep s c) rest

def calls (events : List (call ⊕ chore)) : List (call ⊕ chore) :=
  events.filter Sum.isLeft

theorem answers_calls_of_related {service : Service state call chore answer}
    {R : List (call ⊕ chore) -> state -> state -> Prop}
    (hserve : forall {c rest s t}, R (.inl c :: rest) s t ->
      (service.serve s c).2 = (service.serve t c).2 ∧
        R rest (service.serve s c).1 (service.serve t c).1)
    (hupkeep : forall {c rest s t}, R (.inr c :: rest) s t -> R rest (service.upkeep s c) t)
    {events : List (call ⊕ chore)} {s t : state} (h : R events s t) :
    service.answers s events = service.answers t (calls events) := by
  induction events generalizing s t with
  | nil => rfl
  | cons event rest ih =>
    cases event with
    | inl c =>
      obtain ⟨hanswer, hrest⟩ := hserve h
      change _ :: _ = _ :: _
      rw [hanswer, ih hrest]
      rfl
    | inr c => exact ih (hupkeep h)

end Service

end Lib
end PrxWaf
