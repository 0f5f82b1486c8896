import Mathlib.Data.List.Basic

/-!
# Streaks

An arrival keeps a streak going until a given time.  The streak that a moment
continues is the part of the history in which every arrival came while the one
before it was still good.  Histories are listed from the newest arrival.
-/

namespace PrxWaf
namespace Lib

structure Arrival where
  atMs : Int
  untilMs : Int
  deriving DecidableEq

def streak (now : Int) : List Arrival -> List Arrival
  | [] => []
  | last :: older =>
    if now < last.untilMs then last :: streak last.atMs older else []

variable {now : Int} {last : Arrival} {older : List Arrival}

theorem streak_cons_of_lt (h : now < last.untilMs) :
    streak now (last :: older) = last :: streak last.atMs older :=
  if_pos h

theorem streak_cons_of_le (h : last.untilMs ≤ now) :
    streak now (last :: older) = [] :=
  if_neg (Int.not_lt.mpr h)

theorem streak_isPrefix (now : Int) (history : List Arrival) :
    streak now history <+: history := by
  induction history generalizing now with
  | nil => exact List.prefix_refl []
  | cons last older ih =>
    rcases Decidable.em (now < last.untilMs) with hlt | hle
    · rw [streak_cons_of_lt hlt]
      exact List.cons_prefix_cons.mpr ⟨rfl, ih last.atMs⟩
    · rw [streak_cons_of_le (Int.not_lt.mp hle)]
      exact List.nil_prefix

theorem mem_of_mem_streak {a : Arrival} {history : List Arrival}
    (h : a ∈ streak now history) : a ∈ history :=
  (streak_isPrefix now history).subset h

end Lib
end PrxWaf
