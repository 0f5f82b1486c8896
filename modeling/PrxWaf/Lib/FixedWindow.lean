import Mathlib.Data.List.Basic
import Mathlib.Data.List.Count

/-!
# Windows of a fixed length

An arrival opens a window unless one is open.  Those that come within a length of
it are counted in it.  Arrivals are listed from the newest.
-/

namespace PrxWaf
namespace Lib

structure FixedWindow where
  start : Int
  count : Nat
  deriving DecidableEq

/-- The window that the newest arrival is counted in. -/
def windowOf (length : Int) : List Int -> Option FixedWindow
  | [] => none
  | now :: older =>
    match windowOf length older with
    | none => some { start := now, count := 1 }
    | some window =>
      if now < window.start + length then
        some { window with count := window.count + 1 }
      else some { start := now, count := 1 }

def Closed (length now : Int) (older : List Int) : Prop :=
  forall window, windowOf length older = some window -> window.start + length ≤ now

section Newest

variable {length now : Int} {older : List Int} {window : FixedWindow}

theorem windowOf_cons_of_open (h : windowOf length older = some window)
    (hlt : now < window.start + length) :
    windowOf length (now :: older) = some { window with count := window.count + 1 } := by
  unfold windowOf
  rw [h]
  exact if_pos hlt

theorem windowOf_cons_of_closed (h : Closed length now older) :
    windowOf length (now :: older) = some { start := now, count := 1 } := by
  unfold windowOf
  cases hwindow : windowOf length older with
  | none => rfl
  | some window => exact if_neg (Int.not_lt.mpr (h window hwindow))

theorem closed_or_open (length now : Int) (older : List Int) :
    Closed length now older ∨
      exists window, windowOf length older = some window ∧ now < window.start + length := by
  cases hwindow : windowOf length older with
  | none =>
    refine Or.inl (fun window h => ?_)
    rw [hwindow] at h
    cases h
  | some window =>
    rcases Int.lt_or_le now (window.start + length) with hlt | hle
    · exact Or.inr ⟨window, rfl, hlt⟩
    · refine Or.inl (fun other h => ?_)
      rw [hwindow] at h
      cases h
      exact hle

theorem windowOf_lt (hlength : 0 < length) (h : windowOf length (now :: older) = some window) :
    now < window.start + length := by
  rcases closed_or_open length now older with hclosed | ⟨last, hlast, hlt⟩
  · rw [windowOf_cons_of_closed hclosed] at h
    cases h
    dsimp only
    lia
  · rw [windowOf_cons_of_open hlast hlt] at h
    cases h
    exact hlt

theorem windowOf_count_le {arrivals : List Int} (hsorted : arrivals.Pairwise (· ≥ ·))
    (h : windowOf length arrivals = some window) :
    window.start ∈ arrivals ∧ window.count ≤ arrivals.countP (fun t => window.start ≤ t) := by
  induction arrivals generalizing window with
  | nil => cases h
  | cons now older ih =>
    rcases closed_or_open length now older with hclosed | ⟨last, hlast, hlt⟩
    · rw [windowOf_cons_of_closed hclosed] at h
      cases h
      refine ⟨List.mem_cons_self, ?_⟩
      rw [List.countP_cons_of_pos (by simp)]
      exact Nat.le_add_left 1 _
    · rw [windowOf_cons_of_open hlast hlt] at h
      cases h
      rcases ih hsorted.of_cons hlast with ⟨hmem, hcount⟩
      refine ⟨List.mem_cons_of_mem now hmem, ?_⟩
      have hle : last.start ≤ now := List.rel_of_pairwise_cons hsorted hmem
      rw [List.countP_cons_of_pos (by simpa using hle)]
      exact Nat.succ_le_succ hcount

theorem windowOf_count_pos {arrivals : List Int}
    (h : windowOf length arrivals = some window) : 0 < window.count := by
  cases arrivals with
  | nil => cases h
  | cons now older =>
    rcases closed_or_open length now older with hclosed | ⟨last, hlast, hlt⟩
    · rw [windowOf_cons_of_closed hclosed] at h
      cases h
      exact Nat.one_pos
    · rw [windowOf_cons_of_open hlast hlt] at h
      cases h
      exact Nat.succ_pos _

theorem windowOf_replicate_of_open (h : windowOf length older = some window)
    (hlt : now < window.start + length) (n : Nat) :
    windowOf length (List.replicate n now ++ older) =
      some { window with count := window.count + n } := by
  induction n with
  | zero => exact h
  | succ n ih => exact windowOf_cons_of_open ih hlt

theorem windowOf_replicate_of_closed (hlength : 0 < length)
    (h : Closed length now older) (n : Nat) :
    windowOf length (List.replicate (n + 1) now ++ older) =
      some { start := now, count := n + 1 } := by
  induction n with
  | zero => exact windowOf_cons_of_closed h
  | succ n ih => exact windowOf_cons_of_open ih (by dsimp only; lia)

end Newest

end Lib
end PrxWaf
