import Mathlib.Logic.Basic

/-!
# Runs of a step function

A system is given by a partial step function: `none` means that the action is
not enabled in the state.  This module collects the run of a list of actions,
the states along it, and the rule that turns a one-step preservation lemma into
a fact about every run.
-/

namespace PrxWaf
namespace Lib

variable {state : Type u} {action : Type v}

/-- Take the actions one after another; a disabled action ends the run. -/
def runFrom (step : state -> action -> Option state) : state -> List action -> Option state
  | s, [] => some s
  | s, a :: rest =>
    match step s a with
    | none => none
    | some s' => runFrom step s' rest

/--
Every action of the run is taken in a state that, with the action, meets `ok`.
-/
def StepsMeet (step : state -> action -> Option state)
    (ok : state -> action -> Prop) : state -> List action -> Prop
  | _, [] => True
  | s, a :: rest =>
    ok s a ∧
      match step s a with
      | none => True
      | some s' => StepsMeet step ok s' rest

instance StepsMeet.decidable (step : state -> action -> Option state)
    (ok : state -> action -> Prop) [hok : forall s a, Decidable (ok s a)] :
    forall s acts, Decidable (StepsMeet step ok s acts)
  | _, [] => isTrue trivial
  | s, a :: rest =>
    match hok s a, hstep : step s a with
    | isFalse hnot, _ => isFalse (fun h => hnot h.left)
    | isTrue hmeet, none =>
      isTrue (And.intro hmeet (by rw [hstep]; trivial))
    | isTrue hmeet, some s' =>
      match StepsMeet.decidable step ok s' rest with
      | isTrue hrest =>
        isTrue (And.intro hmeet (by rw [hstep]; exact hrest))
      | isFalse hnot =>
        isFalse (fun h => hnot (by
          have hright := h.right
          rw [hstep] at hright
          exact hright))

section Runs

variable {step : state -> action -> Option state}
variable {ok : state -> action -> Prop}

variable {s s' : state} {a : action} {rest : List action} {I : state -> Prop}

theorem runFrom_cons_of_some (rest : List action) (h : step s a = some s') :
    runFrom step s (a :: rest) = runFrom step s' rest := by
  rw [runFrom, h]

theorem runFrom_cons_some {t : state} (h : runFrom step s (a :: rest) = some t) :
    exists s', step s a = some s' ∧ runFrom step s' rest = some t := by
  rw [runFrom] at h
  cases hstep : step s a with
  | none =>
    rw [hstep] at h
    cases h
  | some s' =>
    rw [hstep] at h
    exact ⟨s', rfl, h⟩

theorem runFrom_append_some {t : state} {front back : List action}
    (h : runFrom step s (front ++ back) = some t) :
    exists mid, runFrom step s front = some mid ∧ runFrom step mid back = some t := by
  induction front generalizing s with
  | nil =>
    exact ⟨s, rfl, h⟩
  | cons a rest ih =>
    rcases runFrom_cons_some h with ⟨s', hstep, hrest⟩
    rcases ih hrest with ⟨mid, hmid, hback⟩
    exact ⟨mid, by rw [runFrom_cons_of_some rest hstep, hmid], hback⟩

theorem stepsMeet_cons_of_some (hmeet : StepsMeet step ok s (a :: rest))
    (hstep : step s a = some s') :
    ok s a ∧ StepsMeet step ok s' rest := by
  have hright := hmeet.right
  rw [hstep] at hright
  exact ⟨hmeet.left, hright⟩

theorem stepsMeet_cons
    (hok : ok s a) (hstep : step s a = some s') (hrest : StepsMeet step ok s' rest) :
    StepsMeet step ok s (a :: rest) := by
  refine ⟨hok, ?_⟩
  rw [hstep]
  exact hrest

theorem stepsMeet_append {mid : state} {front back : List action}
    (hmeet : StepsMeet step ok s (front ++ back)) (hfront : runFrom step s front = some mid) :
    StepsMeet step ok s front ∧ StepsMeet step ok mid back := by
  induction front generalizing s with
  | nil =>
    cases hfront
    exact ⟨trivial, hmeet⟩
  | cons a rest ih =>
    rcases runFrom_cons_some hfront with ⟨s', hstep, hrest⟩
    rcases stepsMeet_cons_of_some hmeet hstep with ⟨hok, htail⟩
    rcases ih htail hrest with ⟨hleft, hback⟩
    exact ⟨stepsMeet_cons hok hstep hleft, hback⟩

theorem stepsMeet_true (s : state) (acts : List action) :
    StepsMeet step (fun _ _ => True) s acts := by
  induction acts generalizing s with
  | nil =>
    trivial
  | cons a rest ih =>
    refine ⟨trivial, ?_⟩
    cases hstep : step s a with
    | none =>
      trivial
    | some s' =>
      exact ih s'

/--
The invariant rule: what every step that meets `ok` preserves, a run of such
steps preserves.
-/
theorem runFrom_invariant (hpreserve : forall {s a s'},
      I s -> ok s a -> step s a = some s' -> I s') {s t : state} {acts : List action} (hs : I s)
    (hmeet : StepsMeet step ok s acts) (hrun : runFrom step s acts = some t) : I t := by
  induction acts generalizing s with
  | nil =>
    cases hrun
    exact hs
  | cons a rest ih =>
    rcases runFrom_cons_some hrun with ⟨s', hstep, hrest⟩
    rcases stepsMeet_cons_of_some hmeet hstep with ⟨hok, htail⟩
    exact ih (hpreserve hs hok hstep) htail hrest

theorem stepsMeet_of_forall {acts : List action}
    (h : forall s a, a ∈ acts -> ok s a) : StepsMeet step ok s acts := by
  induction acts generalizing s with
  | nil =>
    trivial
  | cons a rest ih =>
    refine ⟨h s a List.mem_cons_self, ?_⟩
    cases step s a with
    | none =>
      trivial
    | some s' =>
      exact ih (fun s b hb => h s b (List.mem_cons_of_mem a hb))

/--
In a system that can always take the next action, a condition on the actions is
one on the list of them.
-/
theorem stepsMeet_iff_forall {good : action -> Prop}
    (htotal : forall s a, (step s a).isSome = true) {s : state} {acts : List action} :
    StepsMeet step (fun _ a => good a) s acts <-> forall a, a ∈ acts -> good a := by
  constructor
  · intro hmeet
    induction acts generalizing s with
    | nil =>
      intro a ha
      cases ha
    | cons a rest ih =>
      rcases Option.isSome_iff_exists.mp (htotal s a) with ⟨s', hstep⟩
      rcases stepsMeet_cons_of_some hmeet hstep with ⟨hgood, htail⟩
      intro b hb
      rcases List.mem_cons.mp hb with heq | hmem
      · rw [heq]
        exact hgood
      · exact ih htail b hmem
  · intro hall
    exact stepsMeet_of_forall (fun _ a ha => hall a ha)

/--
Two conditions that say the same of a step from a state with the invariant say
the same of a run, if the steps that meet them keep the invariant.
-/
theorem stepsMeet_iff_of_invariant {within good : state -> action -> Prop}
    (hiff : forall {s a}, I s -> within s a -> (good s a <-> ok s a))
    (hpreserve : forall {s a s'}, I s -> within s a -> ok s a -> step s a = some s' -> I s')
    {s : state} {acts : List action} (hs : I s) (hwithin : StepsMeet step within s acts) :
    StepsMeet step good s acts <-> StepsMeet step ok s acts := by
  induction acts generalizing s with
  | nil =>
    exact Iff.rfl
  | cons a rest ih =>
    unfold StepsMeet
    rw [hiff hs hwithin.left]
    apply and_congr_right
    intro hok
    cases hstep : step s a with
    | none =>
      exact Iff.rfl
    | some s' =>
      rcases stepsMeet_cons_of_some hwithin hstep with ⟨hin, htail⟩
      exact ih (hpreserve hs hin hok hstep) htail

/--
What holds of every step that meets `ok` in a state with the invariant holds of
all steps of a run of such steps.
-/
theorem stepsMeet_of_invariant {good : state -> action -> Prop}
    (hpreserve : forall {s a s'}, I s -> ok s a -> step s a = some s' -> I s')
    (hgood : forall {s a}, I s -> ok s a -> good s a) {s : state} {acts : List action} (hs : I s)
    (hmeet : StepsMeet step ok s acts) : StepsMeet step good s acts := by
  have hiff : forall {s a}, I s -> ok s a -> (good s a <-> True) :=
    fun hs hok => iff_true_intro (hgood hs hok)
  exact (stepsMeet_iff_of_invariant hiff
    (fun hs hok _ hstep => hpreserve hs hok hstep) hs hmeet).mpr (stepsMeet_true s acts)

/--
The origin rule: what a state has at the end of a run, and did not have at its
start, was made by one of the steps.
-/
theorem runFrom_origin {item : Type w} (has : state -> item -> Prop)
    (made : state -> action -> item -> Prop) (horigin : forall {s a s' x},
      step s a = some s' -> has s' x -> has s x ∨ made s a x)
    {s t : state} {acts : List action} {x : item}
    (hrun : runFrom step s acts = some t) (hx : has t x) :
    has s x ∨
      exists front a back mid, acts = front ++ a :: back ∧
        runFrom step s front = some mid ∧ made mid a x := by
  induction acts generalizing s with
  | nil =>
    cases hrun
    exact Or.inl hx
  | cons a rest ih =>
    rcases runFrom_cons_some hrun with ⟨s', hstep, hrest⟩
    rcases ih hrest with hs' | ⟨front, b, back, mid, heq, hfront, hmade⟩
    · rcases horigin hstep hs' with hs | hmade
      · exact Or.inl hs
      · exact Or.inr ⟨[], a, rest, s, rfl, rfl, hmade⟩
    · refine Or.inr ⟨a :: front, b, back, mid, ?_, ?_, hmade⟩
      · rw [heq, List.cons_append]
      · rw [runFrom_cons_of_some front hstep, hfront]

end Runs

end Lib
end PrxWaf
