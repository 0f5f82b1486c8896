import Mathlib.Data.List.Basic

/-!
# Chains of checks

Checks with a common state are asked in order until one of them answers.
-/

namespace PrxWaf
namespace Lib

/-- A check may change the state and may answer. -/
def Check (state input answer : Type) : Type :=
  state -> input -> state × Option answer

variable {state input answer : Type}

def firstAnswer : List (Check state input answer) -> state -> input -> state × Option answer
  | [], s, _ => (s, none)
  | check :: rest, s, x =>
    match check s x with
    | (s', some r) => (s', some r)
    | (s', none) => firstAnswer rest s' x

variable {check : Check state input answer}
  {front back checks : List (Check state input answer)} {s mid : state}
  {x : input} {r : answer}

theorem firstAnswer_cons_of_none (h : check s x = (mid, none)) :
    firstAnswer (check :: back) s x = firstAnswer back mid x := by
  rw [firstAnswer, h]

theorem firstAnswer_cons_of_some (h : check s x = (mid, some r)) :
    firstAnswer (check :: back) s x = (mid, some r) := by
  rw [firstAnswer, h]

theorem firstAnswer_append_of_none (h : firstAnswer front s x = (mid, none)) :
    firstAnswer (front ++ back) s x = firstAnswer back mid x := by
  induction front generalizing s with
  | nil =>
    injection h with hmid
    rw [hmid]
    rfl
  | cons check rest ih =>
    cases hcheck : check s x with
    | mk s' found =>
      cases found with
      | none =>
        rw [firstAnswer_cons_of_none hcheck] at h
        rw [List.cons_append, firstAnswer_cons_of_none hcheck]
        exact ih h
      | some a =>
        rw [firstAnswer_cons_of_some hcheck] at h
        cases h

theorem firstAnswer_append_of_some (h : firstAnswer front s x = (mid, some r)) :
    firstAnswer (front ++ back) s x = (mid, some r) := by
  induction front generalizing s with
  | nil => cases h
  | cons check rest ih =>
    cases hcheck : check s x with
    | mk s' found =>
      cases found with
      | none =>
        rw [firstAnswer_cons_of_none hcheck] at h
        rw [List.cons_append, firstAnswer_cons_of_none hcheck]
        exact ih h
      | some a =>
        rw [firstAnswer_cons_of_some hcheck] at h
        rw [List.cons_append, firstAnswer_cons_of_some hcheck]
        exact h

theorem firstAnswer_frame {part : Type} (f : state -> part)
    (hframe : forall check, check ∈ checks -> forall s, f (check s x).1 = f s) (s : state) :
    f (firstAnswer checks s x).1 = f s := by
  induction checks generalizing s with
  | nil => rfl
  | cons check rest ih =>
    have hhead := hframe check List.mem_cons_self s
    cases hcheck : check s x with
    | mk s' found =>
      rw [hcheck] at hhead
      cases found with
      | none =>
        rw [firstAnswer_cons_of_none hcheck, ih (fun c hc =>
          hframe c (List.mem_cons_of_mem check hc)), hhead]
      | some a =>
        rw [firstAnswer_cons_of_some hcheck, hhead]

/-! ## Tags

A tag on a check says which check an answer came from.
-/

section Tags

variable {tag : Type}

def tagged (stage : tag × Check state input answer) : Check state input (tag × answer) :=
  fun s x =>
    let result := stage.2 s x
    (result.1, result.2.map (fun a => (stage.1, a)))

variable {stages : List (tag × Check state input answer)}

theorem firstAnswer_tagged (stages : List (tag × Check state input answer))
    (s : state) (x : input) :
    (firstAnswer (stages.map tagged) s x).1 = (firstAnswer (stages.map Prod.snd) s x).1 ∧
      (firstAnswer (stages.map tagged) s x).2.map Prod.snd =
        (firstAnswer (stages.map Prod.snd) s x).2 := by
  induction stages generalizing s with
  | nil => exact ⟨rfl, rfl⟩
  | cons stage rest ih =>
    have htag : tagged stage s x =
        ((stage.2 s x).1, (stage.2 s x).2.map (fun a => (stage.1, a))) := rfl
    rw [List.map_cons, List.map_cons]
    cases hcheck : stage.2 s x with
    | mk s' found =>
      rw [hcheck] at htag
      cases found with
      | none =>
        rw [firstAnswer_cons_of_none htag, firstAnswer_cons_of_none hcheck]
        exact ih s'
      | some a =>
        rw [firstAnswer_cons_of_some htag, firstAnswer_cons_of_some hcheck]
        exact ⟨rfl, rfl⟩

theorem firstAnswer_tagged_mem {t : tag} {a : answer}
    (h : (firstAnswer (stages.map tagged) s x).2 = some (t, a)) :
    t ∈ stages.map Prod.fst := by
  induction stages generalizing s with
  | nil => cases h
  | cons stage rest ih =>
    have htag : tagged stage s x =
        ((stage.2 s x).1, (stage.2 s x).2.map (fun a => (stage.1, a))) := rfl
    rw [List.map_cons] at h ⊢
    cases hcheck : stage.2 s x with
    | mk s' found =>
      rw [hcheck] at htag
      cases found with
      | none =>
        rw [firstAnswer_cons_of_none htag] at h
        exact List.mem_cons_of_mem stage.1 (ih h)
      | some b =>
        rw [firstAnswer_cons_of_some htag] at h
        cases h
        exact List.mem_cons_self

end Tags

end Lib
end PrxWaf
