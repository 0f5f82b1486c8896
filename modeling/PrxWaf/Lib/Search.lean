import Mathlib.Data.List.Basic

/-!
# Leftmost-first search

Search for a list of words in a text, as an alternation of literals does it: the
leftmost position at which some word begins counts, among the words that begin
there the one that stands first in the list, and the search goes on behind the
match.  The functions walk the text symbol by symbol; `skip` symbols of the last
match are still to be passed.
-/

namespace PrxWaf
namespace Lib
namespace Search

variable {α : Type} [DecidableEq α]

/-- The word that is found at the front of `s`. -/
def headMatch (ps : List (List α)) (s : List α) : Option (List α) :=
  ps.find? (fun p => p.isPrefixOf s)

/-- The matches in a text that begins at position `i`, as pairs of start and
end. -/
def findFrom (ps : List (List α)) : Nat -> Nat -> List α -> List (Nat × Nat)
  | _, _, [] => []
  | skip + 1, i, _ :: rest => findFrom ps skip (i + 1) rest
  | 0, i, c :: rest =>
    match headMatch ps (c :: rest) with
    | some p => (i, i + p.length) :: findFrom ps (p.length - 1) (i + 1) rest
    | none => findFrom ps 0 (i + 1) rest

def replaceFrom (ps : List (List α)) (mask : List α) : Nat -> List α -> List α
  | _, [] => []
  | skip + 1, _ :: rest => replaceFrom ps mask skip rest
  | 0, c :: rest =>
    match headMatch ps (c :: rest) with
    | some p => mask ++ replaceFrom ps mask (p.length - 1) rest
    | none => c :: replaceFrom ps mask 0 rest

def findAll (ps : List (List α)) (s : List α) : List (Nat × Nat) :=
  findFrom ps 0 0 s

/-- The text `s` with every match replaced by `mask`. -/
def replaceAll (ps : List (List α)) (mask s : List α) : List α :=
  replaceFrom ps mask 0 s

variable {ps : List (List α)} {s : List α}

theorem headMatch_some {p : List α} (h : headMatch ps s = some p) : p ∈ ps ∧ p <+: s := by
  have hpre : p.isPrefixOf s = true := by
    simpa using List.find?_some h
  exact ⟨List.mem_of_find?_eq_some h, List.isPrefixOf_iff_prefix.mp hpre⟩

theorem headMatch_eq_none_iff :
    headMatch ps s = none <-> forall p, p ∈ ps -> ¬ p <+: s := by
  simp only [headMatch, List.find?_eq_none, List.isPrefixOf_iff_prefix]

theorem headMatch_append (h : forall p, p ∈ ps -> p.length ≤ s.length) (r : List α) :
    headMatch ps (s ++ r) = headMatch ps s := by
  have hfront : forall p, p ∈ ps -> p.isPrefixOf (s ++ r) = p.isPrefixOf s := by
    intro p hp
    rw [Bool.eq_iff_iff, List.isPrefixOf_iff_prefix, List.isPrefixOf_iff_prefix]
    constructor
    · intro hpre
      exact List.prefix_of_prefix_length_le hpre (List.prefix_append s r) (h p hp)
    · intro hpre
      exact hpre.trans (List.prefix_append s r)
  unfold headMatch
  clear h
  induction ps with
  | nil => rfl
  | cons p rest ih =>
    rw [List.find?_cons, List.find?_cons, hfront p List.mem_cons_self,
      ih (fun q hq => hfront q (List.mem_cons_of_mem p hq))]

/-! ## Steps of the search -/

section Steps

variable {mask : List α}

theorem findFrom_skip (skip i : Nat) (s : List α) :
    findFrom ps skip i s = findFrom ps 0 (i + skip) (s.drop skip) := by
  induction s generalizing skip i with
  | nil =>
    rw [List.drop_nil]
    simp only [findFrom]
  | cons c rest ih =>
    cases skip with
    | zero => rfl
    | succ k =>
      rw [findFrom, ih, List.drop_succ_cons,
        show i + 1 + k = i + (k + 1) by lia]

theorem replaceFrom_skip (skip : Nat) (s : List α) :
    replaceFrom ps mask skip s = replaceFrom ps mask 0 (s.drop skip) := by
  induction s generalizing skip with
  | nil =>
    rw [List.drop_nil]
    simp only [replaceFrom]
  | cons c rest ih =>
    cases skip with
    | zero => rfl
    | succ k => rw [replaceFrom, ih, List.drop_succ_cons]

variable {i : Nat}

theorem findFrom_of_none (i : Nat) (h : headMatch ps s = none) :
    findFrom ps 0 i s = findFrom ps 0 (i + 1) (s.drop 1) := by
  cases s with
  | nil => simp only [List.drop_nil, findFrom]
  | cons c rest =>
    rw [findFrom, h]
    rfl

theorem bounds_of_mem_findFrom {skip : Nat} {m : Nat × Nat} (h : m ∈ findFrom ps skip i s) :
    m.1 ≤ m.2 ∧ m.2 ≤ i + s.length := by
  induction s generalizing skip i with
  | nil => simp [findFrom] at h
  | cons c rest ih =>
    have hnext : forall skip, m ∈ findFrom ps skip (i + 1) rest ->
        m.1 ≤ m.2 ∧ m.2 ≤ i + (c :: rest).length := by
      intro skip hmem
      obtain ⟨hle, hend⟩ := ih hmem
      exact ⟨hle, by rw [List.length_cons]; lia⟩
    cases skip with
    | succ skip => exact hnext skip h
    | zero =>
      rw [findFrom] at h
      cases hhead : headMatch ps (c :: rest) with
      | none =>
        rw [hhead] at h
        exact hnext 0 h
      | some p =>
        rw [hhead] at h
        rcases List.mem_cons.mp h with rfl | hlater
        · have hlength := (headMatch_some hhead).2.length_le
          exact ⟨Nat.le_add_right i p.length, Nat.add_le_add_left hlength i⟩
        · exact hnext (p.length - 1) hlater

theorem replaceAll_cons_of_none {c : α} (h : headMatch ps (c :: s) = none) :
    replaceAll ps mask (c :: s) = c :: replaceAll ps mask s := by
  rw [replaceAll, replaceFrom, h]
  rfl

theorem replaceAll_gap (n : Nat) (r : List α) (hn : n ≤ s.length)
    (h : forall j, j < n -> headMatch ps (s.drop j ++ r) = none) :
    replaceAll ps mask (s ++ r) = s.take n ++ replaceAll ps mask (s.drop n ++ r) := by
  induction n generalizing s with
  | zero => rfl
  | succ n ih =>
    cases s with
    | nil => exact absurd hn (Nat.not_succ_le_zero n)
    | cons c rest =>
      have hfirst : headMatch ps (c :: (rest ++ r)) = none := h 0 (Nat.succ_pos n)
      rw [List.cons_append, replaceAll_cons_of_none hfirst, ih (Nat.le_of_succ_le_succ hn)
          (fun j hj => h (j + 1) (Nat.succ_lt_succ hj)),
        List.take_succ_cons, List.drop_succ_cons, List.cons_append]

variable (hne : [] ∉ ps)
include hne

theorem findFrom_of_some {p : List α} (i : Nat) (h : headMatch ps s = some p) :
    findFrom ps 0 i s = (i, i + p.length) :: findFrom ps 0 (i + p.length) (s.drop p.length) := by
  rcases headMatch_some h with ⟨hmem, hpre⟩
  have hpos : 0 < p.length := List.length_pos_iff.mpr (fun hnil => hne (hnil ▸ hmem))
  cases s with
  | nil => exact absurd (List.prefix_nil.mp hpre) (List.ne_nil_of_length_pos hpos)
  | cons c rest =>
    rw [findFrom, h]
    simp only [List.cons.injEq, true_and]
    rw [findFrom_skip, show i + 1 + (p.length - 1) = i + p.length by lia]
    congr 1
    conv_rhs => rw [show p.length = p.length - 1 + 1 by lia]
    rw [List.drop_succ_cons]

theorem replaceAll_of_some {p : List α} (h : headMatch ps s = some p) :
    replaceAll ps mask s = mask ++ replaceAll ps mask (s.drop p.length) := by
  rcases headMatch_some h with ⟨hmem, hpre⟩
  have hpos : 0 < p.length := List.length_pos_iff.mpr (fun hnil => hne (hnil ▸ hmem))
  cases s with
  | nil => exact absurd (List.prefix_nil.mp hpre) (List.ne_nil_of_length_pos hpos)
  | cons c rest =>
    rw [replaceAll, replaceFrom, h]
    simp only [List.append_cancel_left_eq]
    rw [replaceFrom_skip, replaceAll]
    congr 1
    conv_rhs => rw [show p.length = p.length - 1 + 1 by lia]
    rw [List.drop_succ_cons]

theorem findFrom_eq_cons {m : Nat × Nat}
    {rest : List (Nat × Nat)} (h : findFrom ps 0 i s = m :: rest) :
    exists n p, m = (i + n, i + n + p.length) ∧ headMatch ps (s.drop n) = some p ∧
      (forall j, j < n -> headMatch ps (s.drop j) = none) ∧
      rest = findFrom ps 0 (i + n + p.length) (s.drop (n + p.length)) := by
  induction s generalizing i with
  | nil => cases h
  | cons c s ih =>
    cases hhead : headMatch ps (c :: s) with
    | none =>
      rw [findFrom_of_none i hhead, List.drop_succ_cons, List.drop_zero] at h
      rcases ih h with ⟨n, p, hm, hmatch, hnone, hrest⟩
      refine ⟨n + 1, p, ?_, hmatch, ?_, ?_⟩
      · rw [hm, show i + 1 + n = i + (n + 1) by lia]
      · intro j hj
        cases j with
        | zero => exact hhead
        | succ j => exact hnone j (Nat.lt_of_succ_lt_succ hj)
      · rw [hrest, show i + 1 + n = i + (n + 1) by lia,
          show n + 1 + p.length = n + p.length + 1 by lia,
          List.drop_succ_cons]
    | some p =>
      rw [findFrom_of_some hne i hhead] at h
      injection h with hm hrest
      refine ⟨0, p, hm.symm, hhead, ?_, ?_⟩
      · intro j hj
        exact absurd hj (Nat.not_lt_zero j)
      · rw [Nat.add_zero, Nat.zero_add]
        exact hrest.symm

/-- Nothing is found exactly if no word stands anywhere in the text. -/
theorem findFrom_eq_nil_iff :
    findFrom ps 0 i s = [] <-> forall p, p ∈ ps -> ¬ p <:+: s := by
  induction s generalizing i with
  | nil =>
    refine iff_of_true rfl ?_
    intro p hp hin
    exact hne (List.infix_nil.mp hin ▸ hp)
  | cons c rest ih =>
    cases hhead : headMatch ps (c :: rest) with
    | none =>
      have hfront := headMatch_eq_none_iff.mp hhead
      rw [findFrom_of_none i hhead, List.drop_succ_cons, List.drop_zero, ih]
      constructor
      · intro hrest p hp hin
        rcases List.infix_cons_iff.mp hin with hpre | hlater
        · exact hfront p hp hpre
        · exact hrest p hp hlater
      · intro hall p hp hin
        exact hall p hp (hin.trans (List.suffix_cons c rest).isInfix)
    | some p =>
      rw [findFrom_of_some hne i hhead]
      rcases headMatch_some hhead with ⟨hmem, hpre⟩
      exact iff_of_false (List.cons_ne_nil _ _) (fun hall => hall p hmem hpre.isInfix)

theorem headMatch_drop_of_findFrom_nil (h : findFrom ps 0 i s = []) (j : Nat) :
    headMatch ps (s.drop j) = none := by
  rw [headMatch_eq_none_iff]
  intro p hp hpre
  exact (findFrom_eq_nil_iff hne).mp h p hp (hpre.isInfix.trans (List.drop_suffix j s).isInfix)

end Steps

end Search
end Lib
end PrxWaf
