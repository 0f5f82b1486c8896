import Mathlib.Data.List.DropRight
import PrxWaf.Lib.Table

/-!
# Sliding windows

Items arrive with a time, and each arrival removes the items before its cutoff.
A window counts the different members among the items that are left.  One way to
keep it is a queue that gives up items at its front only, another is a table with
one time for each member.  Histories are listed from the newest item.
-/

namespace PrxWaf
namespace Lib

section Fresh

variable {item other : Type} (time : item -> Int) (cut : Int -> Int)

/-- The items that no cutoff has passed since they arrived. -/
def fresh : List item -> List item
  | [] => []
  | last :: older =>
    (last :: fresh older).filter (fun x => cut (time last) ≤ time x)

/-- When the cutoff passes an item it passes the items before it. -/
def PassesInOrder (cutoff : Int) (items : List item) : Prop :=
  items.Pairwise (fun x y => time x < cutoff -> time y < cutoff)

/-- Each cutoff passes what is left of the history in order. -/
def Orderly : List item -> Prop
  | [] => True
  | last :: older =>
    PassesInOrder time (cut (time last)) (last :: fresh time cut older) ∧ Orderly older

instance (cutoff : Int) (items : List item) : Decidable (PassesInOrder time cutoff items) :=
  inferInstanceAs (Decidable (items.Pairwise _))

instance Orderly.decidable : (items : List item) -> Decidable (Orderly time cut items)
  | [] => isTrue True.intro
  | last :: older =>
    have := Orderly.decidable older
    inferInstanceAs (Decidable
      (PassesInOrder time (cut (time last)) (last :: fresh time cut older) ∧
        Orderly time cut older))

variable {time cut}

theorem fresh_map (f : other -> item) (items : List other) :
    fresh time cut (items.map f) = (fresh (fun x => time (f x)) cut items).map f := by
  induction items with
  | nil => rfl
  | cons last older ih =>
    rw [List.map_cons, fresh, ih, ← List.map_cons, List.filter_map]
    rfl

theorem orderly_map (f : other -> item) (items : List other) :
    Orderly time cut (items.map f) <-> Orderly (fun x => time (f x)) cut items := by
  induction items with
  | nil => exact Iff.rfl
  | cons last older ih =>
    rw [List.map_cons, Orderly, Orderly, ih, fresh_map, ← List.map_cons]
    unfold PassesInOrder
    rw [List.pairwise_map]

theorem fresh_sublist (items : List item) :
    (fresh time cut items).Sublist items := by
  induction items with
  | nil => exact List.Sublist.refl []
  | cons last older ih => exact List.filter_sublist.trans (ih.cons_cons last)

variable {items : List item}

theorem orderly_of_sorted (hsorted : items.Pairwise (fun x y => time y ≤ time x)) :
    Orderly time cut items := by
  induction items with
  | nil => exact True.intro
  | cons last older ih =>
    refine ⟨?_, ih hsorted.of_cons⟩
    have hsub : (last :: fresh time cut older).Sublist (last :: older) :=
      (fresh_sublist older).cons_cons last
    refine (hsorted.sublist hsub).imp ?_
    intro x y hyx hx
    exact lt_of_le_of_lt hyx hx

theorem orderly_of_append {front : List item}
    (h : Orderly time cut (front ++ items)) : Orderly time cut items := by
  induction front with
  | nil => exact h
  | cons last older ih => exact ih h.2

theorem rdropWhile_cons_of_neg {p : item -> Bool} {x : item} {rest : List item}
    (hx : ¬ p x = true) :
    (x :: rest).rdropWhile p = x :: rest.rdropWhile p := by
  unfold List.rdropWhile
  rw [List.reverse_cons, List.dropWhile_append]
  split
  · rename_i hempty
    rw [List.dropWhile_cons_of_neg hx, List.isEmpty_iff.mp hempty]
    rfl
  · rw [List.reverse_append]
    rfl

theorem rdropWhile_append_of_neg {p : item -> Bool} {y : item}
    {front rest : List item} (hmem : y ∈ rest) (hy : ¬ p y = true) :
    (front ++ rest).rdropWhile p = front ++ rest.rdropWhile p := by
  have hkept : rest.reverse.dropWhile p ≠ [] := by
    intro hnil
    exact hy (List.dropWhile_eq_nil_iff.mp hnil y (List.mem_reverse.mpr hmem))
  unfold List.rdropWhile
  rw [List.reverse_append, List.dropWhile_append, if_neg, List.reverse_append, List.reverse_reverse]
  rw [List.isEmpty_iff]
  exact hkept

theorem rdropWhile_of_passesInOrder {cutoff : Int} (h : PassesInOrder time cutoff items) :
    items.rdropWhile (fun x => time x < cutoff) = items.filter (fun x => cutoff ≤ time x) := by
  induction items with
  | nil => rfl
  | cons last older ih =>
    have hrest := List.pairwise_cons.mp h
    rcases Decidable.em (time last < cutoff) with hlast | hlast
    · have hall : forall x, x ∈ last :: older -> time x < cutoff := by
        intro x hx
        rcases List.mem_cons.mp hx with rfl | hx
        · exact hlast
        · exact hrest.1 x hx hlast
      rw [List.rdropWhile_eq_nil_iff.mpr, List.filter_eq_nil_iff.mpr]
      · intro x hx
        have := hall x hx
        simpa using this
      · intro x hx
        exact decide_eq_true (hall x hx)
    · rw [List.filter_cons_of_pos (by simpa using hlast), ← ih hrest.2]
      exact rdropWhile_cons_of_neg (by simpa using hlast)

theorem find_filter_of_passesInOrder {cutoff : Int}
    (h : PassesInOrder time cutoff items) (p : item -> Bool) :
    ((items.filter (fun x => cutoff ≤ time x)).find? p).map time =
      ((items.find? p).map time).filter (fun ts => cutoff ≤ ts) := by
  induction items with
  | nil => rfl
  | cons last older ih =>
    have hrest := List.pairwise_cons.mp h
    rcases Decidable.em (cutoff ≤ time last) with hlast | hlast
    · rw [List.filter_cons_of_pos (by simpa using hlast), List.find?_cons, List.find?_cons]
      split
      · exact (Option.filter_some_pos (by simpa using hlast)).symm
      · exact ih hrest.2
    · have hnil : older.filter (fun x => cutoff ≤ time x) = [] := by
        refine List.filter_eq_nil_iff.mpr ?_
        intro x hx
        simpa using hrest.1 x hx (Int.not_le.mp hlast)
      rw [List.filter_cons_of_neg (by simpa using hlast), List.find?_cons]
      split
      · rw [hnil, List.find?_nil]
        exact (Option.filter_some_neg (by simpa using hlast)).symm
      · exact ih hrest.2

end Fresh

structure Window (member : Type) where
  deque : List (member × Int)
  counts : Table member Nat

namespace Window

variable {member : Type} [DecidableEq member]

def empty : Window member :=
  { deque := [], counts := Table.empty }

def push (window : Window member) (m : member) (ts : Int) : Window member :=
  { deque := window.deque ++ [(m, ts)]
    counts := window.counts.insert m ((window.counts.lookup m).getD 0 + 1) }

/-- One occurrence less.  A member without any is removed. -/
def uncount (m : member) (counts : Table member Nat) : Table member Nat :=
  match counts.lookup m with
  | some c => if c - 1 = 0 then counts.erase m else counts.insert m (c - 1)
  | none => counts

def evictFrom (cutoff : Int) : List (member × Int) -> Table member Nat -> Window member
  | [], counts => { deque := [], counts := counts }
  | (m, ts) :: rest, counts =>
    if cutoff ≤ ts then { deque := (m, ts) :: rest, counts := counts }
    else evictFrom cutoff rest (uncount m counts)

def evict (window : Window member) (cutoff : Int) : Window member :=
  evictFrom cutoff window.deque window.counts

def card (window : Window member) : Nat :=
  window.counts.size

def occurrences (m : member) (deque : List (member × Int)) : Nat :=
  (deque.map Prod.fst).count m

/-- The table holds the number of occurrences of every member that has some. -/
def Counted (deque : List (member × Int)) (counts : Table member Nat) : Prop :=
  forall m, counts.lookup m =
    if occurrences m deque = 0 then none else some (occurrences m deque)

variable (cutoff : Int) {window : Window member} {counts : Table member Nat}

theorem counted_push (h : Counted window.deque window.counts) (m : member) (ts : Int) :
    Counted (window.push m ts).deque (window.push m ts).counts := by
  intro a
  have hoccurrences : occurrences a (window.push m ts).deque =
      occurrences a window.deque + if m = a then 1 else 0 := by
    simp [occurrences, push, List.count_singleton]
  rw [hoccurrences]
  unfold push
  dsimp only
  rcases eq_or_ne a m with ha | ha
  · rw [ha, if_pos rfl, if_neg (Nat.succ_ne_zero _), Table.lookup_insert_self, h m]
    split
    · rename_i hzero
      rw [hzero]
      rfl
    · rfl
  · rw [if_neg ha.symm, Table.lookup_insert_of_ne ha, h a]
    rfl

theorem counted_uncount {m : member} {ts : Int} {rest : List (member × Int)}
    (h : Counted ((m, ts) :: rest) counts) :
    Counted rest (uncount m counts) := by
  intro a
  have hm : counts.lookup m = some (occurrences m rest + 1) := by
    rw [h m]
    simp [occurrences]
  unfold uncount
  rw [hm]
  dsimp only
  rw [Nat.add_sub_cancel]
  rcases eq_or_ne a m with ha | ha
  · rw [ha]
    split
    · exact Table.lookup_erase_self
    · exact Table.lookup_insert_self
  · have hoccurrences : occurrences a ((m, ts) :: rest) = occurrences a rest := by
      simp [occurrences, ha.symm]
    have hlookup := h a
    rw [hoccurrences] at hlookup
    split
    · rw [Table.lookup_erase_of_ne ha, hlookup]
    · rw [Table.lookup_insert_of_ne ha, hlookup]

theorem counted_evictFrom {deque : List (member × Int)} (h : Counted deque counts) :
    Counted (evictFrom cutoff deque counts).deque (evictFrom cutoff deque counts).counts := by
  induction deque generalizing counts with
  | nil => exact h
  | cons first rest ih =>
    unfold evictFrom
    split
    · exact h
    · exact ih (counted_uncount h)

theorem deque_evictFrom (deque : List (member × Int)) (counts : Table member Nat) :
    (evictFrom cutoff deque counts).deque = deque.dropWhile (fun x => x.2 < cutoff) := by
  induction deque generalizing counts with
  | nil => rfl
  | cons first rest ih =>
    unfold evictFrom
    split
    · rename_i hle
      rw [List.dropWhile_cons_of_neg (by simpa using hle)]
    · rename_i hlt
      rw [ih, List.dropWhile_cons_of_pos (by simpa using hlt)]

/-- The size of the table is the number of different members in the queue. -/
theorem card_of_counted (h : Counted window.deque window.counts) :
    window.card = (window.deque.map Prod.fst).toFinset.card := by
  refine Table.size_eq_card ?_
  intro m
  rw [h m, List.mem_toFinset, ← List.count_pos_iff]
  unfold occurrences
  split
  · simp [*]
  · simp [Nat.pos_iff_ne_zero, *]

end Window

/-!
## Both after a history

The queue drops from its front until an item is fresh, the table drops every stale item.
On a history in order this is the same.
-/

section After

variable {item member : Type} [DecidableEq member]
variable (time : item -> Int) (cut : Int -> Int) (who : item -> member)

def Window.after : List item -> Window member
  | [] => Window.empty
  | last :: older =>
    ((after older).push (who last) (time last)).evict (cut (time last))

def scoresAfter : List item -> Table member Int
  | [] => Table.empty
  | last :: older =>
    ((scoresAfter older).insert (who last) (time last)).retain (fun ts => cut (time last) ≤ ts)

variable {time cut who}

theorem Window.after_map {other : Type} (f : other -> item) (items : List other) :
    Window.after time cut who (items.map f) =
      Window.after (fun x => time (f x)) cut (fun x => who (f x)) items := by
  induction items with
  | nil => rfl
  | cons last older ih =>
    rw [List.map_cons, after, ih]
    rfl

theorem scoresAfter_map {other : Type} (f : other -> item) (items : List other) :
    scoresAfter time cut who (items.map f) =
      scoresAfter (fun x => time (f x)) cut (fun x => who (f x)) items := by
  induction items with
  | nil => rfl
  | cons last older ih =>
    rw [List.map_cons, scoresAfter, ih]
    rfl

theorem Window.counted_after (items : List item) :
    Counted (Window.after time cut who items).deque (Window.after time cut who items).counts := by
  induction items with
  | nil =>
    intro m
    exact Table.lookup_empty m
  | cons last older ih =>
    exact counted_evictFrom _ (counted_push ih (who last) (time last))

variable {last : item} {older left : List item}

theorem Window.deque_after_cons (h : (Window.after time cut who older).deque =
      ((fresh time cut older).map (fun x => (who x, time x))).reverse) :
    (Window.after time cut who (last :: older)).deque =
      (((last :: fresh time cut older).rdropWhile (fun x => time x < cut (time last))).map
          (fun x => (who x, time x))).reverse := by
  unfold Window.after evict
  rw [deque_evictFrom]
  have hpush : ((Window.after time cut who older).push (who last) (time last)).deque =
      ((last :: fresh time cut older).map (fun x => (who x, time x))).reverse := by
    unfold push
    dsimp only
    rw [h, List.map_cons, List.reverse_cons]
  rw [hpush, ← List.map_reverse, List.dropWhile_map, List.rdropWhile,
    List.map_reverse, List.reverse_reverse]
  rfl

variable {items : List item}

theorem Window.deque_after (h : Orderly time cut items) :
    (Window.after time cut who items).deque =
      ((fresh time cut items).map (fun x => (who x, time x))).reverse := by
  induction items with
  | nil => rfl
  | cons last older ih =>
    rw [deque_after_cons (ih h.2), rdropWhile_of_passesInOrder h.1]
    rfl

theorem Window.members_of_deque
    (h : (Window.after time cut who items).deque = (left.map (fun x => (who x, time x))).reverse) :
    (Window.after time cut who items).card = (left.map who).toFinset.card := by
  rw [card_of_counted (counted_after items), h, List.map_reverse,
    List.toFinset_reverse, List.map_map]
  rfl

theorem Window.card_after (h : Orderly time cut items) :
    (Window.after time cut who items).card = ((fresh time cut items).map who).toFinset.card :=
  members_of_deque (deque_after h)

theorem lookup_scores_insert {scores : Table member Int} (h : forall m, scores.lookup m =
      (left.find? (fun x => who x = m)).map time) (last : item) (m : member) :
    (scores.insert (who last) (time last)).lookup m =
      ((last :: left).find? (fun x => who x = m)).map time := by
  rw [List.find?_cons]
  rcases eq_or_ne (who last) m with hm | hm
  · rw [hm, Table.lookup_insert_self]
    simp
  · rw [Table.lookup_insert_of_ne hm.symm, h m]
    simp [hm]

theorem lookup_scoresAfter (h : Orderly time cut items) (m : member) :
    (scoresAfter time cut who items).lookup m =
      ((fresh time cut items).find? (fun x => who x = m)).map time := by
  induction items generalizing m with
  | nil => exact Table.lookup_empty m
  | cons last older ih =>
    unfold scoresAfter
    rw [Table.lookup_retain, lookup_scores_insert (ih h.2), ← find_filter_of_passesInOrder h.1]
    rfl

theorem size_scoresAfter (h : Orderly time cut items) :
    (scoresAfter time cut who items).size = ((fresh time cut items).map who).toFinset.card := by
  refine Table.size_eq_card ?_
  intro m
  rw [lookup_scoresAfter h, List.mem_toFinset, List.mem_map]
  simp [List.find?_isSome]

theorem card_renamed {name : Type} [DecidableEq name] (rename : member -> name)
    {left : List item} (h : forall x, x ∈ left -> forall y, y ∈ left ->
      rename (who x) = rename (who y) -> who x = who y) :
    (left.map (fun x => rename (who x))).toFinset.card = (left.map who).toFinset.card := by
  have himage : (left.map (fun x => rename (who x))).toFinset =
      (left.map who).toFinset.image rename := by
    refine Finset.ext ?_
    intro n
    simp
  rw [himage]
  refine Finset.card_image_of_injOn ?_
  intro m hm n hn hmn
  rw [Finset.mem_coe, List.mem_toFinset, List.mem_map] at hm hn
  obtain ⟨x, hx, rfl⟩ := hm
  obtain ⟨y, hy, rfl⟩ := hn
  exact h x hx y hy hmn

section Separation

variable {x y : item} {a b : member}

theorem Window.card_after_eq_two (h : Orderly time cut older)
    (hsub : [x, y].Sublist (fresh time cut older))
    (hy : cut (time last) ≤ time y) (hab : a ≠ b) (hlast : who last = a)
    (hx : who x = b) (hwho : forall z, who z = a ∨ who z = b) :
    (Window.after time cut who (last :: older)).card = 2 := by
  obtain ⟨newer, rest, hsplit, hnewer, hrest⟩ := List.cons_sublist_iff.mp hsub
  have hleft : (Window.after time cut who (last :: older)).deque =
      (((last :: fresh time cut older).rdropWhile (fun x => time x < cut (time last))).map
          (fun x => (who x, time x))).reverse := deque_after_cons (deque_after h)
  rw [hsplit, ← List.cons_append, rdropWhile_append_of_neg
    (List.singleton_sublist.mp hrest) (by simpa using hy)] at hleft
  rw [members_of_deque hleft, ← Finset.card_pair hab]
  refine congrArg Finset.card (Finset.ext ?_)
  intro m
  rw [List.mem_toFinset, List.mem_map, Finset.mem_insert, Finset.mem_singleton]
  constructor
  · rintro ⟨z, -, rfl⟩
    exact hwho z
  · rintro (rfl | rfl)
    · exact ⟨last, by simp, hlast⟩
    · exact ⟨x, by simp [hnewer], hx⟩

theorem size_scoresAfter_eq_one (h : Orderly time cut older)
    (hpassed : forall z, who z = a ∨ time z < cut (time last))
    (hreach : cut (time last) ≤ time last) (hlast : who last = a) :
    (scoresAfter time cut who (last :: older)).size = 1 := by
  rw [← Finset.card_singleton a]
  refine Table.size_eq_card ?_
  intro m
  unfold scoresAfter
  rw [Table.lookup_retain, lookup_scores_insert (lookup_scoresAfter h), Finset.mem_singleton]
  constructor
  · intro hsome
    obtain ⟨ts, hts⟩ := Option.isSome_iff_exists.mp hsome
    rw [Option.filter_eq_some_iff] at hts
    obtain ⟨z, hfind, rfl⟩ := Option.map_eq_some_iff.mp hts.1
    have hz : who z = m := by simpa using List.find?_some hfind
    rcases hpassed z with hwho | hlt
    · rw [← hz, hwho]
    · exact absurd (of_decide_eq_true hts.2) (Int.not_le.mpr hlt)
  · rintro rfl
    rw [List.find?_cons, decide_eq_true hlast]
    simpa using hreach

end Separation

/-- If a cutoff passes an item but not one before it, two members suffice to tell
the queue from the table, under whatever names the table keeps them. -/
theorem cards_differ (hreach : cut (time last) ≤ time last) (h : Orderly time cut older)
    (hnot : ¬ PassesInOrder time (cut (time last)) (last :: fresh time cut older))
    {a b : member} (hab : a ≠ b) :
    exists who : item -> member, (Window.after time cut who (last :: older)).card = 2 ∧
        forall {name : Type} [DecidableEq name] (rename : member -> name),
          (scoresAfter time cut (fun x => rename (who x)) (last :: older)).size = 1 := by
  classical
  unfold PassesInOrder at hnot
  rw [List.pairwise_iff_forall_sublist] at hnot
  push Not at hnot
  obtain ⟨x, y, hsub, hx, hy⟩ := hnot
  have hne : last ≠ x := by
    rintro rfl
    exact absurd hreach (Int.not_le.mpr hx)
  rcases List.sublist_cons_iff.mp hsub with hsub | ⟨rest, hrest, -⟩
  · refine ⟨fun z => if z = x then b else a, ?_, ?_⟩
    · refine Window.card_after_eq_two h hsub hy hab (if_neg hne) (if_pos rfl) ?_
      intro z
      split
      · exact Or.inr rfl
      · exact Or.inl rfl
    · intro name _ rename
      refine size_scoresAfter_eq_one h ?_ hreach (congrArg rename (if_neg hne))
      intro z
      rcases eq_or_ne z x with hz | hz
      · exact Or.inr (hz ▸ hx)
      · exact Or.inl (congrArg rename (if_neg hz))
  · exact absurd (List.cons.inj hrest).1.symm hne

end After

end Lib
end PrxWaf
