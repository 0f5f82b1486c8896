import Mathlib.Data.List.Basic

/-!
# Copies of a tagged map

Values are written under keys with tags, and erased by key or by tag.  Stores keep
copies of some of them.  A copy is faithful if it holds nothing that is not
current and knows the tags of what it holds; it may have forgotten anything.  What
is read from faithful copies is current.

The log of the operations is listed from the newest.
-/

namespace PrxWaf
namespace Lib

inductive CopyEvent (key tag value : Type) where
  | write (k : key) (v : value) (tags : List tag)
  | erase (covers : key -> Bool)
  | eraseTag (t : tag)
  | read (k : key) (result : Option value)

namespace CopyEvent

variable {key tag value : Type} [DecidableEq key] [DecidableEq tag]

/-- What was written last under a key and not erased since. -/
def current (k : key) : List (CopyEvent key tag value) -> Option (value × List tag)
  | [] => none
  | write other v tags :: log =>
    if other = k then some (v, tags) else current k log
  | erase covers :: log => if covers k then none else current k log
  | eraseTag t :: log => (current k log).filter (fun last => t ∉ last.2)
  | read _ _ :: log => current k log

/-- Every value that was read was current. -/
def ReadsCurrent (log : List (CopyEvent key tag value)) : Prop :=
  forall later k v earlier, log = later ++ read k (some v) :: earlier ->
    exists tags, current k earlier = some (v, tags)

end CopyEvent

open CopyEvent

/-- What a store holds, and which keys it finds under a tag. -/
structure TaggedView (key tag value : Type) where
  holds : key -> Option value
  tagged : tag -> key -> Prop

namespace TaggedView

variable {key tag value : Type} {view next : TaggedView key tag value}

/-- The value of a key is kept and can still be found by its tags. -/
def KeepsKey (view next : TaggedView key tag value) (k : key) : Prop :=
  forall v, next.holds k = some v ->
    view.holds k = some v ∧ forall t, view.tagged t k -> next.tagged t k

variable {k : key}

theorem keepsKey_of_none (h : next.holds k = none) :
    KeepsKey view next k := by
  intro v hv
  rw [h] at hv
  cases hv

theorem KeepsKey.refl (view : TaggedView key tag value) (k : key) :
    KeepsKey view view k :=
  fun _ hv => ⟨hv, fun _ ht => ht⟩

theorem KeepsKey.trans {last : TaggedView key tag value}
    (hfirst : KeepsKey view next k) (hsecond : KeepsKey next last k) :
    KeepsKey view last k := by
  intro v hv
  obtain ⟨hnext, hkept⟩ := hsecond v hv
  obtain ⟨hview, hkept'⟩ := hfirst v hnext
  exact ⟨hview, fun t ht => hkept t (hkept' t ht)⟩

theorem KeepsKey.none {k : key} (hkeeps : KeepsKey view next k)
    (h : view.holds k = none) : next.holds k = none := by
  cases hnext : next.holds k with
  | none => rfl
  | some v =>
    rw [(hkeeps v hnext).1] at h
    cases h

section Folds

variable {state item : Type} (viewOf : state -> TaggedView key tag value)
  {f : state -> item -> state} {items : List item}

theorem foldl_keeps (hf : forall s x, x ∈ items -> KeepsKey (viewOf s) (viewOf (f s x)) k)
    (s : state) : KeepsKey (viewOf s) (viewOf (items.foldl f s)) k := by
  induction items generalizing s with
  | nil => exact KeepsKey.refl _ k
  | cons x rest ih =>
    refine (hf s x List.mem_cons_self).trans ?_
    exact ih (fun s y hy => hf s y (List.mem_cons_of_mem x hy)) (f s x)

theorem foldl_gone {x : item} (hf : forall s y, KeepsKey (viewOf s) (viewOf (f s y)) k)
    (hmem : x ∈ items) (hx : forall s, (viewOf (f s x)).holds k = none)
    (s : state) : (viewOf (items.foldl f s)).holds k = none := by
  induction items generalizing s with
  | nil => cases hmem
  | cons y rest ih =>
    rcases List.mem_cons.mp hmem with rfl | hlater
    · exact (foldl_keeps viewOf (fun s y _ => hf s y) (f s x)).none (hx s)
    · exact ih hlater (f s y)

theorem foldl_tagged {t : tag} {v : value} {x : item}
    (hf : forall s y, KeepsKey (viewOf s) (viewOf (f s y)) k)
    (hmem : x ∈ items) (hx : forall s, (viewOf (f s x)).tagged t k)
    {s : state} (hv : (viewOf (items.foldl f s)).holds k = some v) :
    (viewOf (items.foldl f s)).tagged t k := by
  induction items generalizing s with
  | nil => cases hmem
  | cons y rest ih =>
    rcases List.mem_cons.mp hmem with rfl | hlater
    · exact (foldl_keeps viewOf (fun s y _ => hf s y) (f s x) v hv).2 t (hx s)
    · exact ih hlater hv

end Folds

variable [DecidableEq key] [DecidableEq tag]
  {log : List (CopyEvent key tag value)}

def Faithful (view : TaggedView key tag value) (log : List (CopyEvent key tag value)) : Prop :=
  forall k v, view.holds k = some v ->
    exists tags, current k log = some (v, tags) ∧ forall t, t ∈ tags -> view.tagged t k

theorem faithful_of_holds_none (h : forall k, view.holds k = none) :
    view.Faithful log := by
  intro k v hv
  rw [h k] at hv
  cases hv

theorem Faithful.of_keeps (h : view.Faithful log)
    (hkeeps : forall k, KeepsKey view next k) : next.Faithful log := by
  intro k v hv
  obtain ⟨hold, htags⟩ := hkeeps k v hv
  obtain ⟨tags, hcurrent, htagged⟩ := h k v hold
  exact ⟨tags, hcurrent, fun t ht => htags t (htagged t ht)⟩

theorem Faithful.read (h : view.Faithful log) (k : key)
    (result : Option value) : view.Faithful (.read k result :: log) := h

/-- After a write the store has the new value with its tags, or none. -/
theorem Faithful.write {v : value} {tags : List tag} (h : view.Faithful log)
    (hother : forall other, other ≠ k -> KeepsKey view next other)
    (hself : forall w, next.holds k = some w -> w = v ∧ forall t, t ∈ tags -> next.tagged t k) :
    next.Faithful (.write k v tags :: log) := by
  intro other w hw
  rcases Decidable.em (other = k) with rfl | hne
  · obtain ⟨rfl, htagged⟩ := hself w hw
    exact ⟨tags, if_pos rfl, htagged⟩
  · obtain ⟨hold, hkept⟩ := hother other hne w hw
    obtain ⟨last, hcurrent, htagged⟩ := h other w hold
    exact ⟨last, (if_neg (Ne.symm hne)).trans hcurrent, fun t ht => hkept t (htagged t ht)⟩

/-- After an erasure the store holds nothing that it covers. -/
theorem Faithful.erase {covers : key -> Bool} (h : view.Faithful log)
    (hkeeps : forall k, KeepsKey view next k)
    (hgone : forall k, covers k = true -> next.holds k = none) :
    next.Faithful (.erase covers :: log) := by
  intro k v hv
  obtain ⟨tags, hcurrent, htagged⟩ := h.of_keeps hkeeps k v hv
  refine ⟨tags, (if_neg ?_).trans hcurrent, htagged⟩
  intro hcovers
  rw [hgone k hcovers] at hv
  cases hv

/-- After an erasure by tag the store holds nothing that it had found under the
tag. -/
theorem Faithful.eraseTag {t : tag} (h : view.Faithful log)
    (hkeeps : forall k, KeepsKey view next k)
    (hgone : forall k, view.tagged t k -> next.holds k = none) :
    next.Faithful (.eraseTag t :: log) := by
  intro k v hv
  obtain ⟨hold, hkept⟩ := hkeeps k v hv
  obtain ⟨tags, hcurrent, htagged⟩ := h k v hold
  refine ⟨tags, ?_, fun s hs => hkept s (htagged s hs)⟩
  have hnot : t ∉ tags := by
    intro hmem
    rw [hgone k (htagged t hmem)] at hv
    cases hv
  unfold current
  rw [hcurrent, Option.filter_some, if_pos (decide_eq_true hnot)]

end TaggedView

namespace CopyEvent

variable {key tag value : Type} [DecidableEq key] [DecidableEq tag]
  {log : List (CopyEvent key tag value)}

theorem readsCurrent_nil :
    ReadsCurrent ([] : List (CopyEvent key tag value)) := by
  intro later k v earlier h
  cases later with
  | nil => cases h
  | cons event rest => cases h

theorem not_readsCurrent_of_read (k : key) (v : value) (h : (current k log).map Prod.fst ≠ some v) :
    ¬ ReadsCurrent (.read k (some v) :: log) := by
  intro hreads
  obtain ⟨tags, hcurrent⟩ := hreads [] k v log rfl
  rw [hcurrent] at h
  exact h rfl

theorem ReadsCurrent.cons {event : CopyEvent key tag value} (h : ReadsCurrent log)
    (hevent : forall k v, event = read k (some v) ->
      exists tags, current k log = some (v, tags)) :
    ReadsCurrent (event :: log) := by
  intro later k v earlier hsplit
  cases later with
  | nil =>
    injection hsplit with hhead htail
    rw [← htail]
    exact hevent k v hhead
  | cons first rest =>
    injection hsplit with _ htail
    exact h rest k v earlier htail

end CopyEvent

end Lib
end PrxWaf
