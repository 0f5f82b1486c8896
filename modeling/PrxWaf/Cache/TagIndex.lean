import PrxWaf.Lib.Labelling
import PrxWaf.Lib.Text

/-!
# The tag index

Two maps kept side by side: the keys that carry a tag, for purges by tag, and
the tags of a key, so that the eviction of one key does not search every tag.
-/

namespace PrxWaf
namespace Cache

open Lib

structure TagIndex where
  tagToKeys : AList (fun _ : Text => List Text)
  keyToTags : AList (fun _ : Text => List Text)

namespace TagIndex

def empty : TagIndex :=
  { tagToKeys := ∅, keyToTags := ∅ }

/-- Take a key out of one bucket; an empty bucket is dropped. -/
def removeFromTag (key : Text) (buckets : AList (fun _ : Text => List Text))
    (tag : Text) : AList (fun _ : Text => List Text) :=
  match buckets.lookup tag with
  | some keys =>
    if keys.erase key = [] then buckets.erase tag
    else buckets.insert tag (keys.erase key)
  | none => buckets

def unregister (index : TagIndex) (key : Text) : TagIndex :=
  match index.keyToTags.lookup key with
  | some tags =>
    { tagToKeys := tags.foldl (removeFromTag key) index.tagToKeys
      keyToTags := index.keyToTags.erase key }
  | none => index

def addToTag (key : Text) (buckets : AList (fun _ : Text => List Text))
    (tag : Text) : AList (fun _ : Text => List Text) :=
  buckets.insert tag (((buckets.lookup tag).getD []).insert key)

/-- An empty list of tags leaves the earlier registration of the key. -/
def register (index : TagIndex) (key : Text) (tags : List Text) : TagIndex :=
  if tags = [] then index
  else
    let index := index.unregister key
    { tagToKeys := tags.foldl (addToTag key) index.tagToKeys
      keyToTags := index.keyToTags.insert key tags }

def keysForTag (index : TagIndex) (tag : Text) : List Text :=
  (index.tagToKeys.lookup tag).getD []

def clear (_ : TagIndex) : TagIndex :=
  empty

/-! ## What the index says

The buckets are a labelling of keys with tags, in which a key is detached from the
tags it had and attached to the ones it gets. -/

def bucketsOf (buckets : AList (fun _ : Text => List Text)) : Labelling Text Text :=
  fun tag => (buckets.lookup tag).getD []

theorem bucketsOf_insert (buckets : AList (fun _ : Text => List Text))
    (tag : Text) (keys : List Text) :
    bucketsOf (buckets.insert tag keys) = Function.update (bucketsOf buckets) tag keys := by
  funext t
  unfold bucketsOf
  rcases Decidable.em (t = tag) with rfl | hne
  · rw [AList.lookup_insert, Function.update_self]
    rfl
  · rw [AList.lookup_insert_ne hne, Function.update_of_ne hne]

theorem bucketsOf_erase (buckets : AList (fun _ : Text => List Text)) (tag : Text) :
    bucketsOf (buckets.erase tag) = Function.update (bucketsOf buckets) tag [] := by
  funext t
  unfold bucketsOf
  rcases Decidable.em (t = tag) with rfl | hne
  · rw [AList.lookup_erase, Function.update_self]
    rfl
  · rw [AList.lookup_erase_ne hne, Function.update_of_ne hne]

theorem bucketsOf_addToTag (key : Text) (buckets : AList (fun _ : Text => List Text)) (tag : Text) :
    bucketsOf (addToTag key buckets tag) = Labelling.attach key (bucketsOf buckets) tag :=
  bucketsOf_insert buckets tag _

theorem bucketsOf_removeFromTag (key : Text)
    (buckets : AList (fun _ : Text => List Text)) (tag : Text) :
    bucketsOf (removeFromTag key buckets tag) = Labelling.detach key (bucketsOf buckets) tag := by
  unfold removeFromTag Labelling.detach
  cases hbucket : buckets.lookup tag with
  | none =>
    have hnil : bucketsOf buckets tag = [] := by
      unfold bucketsOf
      rw [hbucket]
      rfl
    have hself : (bucketsOf buckets tag).erase key = bucketsOf buckets tag :=
      by rw [hnil]; rfl
    rw [hself, Function.update_eq_self]
  | some keys =>
    have hkeys : bucketsOf buckets tag = keys := by
      unfold bucketsOf
      rw [hbucket]
      rfl
    rw [hkeys]
    dsimp only
    split
    · rename_i hempty
      rw [hempty, bucketsOf_erase]
    · rw [bucketsOf_insert]

def tagsOf (index : TagIndex) (key : Text) : List Text :=
  (index.keyToTags.lookup key).getD []

structure Consistent (index : TagIndex) : Prop where
  distinct : Labelling.Distinct index.keysForTag
  mem_iff : forall tag key, key ∈ index.keysForTag tag <-> tag ∈ index.tagsOf key

theorem keysForTag_unregister (index : TagIndex) (key : Text) :
    (index.unregister key).keysForTag =
      (index.tagsOf key).foldl (Labelling.detach key) index.keysForTag := by
  unfold unregister tagsOf
  cases index.keyToTags.lookup key with
  | none => rfl
  | some tags =>
    exact (List.foldl_hom bucketsOf (fun b t => (bucketsOf_removeFromTag key b t).symm)).symm

theorem tagsOf_unregister (index : TagIndex) (key k : Text) :
    (index.unregister key).tagsOf k =
      if k = key then [] else index.tagsOf k := by
  unfold unregister tagsOf
  cases hkey : index.keyToTags.lookup key with
  | none =>
    dsimp only
    split
    · rename_i heq
      rw [heq, hkey]
      rfl
    · rfl
  | some tags =>
    dsimp only
    split
    · rename_i heq
      rw [heq, AList.lookup_erase]
      rfl
    · rename_i hne
      rw [AList.lookup_erase_ne hne]

variable {index : TagIndex} {key tag : Text} {tags : List Text}

theorem mem_unregister {k : Text} (hk : k ≠ key) (h : k ∈ index.keysForTag tag) :
    k ∈ (index.unregister key).keysForTag tag := by
  rw [keysForTag_unregister]
  exact (Labelling.mem_foldl_detach_of_ne hk).mpr h

theorem Consistent.unregister (h : index.Consistent)
    (key : Text) : (index.unregister key).Consistent where
  distinct := by
    rw [keysForTag_unregister]
    exact Labelling.distinct_foldl_detach h.distinct key _
  mem_iff := by
    intro tag k
    rw [keysForTag_unregister, Labelling.mem_foldl_detach h.distinct, h.mem_iff, tagsOf_unregister]
    split
    · rename_i heq
      rw [heq]
      simp
    · rename_i hne
      simp [hne]

theorem keysForTag_register (htags : tags ≠ []) (index : TagIndex) (key : Text) :
    (index.register key tags).keysForTag = tags.foldl (Labelling.attach key)
        (index.unregister key).keysForTag := by
  unfold register
  rw [if_neg htags]
  exact (List.foldl_hom bucketsOf (fun b t => (bucketsOf_addToTag key b t).symm)).symm

theorem mem_register {k : Text} (hk : k ≠ key) (h : k ∈ index.keysForTag tag) :
    k ∈ (index.register key tags).keysForTag tag := by
  rcases Decidable.em (tags = []) with rfl | htags
  · exact h
  · rw [keysForTag_register htags]
    exact Labelling.mem_foldl_attach.mpr (Or.inl (mem_unregister hk h))

theorem self_mem_register (htag : tag ∈ tags) :
    key ∈ (index.register key tags).keysForTag tag := by
  rw [keysForTag_register (List.ne_nil_of_mem htag)]
  exact Labelling.mem_foldl_attach.mpr (Or.inr ⟨rfl, htag⟩)

theorem tagsOf_register (htags : tags ≠ []) (index : TagIndex) (key k : Text) :
    (index.register key tags).tagsOf k =
      if k = key then tags else index.tagsOf k := by
  have hother := tagsOf_unregister index key k
  unfold register
  rw [if_neg htags]
  unfold tagsOf at hother ⊢
  dsimp only
  split
  · rename_i heq
    rw [heq, AList.lookup_insert]
    rfl
  · rename_i hne
    rw [if_neg hne] at hother
    rw [AList.lookup_insert_ne hne]
    exact hother

theorem Consistent.register (h : index.Consistent)
    (key : Text) (tags : List Text) : (index.register key tags).Consistent := by
  rcases Decidable.em (tags = []) with rfl | htags
  · exact h
  · have hrest := h.unregister key
    refine ⟨?_, ?_⟩
    · rw [keysForTag_register htags]
      exact Labelling.distinct_foldl_attach hrest.distinct key tags
    · intro tag k
      rw [keysForTag_register htags, Labelling.mem_foldl_attach, hrest.mem_iff,
        tagsOf_unregister, tagsOf_register htags]
      split
      · rename_i heq
        simp [heq]
      · rename_i hne
        simp [hne]

theorem consistent_empty : Consistent empty where
  distinct := fun _ => List.nodup_nil
  mem_iff := fun _ _ => iff_of_false List.not_mem_nil List.not_mem_nil

end TagIndex

end Cache
end PrxWaf
