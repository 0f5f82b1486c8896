import PrxWaf.Cache.TagIndex

/-!
# The tag index and its history

The calls so far say which keys a tag should list.  A registration without tags does
not replace an earlier one, so the index follows its history as long as no key with
tags is registered without any.  Histories are listed from the newest call.
-/

namespace PrxWaf
namespace Cache

open Lib

inductive TagCall where
  | register (key : Text) (tags : List Text)
  | unregister (key : Text)
  | clear

/-- The tags of the latest registration of a key since it was last forgotten. -/
def latestTags (key : Text) : List TagCall -> Option (List Text)
  | [] => none
  | .register k tags :: older =>
    if k = key then some tags else latestTags key older
  | .unregister k :: older => if k = key then none else latestTags key older
  | .clear :: _ => none

/-- The tags of the latest registration that had any. -/
def keptTags (key : Text) : List TagCall -> List Text
  | [] => []
  | .register k tags :: older =>
    if k = key ∧ tags ≠ [] then tags else keptTags key older
  | .unregister k :: older => if k = key then [] else keptTags key older
  | .clear :: _ => []

theorem keptTags_eq {key : Text} {history : List TagCall} (h : latestTags key history ≠ some []) :
    keptTags key history = (latestTags key history).getD [] := by
  induction history with
  | nil => rfl
  | cons call older ih =>
    cases call with
    | register k tags =>
      unfold latestTags at h ⊢
      unfold keptTags
      split at h
      · rename_i heq
        rw [if_pos ⟨heq, fun hnil => h (congrArg some hnil)⟩, if_pos heq]
        rfl
      · rename_i hne
        rw [if_neg (fun hboth => hne hboth.1), if_neg hne]
        exact ih h
    | unregister k =>
      unfold latestTags at h ⊢
      unfold keptTags
      split at h
      · rename_i heq
        rw [if_pos heq, if_pos heq]
        rfl
      · rename_i hne
        rw [if_neg hne, if_neg hne]
        exact ih h
    | clear => rfl

namespace TagIndex

def NoEmptyBucket (buckets : AList (fun _ : Text => List Text)) : Prop :=
  forall tag, buckets.lookup tag ≠ some []

section Buckets

variable {buckets : AList (fun _ : Text => List Text)}

theorem NoEmptyBucket.insert (h : NoEmptyBucket buckets) (tag : Text)
    {keys : List Text} (hkeys : keys ≠ []) :
    NoEmptyBucket (buckets.insert tag keys) := by
  intro t
  rcases eq_or_ne t tag with rfl | hne
  · rw [AList.lookup_insert]
    intro heq
    exact hkeys (Option.some.inj heq)
  · rw [AList.lookup_insert_ne hne]
    exact h t

theorem NoEmptyBucket.erase (h : NoEmptyBucket buckets) (tag : Text) :
    NoEmptyBucket (buckets.erase tag) := by
  intro t
  rcases eq_or_ne t tag with rfl | hne
  · rw [AList.lookup_erase]
    exact nofun
  · rw [AList.lookup_erase_ne hne]
    exact h t

theorem NoEmptyBucket.addToTag (h : NoEmptyBucket buckets) (key tag : Text) :
    NoEmptyBucket (addToTag key buckets tag) :=
  h.insert tag (List.ne_nil_of_mem List.mem_insert_self)

theorem NoEmptyBucket.removeFromTag (h : NoEmptyBucket buckets)
    (key tag : Text) : NoEmptyBucket (removeFromTag key buckets tag) := by
  unfold TagIndex.removeFromTag
  split
  · split
    · exact h.erase tag
    · rename_i hkeys
      exact h.insert tag hkeys
  · exact h

end Buckets

theorem noEmptyBucket_empty : NoEmptyBucket empty.tagToKeys := by
  intro tag
  exact nofun

theorem noEmptyBucket_unregister {index : TagIndex}
    (h : NoEmptyBucket index.tagToKeys) (key : Text) :
    NoEmptyBucket (index.unregister key).tagToKeys := by
  unfold unregister
  split
  · exact List.foldlRecOn _ _ h (fun _ hb tag _ => hb.removeFromTag key tag)
  · exact h

theorem noEmptyBucket_register {index : TagIndex}
    (h : NoEmptyBucket index.tagToKeys) (key : Text) (tags : List Text) :
    NoEmptyBucket (index.register key tags).tagToKeys := by
  unfold register
  split
  · exact h
  · exact List.foldlRecOn _ _ (noEmptyBucket_unregister h key)
      (fun _ hb tag _ => hb.addToTag key tag)

def perform (index : TagIndex) : TagCall -> TagIndex
  | .register key tags => index.register key tags
  | .unregister key => index.unregister key
  | .clear => index.clear

def afterCalls : List TagCall -> TagIndex
  | [] => empty
  | call :: older => (afterCalls older).perform call

theorem consistent_afterCalls (history : List TagCall) :
    (afterCalls history).Consistent := by
  induction history with
  | nil => exact consistent_empty
  | cons call older ih =>
    cases call with
    | register key tags => exact ih.register key tags
    | unregister key => exact ih.unregister key
    | clear => exact consistent_empty

theorem noEmptyBucket_afterCalls (history : List TagCall) :
    NoEmptyBucket (afterCalls history).tagToKeys := by
  induction history with
  | nil => exact noEmptyBucket_empty
  | cons call older ih =>
    cases call with
    | register key tags => exact noEmptyBucket_register ih key tags
    | unregister key => exact noEmptyBucket_unregister ih key
    | clear => exact noEmptyBucket_empty

theorem tagsOf_afterCalls (history : List TagCall) (key : Text) :
    (afterCalls history).tagsOf key = keptTags key history := by
  induction history with
  | nil => rfl
  | cons call older ih =>
    cases call with
    | register k tags =>
      unfold keptTags
      rcases Decidable.em (tags = []) with rfl | htags
      · rw [if_neg (fun hboth => hboth.2 rfl)]
        exact ih
      · refine (tagsOf_register htags _ _ _).trans ?_
        rcases eq_or_ne k key with rfl | hne
        · rw [if_pos rfl, if_pos ⟨rfl, htags⟩]
        · rw [if_neg hne.symm, if_neg (fun hboth => hne hboth.1)]
          exact ih
    | unregister k =>
      unfold keptTags
      refine (tagsOf_unregister _ _ _).trans ?_
      rcases eq_or_ne k key with rfl | hne
      · rw [if_pos rfl, if_pos rfl]
      · rw [if_neg hne.symm, if_neg hne]
        exact ih
    | clear => rfl

/-- A tag lists the keys whose latest registration has it, the two maps say the same,
and no bucket is empty. -/
structure InLockstep (history : List TagCall) : Prop where
  listed : forall tag key,
    key ∈ (afterCalls history).keysForTag tag <->
      exists tags, latestTags key history = some tags ∧ tag ∈ tags
  same : forall tag key,
    key ∈ (afterCalls history).keysForTag tag <-> tag ∈ (afterCalls history).tagsOf key
  compact : NoEmptyBucket (afterCalls history).tagToKeys

/-- The index is in lockstep with its history exactly when no key is left with tags
from before a latest registration without any. -/
theorem inLockstep_iff (history : List TagCall) :
    InLockstep history <-> forall key, latestTags key history = some [] ->
        keptTags key history = [] := by
  have hmem : forall tag key, key ∈ (afterCalls history).keysForTag tag <->
        tag ∈ keptTags key history := by
    intro tag key
    rw [(consistent_afterCalls history).mem_iff, tagsOf_afterCalls]
  constructor
  · intro hlock key hblank
    apply List.eq_nil_iff_forall_not_mem.mpr
    intro tag htag
    obtain ⟨tags, htags, hin⟩ := (hlock.listed tag key).mp ((hmem tag key).mpr htag)
    rw [hblank] at htags
    cases htags
    cases hin
  · intro hkept
    refine ⟨?_, (consistent_afterCalls history).mem_iff, noEmptyBucket_afterCalls history⟩
    intro tag key
    rw [hmem]
    rcases Decidable.em (latestTags key history = some []) with hblank | hrest
    · rw [hkept key hblank, hblank]
      simp
    · rw [keptTags_eq hrest]
      cases latestTags key history with
      | none => simp
      | some tags => simp

/-- A page that lost its tags is still listed under the old one. -/
theorem listed_after_blank_register :
    let history : List TagCall :=
      [.register "page".toList [], .register "page".toList ["news".toList]]
    latestTags "page".toList history = some [] ∧
      "page".toList ∈ (afterCalls history).keysForTag "news".toList := by
  decide

end TagIndex

end Cache
end PrxWaf
