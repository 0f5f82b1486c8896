import PrxWaf.Cache.HostPurge
import PrxWaf.Lib.TaggedCopy

/-!
# What the store in memory keeps

Each operation of the store in memory either keeps an entry, and where its tags
lead to it, or removes it.
-/

namespace PrxWaf
namespace Cache

open Lib

/-- The key belongs to a host: the text after its first colon begins with the host
and a colon. -/
def coversHost (host key : Text) : Bool :=
  match Text.splitOnce ':' key with
  | none => false
  | some (_, rest) => (host ++ [':']).isPrefixOf rest

theorem exists_of_coversHost {host key : Text} (h : coversHost host key = true) :
    exists method rest, ':' ∉ method ∧ key = method ++ ':' :: (host ++ ':' :: rest) := by
  unfold coversHost Text.splitOnce at h
  rcases Decidable.em (':' ∈ key) with hcolon | hcolon
  · rw [if_pos hcolon] at h
    dsimp only at h
    obtain ⟨tail, htail⟩ := List.isPrefixOf_iff_prefix.mp h
    refine ⟨Text.beforeFirst ':' key, tail, ?_, ?_⟩
    · intro hmem
      have := List.mem_takeWhile_imp hmem
      simp at this
    · have hsplit := List.takeWhile_append_dropWhile (p := fun c => decide (c ≠ ':')) (l := key)
      cases hrest : key.dropWhile (fun c => decide (c ≠ ':')) with
      | nil =>
        rw [hrest, List.append_nil] at hsplit
        rw [← hsplit] at hcolon
        have := List.mem_takeWhile_imp hcolon
        simp at this
      | cons c rest =>
        have hc : c = ':' := by
          have := List.head?_dropWhile_not (fun c => decide (c ≠ ':')) key
          rw [hrest] at this
          simpa using this
        rw [hrest, List.tail_cons] at htail
        rw [hrest, hc, ← htail] at hsplit
        rw [List.append_assoc] at hsplit
        exact hsplit.symm
  · rw [if_neg hcolon] at h
    cases h

theorem keyHost_of_coversHost {host key : Text} (hhost : ':' ∉ host)
    (h : coversHost host key = true) : MokaStore.keyHost key = some host := by
  obtain ⟨method, rest, hmethod, rfl⟩ := exists_of_coversHost h
  unfold MokaStore.keyHost
  rw [List.splitOn_append_cons_self, List.splitOn_eq_singleton hmethod,
    List.splitOn_append_cons_self, List.splitOn_eq_singleton hhost]
  rfl

namespace MokaStore

def view (store : MokaStore) (now : Time) : TaggedView Text Text CachedResponse :=
  { holds := store.get now
    tagged := fun tag key => key ∈ store.tagIndex.keysForTag tag }

variable {store : MokaStore} {now : Time} {key k : Text}

theorem get_of_absent (now : Time) (h : store.inner.lookup key = none) :
    store.get now key = none := by
  unfold get
  rw [h]

theorem new_holds (maxTtlSecs : Nat) (now : Time) (k : Text) :
    ((new maxTtlSecs).view now).holds k = none := by
  have habsent : (new maxTtlSecs).inner.lookup k = none := AList.lookup_empty k
  exact get_of_absent now habsent

theorem get_eq_some_of_lookup {other : MokaStore} {v : CachedResponse}
    (hv : other.get now key = some v) (h : other.inner.lookup key = store.inner.lookup key)
    (httl : other.maxTtlSecs = store.maxTtlSecs) :
    store.get now key = some v := by
  rw [get_eq_some_iff, h, httl] at hv
  exact get_eq_some_iff.mpr hv

theorem view_later {later : Time} (hle : now ≤ later) (k : Text) :
    (store.view now).KeepsKey (store.view later) k := by
  intro v hv
  obtain ⟨entry, hentry, hresponse, hlive⟩ := get_eq_some_iff.mp hv
  have hlive' := Nat.lt_of_le_of_lt hle hlive
  exact ⟨get_eq_some_iff.mpr ⟨entry, hentry, hresponse, hlive'⟩, fun _ ht => ht⟩

theorem evict_gone (store : MokaStore) (now : Time) (key : Text) :
    ((store.evict key).view now).holds key = none := by
  refine get_of_absent now ?_
  rw [lookup_evict, if_pos rfl]

theorem evict_keeps (store : MokaStore) (now : Time) (key k : Text) :
    (store.view now).KeepsKey ((store.evict key).view now) k := by
  rcases Decidable.em (k = key) with rfl | hne
  · exact TaggedView.keepsKey_of_none (evict_gone store now k)
  · unfold evict
    cases hentry : store.inner.lookup key with
    | none => exact TaggedView.KeepsKey.refl _ k
    | some entry =>
      intro v hv
      exact ⟨get_eq_some_of_lookup hv (AList.lookup_erase_ne hne) rfl,
        fun t ht => TagIndex.mem_unregister hne ht⟩

theorem put_keeps (value : CachedResponse) (ttlSecs : Nat) (tags : List Text) (hk : k ≠ key) :
    (store.view now).KeepsKey ((store.put now key value ttlSecs tags).1.view now) k := by
  intro v hv
  refine ⟨get_eq_some_of_lookup hv (AList.lookup_insert_ne hk) rfl, ?_⟩
  intro t ht
  refine TagIndex.mem_register hk ?_
  unfold indexAfterInsert
  split
  · split
    · exact TagIndex.mem_unregister hk ht
    · exact ht
  · exact ht

theorem put_self {value w : CachedResponse} {ttlSecs : Nat} {tags : List Text}
    (h : ((store.put now key value ttlSecs tags).1.view now).holds key = some w) :
    w = { value with maxAge := ttlSecs } ∧ forall t, t ∈ tags ->
        ((store.put now key value ttlSecs tags).1.view now).tagged t key := by
  refine ⟨?_, fun t ht => TagIndex.self_mem_register ht⟩
  obtain ⟨entry, hentry, hresponse, -⟩ := get_eq_some_iff.mp h
  have hnew := Option.some.inj ((AList.lookup_insert store.inner).symm.trans hentry)
  rw [← hresponse, ← hnew]

theorem purgeStep_keeps (store : MokaStore) (now : Time) (key k : Text) :
    let purged := { store.evict key with
      tagIndex := (store.evict key).tagIndex.unregister key }
    (store.view now).KeepsKey (purged.view now) k ∧ (purged.view now).holds key = none := by
  intro purged
  have hgone : (purged.view now).holds key = none := evict_gone store now key
  refine ⟨?_, hgone⟩
  rcases Decidable.em (k = key) with rfl | hne
  · exact TaggedView.keepsKey_of_none hgone
  · refine (evict_keeps store now key k).trans ?_
    intro v hv
    exact ⟨hv, fun t ht => TagIndex.mem_unregister hne ht⟩

theorem purgeByTag_keeps (store : MokaStore) (now : Time) (tag k : Text) :
    (store.view now).KeepsKey ((store.purgeByTag now tag).1.view now) k :=
  TaggedView.foldl_keeps (fun store => view store now)
    (fun store key _ => (purgeStep_keeps store now key k).1) store

theorem purgeByTag_gone (tag : Text) (h : (store.view now).tagged tag k) :
    ((store.purgeByTag now tag).1.view now).holds k = none :=
  TaggedView.foldl_gone (fun store => view store now)
    (fun store key => (purgeStep_keeps store now key k).1) h
    (fun store => (purgeStep_keeps store now k k).2) store

theorem purgeHost_keeps (store : MokaStore) (now : Time) (host k : Text) :
    (store.view now).KeepsKey ((store.purgeHost now host).1.view now) k :=
  TaggedView.foldl_keeps (fun store => view store now)
    (fun store key _ => evict_keeps store now key k) store

theorem purgeHost_gone {host : Text} (hhost : ':' ∉ host) (h : coversHost host k = true) :
    ((store.purgeHost now host).1.view now).holds k = none := by
  change (store.purgeHost now host).1.get now k = none
  rw [get_purgeHost, if_pos (keyHost_of_coversHost hhost h)]

theorem flush_gone (store : MokaStore) (now : Time) (k : Text) :
    ((store.flush now).view now).holds k = none := by
  have habsent : (store.flush now).inner.lookup k = none := AList.lookup_empty k
  exact get_of_absent now habsent

end MokaStore

end Cache
end PrxWaf
