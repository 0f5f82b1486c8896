import PrxWaf.Cache.CircuitBreaker

/-!
# The store in memory as a function of its history

When nothing expires, the operations so far say which keys the store in memory
holds and which tags lead to them.  Histories are lists of operations from the
newest.
-/

namespace PrxWaf
namespace Cache

open Lib CircuitBreakerStore

namespace MokaStore

/-- The index is consistent and has tags only for keys that are there. -/
structure Sound (store : MokaStore) : Prop where
  index : store.tagIndex.Consistent
  present : forall k, store.tagIndex.tagsOf k ≠ [] -> (store.inner.lookup k).isSome = true

structure Drops (dropped : Text -> Prop) (s t : MokaStore) : Prop where
  maxTtlSecs : t.maxTtlSecs = s.maxTtlSecs
  index : t.tagIndex.Consistent
  gone : forall k, dropped k -> t.inner.lookup k = none ∧ t.tagIndex.tagsOf k = []
  kept : forall k, ¬ dropped k ->
    t.inner.lookup k = s.inner.lookup k ∧ t.tagIndex.tagsOf k = s.tagIndex.tagsOf k

section Drops

variable {s t u : MokaStore} {p q : Text -> Prop}

theorem Drops.sound (h : Drops p s t) (hs : s.Sound) : t.Sound where
  index := h.index
  present := by
    intro k hk
    rcases Classical.em (p k) with hp | hp
    · exact absurd (h.gone k hp).2 hk
    · rw [(h.kept k hp).2] at hk
      rw [(h.kept k hp).1]
      exact hs.present k hk

theorem Drops.trans (hst : Drops p s t) (htu : Drops q t u) :
    Drops (fun k => p k ∨ q k) s u where
  maxTtlSecs := htu.maxTtlSecs.trans hst.maxTtlSecs
  index := htu.index
  gone := by
    intro k hk
    rcases Classical.em (q k) with hq | hq
    · exact htu.gone k hq
    · have hp := hst.gone k (hk.resolve_right hq)
      rw [(htu.kept k hq).1, (htu.kept k hq).2]
      exact hp
  kept := by
    intro k hk
    have hp := hst.kept k (fun h => hk (Or.inl h))
    have hq := htu.kept k (fun h => hk (Or.inr h))
    exact ⟨hq.1.trans hp.1, hq.2.trans hp.2⟩

theorem Drops.congr (h : Drops p s t) (hpq : forall k, p k <-> q k) :
    Drops q s t := by
  have heq : p = q := funext (fun k => propext (hpq k))
  rw [← heq]
  exact h

theorem drops_foldl {f : MokaStore -> Text -> MokaStore}
    (hf : forall s key, s.Sound -> Drops (fun k => k = key) s (f s key))
    (keys : List Text) (hs : s.Sound) :
    Drops (fun k => k ∈ keys) s (keys.foldl f s) := by
  induction keys generalizing s with
  | nil =>
    exact ⟨rfl, hs.index, fun _ h => absurd h List.not_mem_nil, fun _ _ => ⟨rfl, rfl⟩⟩
  | cons key rest ih =>
    have hfirst := hf s key hs
    have hrest := hfirst.trans (ih (hfirst.sound hs))
    exact hrest.congr (fun k => List.mem_cons.symm)

theorem drops_evict (hs : s.Sound) (key : Text) :
    Drops (fun k => k = key) s (s.evict key) := by
  unfold evict
  cases hentry : s.inner.lookup key with
  | none =>
    have htags : s.tagIndex.tagsOf key = [] := by
      refine Decidable.by_contra (fun hne => ?_)
      have hsome := hs.present key hne
      rw [hentry] at hsome
      cases hsome
    refine ⟨rfl, hs.index, ?_, fun _ _ => ⟨rfl, rfl⟩⟩
    rintro k rfl
    exact ⟨hentry, htags⟩
  | some entry =>
    refine ⟨rfl, hs.index.unregister key, ?_, ?_⟩
    · rintro k rfl
      exact ⟨AList.lookup_erase _ _, (TagIndex.tagsOf_unregister _ _ _).trans (if_pos rfl)⟩
    · intro k hk
      exact ⟨AList.lookup_erase_ne hk, (TagIndex.tagsOf_unregister _ _ _).trans (if_neg hk)⟩

theorem drops_purgeKey (hs : s.Sound) (key : Text) :
    Drops (fun k => k = key) s { s.evict key with
        tagIndex := (s.evict key).tagIndex.unregister key } := by
  have h := drops_evict hs key
  refine ⟨h.maxTtlSecs, h.index.unregister key, ?_, ?_⟩
  · rintro k rfl
    exact ⟨(h.gone k rfl).1, (TagIndex.tagsOf_unregister _ _ _).trans (if_pos rfl)⟩
  · intro k hk
    exact ⟨(h.kept k hk).1, ((TagIndex.tagsOf_unregister _ _ _).trans (if_neg hk)).trans
        (h.kept k hk).2⟩

theorem drops_purgeByTag (hs : s.Sound) (now : Time) (tag : Text) :
    Drops (fun k => tag ∈ s.tagIndex.tagsOf k) s (s.purgeByTag now tag).1 := by
  have h := drops_foldl (fun s key hs => drops_purgeKey hs key) (s.tagIndex.keysForTag tag) hs
  exact h.congr (fun k => hs.index.mem_iff tag k)

end Drops

def Unexpired (store : MokaStore) (now : Time) : Prop :=
  forall k entry, store.inner.lookup k = some entry -> ¬ store.isExpired now entry

theorem get_of_unexpired {store : MokaStore} {now : Time} (h : store.Unexpired now) (k : Text) :
    store.get now k = (store.inner.lookup k).map StoredEntry.response := by
  unfold get
  cases hentry : store.inner.lookup k with
  | none => rfl
  | some entry => exact if_neg (h k entry hentry)

theorem drops_purgeHost {s : MokaStore} {now : Time} (hs : s.Sound)
    (hfresh : s.Unexpired now) (host : Text) :
    Drops (fun k => (s.inner.lookup k).isSome = true ∧ keyHost k = some host) s
      (s.purgeHost now host).1 := by
  have h := drops_foldl (fun s key hs => drops_evict hs key) (s.inner.keys.filter (fun key =>
      (s.get now key).isSome && keyHost key == some host)) hs
  refine h.congr (fun k => ?_)
  rw [List.mem_filter, get_of_unexpired hfresh, Option.isSome_map,
    Bool.and_eq_true, beq_iff_eq, ← AList.mem_keys, ← AList.lookup_isSome, and_self_left]

theorem drops_flush (s : MokaStore) (now : Time) :
    Drops (fun _ => True) s (s.flush now) :=
  ⟨rfl, TagIndex.consistent_empty,
    fun _ _ => ⟨AList.lookup_empty _, rfl⟩, fun _ h => absurd trivial h⟩

end MokaStore

/-- The tag leads to the key: it was among the tags of the last put that gave the
key any, and the key has not been removed since. -/
def TagLeads (key : Text) : Text -> List BackendOp -> Prop
  | _, [] => False
  | tag, .get _ :: older => TagLeads key tag older
  | tag, .put k _ _ tags :: older =>
    if k = key ∧ tags ≠ [] then tag ∈ tags else TagLeads key tag older
  | tag, .remove k :: older => k ≠ key ∧ TagLeads key tag older
  | tag, .purgeByTag t :: older =>
    ¬ TagLeads key t older ∧ TagLeads key tag older
  | tag, .purgeByRouteId t :: older =>
    ¬ TagLeads key t older ∧ TagLeads key tag older
  | tag, .purgeHost host :: older =>
    MokaStore.keyHost key ≠ some host ∧ TagLeads key tag older
  | _, .flush :: _ => False

instance TagLeads.decidable (key : Text) : forall tag history, Decidable (TagLeads key tag history)
  | _, [] => isFalse id
  | tag, .get _ :: older => TagLeads.decidable key tag older
  | tag, .put k _ _ tags :: older =>
    have := TagLeads.decidable key tag older
    inferInstanceAs (Decidable (if k = key ∧ tags ≠ [] then tag ∈ tags else TagLeads key tag older))
  | tag, .remove _ :: older =>
    have := TagLeads.decidable key tag older
    inferInstanceAs (Decidable (_ ∧ _))
  | tag, .purgeByTag t :: older =>
    have := TagLeads.decidable key tag older
    have := TagLeads.decidable key t older
    inferInstanceAs (Decidable (_ ∧ _))
  | tag, .purgeByRouteId t :: older =>
    have := TagLeads.decidable key tag older
    have := TagLeads.decidable key t older
    inferInstanceAs (Decidable (_ ∧ _))
  | tag, .purgeHost _ :: older =>
    have := TagLeads.decidable key tag older
    inferInstanceAs (Decidable (_ ∧ _))
  | _, .flush :: _ => isFalse id

def Held (key : Text) : List BackendOp -> Prop
  | [] => False
  | .get _ :: older => Held key older
  | .put k _ _ _ :: older => k = key ∨ Held key older
  | .remove k :: older => k ≠ key ∧ Held key older
  | .purgeByTag t :: older => ¬ TagLeads key t older ∧ Held key older
  | .purgeByRouteId t :: older => ¬ TagLeads key t older ∧ Held key older
  | .purgeHost host :: older =>
    MokaStore.keyHost key ≠ some host ∧ Held key older
  | .flush :: _ => False

namespace MokaStore

def perform (store : MokaStore) (now : Time) : BackendOp -> MokaStore
  | .get _ => store
  | .put key value ttlSecs tags => (store.put now key value ttlSecs tags).1
  | .remove key => store.remove now key
  | .purgeByTag tag => (store.purgeByTag now tag).1
  | .purgeByRouteId routeId =>
    (CacheBackend.purgeByRouteId store now routeId).1
  | .purgeHost host => (store.purgeHost now host).1
  | .flush => store.flush now

structure Follows (store : MokaStore) (history : List BackendOp) : Prop where
  sound : store.Sound
  held : forall k, (store.inner.lookup k).isSome = true <-> Held k history
  tags : forall k tag, tag ∈ store.tagIndex.tagsOf k <-> TagLeads k tag history

theorem follows_new (maxTtlSecs : Nat) : Follows (new maxTtlSecs) [] where
  sound := ⟨TagIndex.consistent_empty, fun _ h => absurd rfl h⟩
  held := fun _ => iff_of_false (by simp [new]) id
  tags := fun _ _ => iff_of_false List.not_mem_nil id

section Follows

variable {store t : MokaStore} {history : List BackendOp} {now : Time}

theorem follows_of_drops {op : BackendOp} {p : Text -> Prop}
    (h : store.Follows history) (hdrops : Drops p store t)
    (hheld : forall k, Held k (op :: history) <-> ¬ p k ∧ Held k history) (htags : forall k tag,
      TagLeads k tag (op :: history) <-> ¬ p k ∧ TagLeads k tag history) :
    t.Follows (op :: history) where
  sound := hdrops.sound h.sound
  held := by
    intro k
    rw [hheld]
    rcases Classical.em (p k) with hp | hp
    · rw [(hdrops.gone k hp).1]
      simp [hp]
    · rw [(hdrops.kept k hp).1, h.held]
      simp [hp]
  tags := by
    intro k tag
    rw [htags]
    rcases Classical.em (p k) with hp | hp
    · rw [(hdrops.gone k hp).2]
      simp [hp]
    · rw [(hdrops.kept k hp).2, h.tags]
      simp [hp]

theorem indexAfterInsert_of_unexpired (hfresh : store.Unexpired now)
    (key : Text) : store.indexAfterInsert now key = store.tagIndex := by
  unfold indexAfterInsert
  cases hentry : store.inner.lookup key with
  | none => rfl
  | some entry => exact if_neg (hfresh key entry hentry)

theorem lookup_insert_isSome (inner : AList (fun _ : Text => StoredEntry))
    (key k : Text) (entry : StoredEntry) :
    ((inner.insert key entry).lookup k).isSome = true <->
      key = k ∨ (inner.lookup k).isSome = true := by
  rcases Decidable.em (k = key) with rfl | hne
  · rw [AList.lookup_insert]
    simp
  · rw [AList.lookup_insert_ne hne]
    simp [Ne.symm hne]

theorem Follows.held_of_tagLeads (h : store.Follows history) {k tag : Text}
    (htag : TagLeads k tag history) : Held k history :=
  (h.held k).mp (h.sound.present k (List.ne_nil_of_mem ((h.tags k tag).mpr htag)))

theorem follows_put (h : store.Follows history)
    (hfresh : store.Unexpired now) (key : Text) (value : CachedResponse)
    (ttlSecs : Nat) (tags : List Text) :
    (store.put now key value ttlSecs tags).1.Follows (.put key value ttlSecs tags :: history) := by
  have hindex : (store.put now key value ttlSecs tags).1.tagIndex =
      store.tagIndex.register key tags := by
    unfold put
    dsimp only
    rw [indexAfterInsert_of_unexpired hfresh]
  have hheld : forall k, ((store.put now key value ttlSecs tags).1.inner.lookup k).isSome = true <->
        key = k ∨ Held k history := by
    intro k
    rw [← h.held]
    exact lookup_insert_isSome store.inner key k _
  have htags : forall k tag, tag ∈ (store.tagIndex.register key tags).tagsOf k <->
        TagLeads k tag (.put key value ttlSecs tags :: history) := by
    intro k tag
    unfold TagLeads
    rcases Decidable.em (tags = []) with hnil | hne
    · rw [if_neg (fun hboth => hboth.2 hnil), ← h.tags, hnil]
      rfl
    · rw [TagIndex.tagsOf_register hne]
      rcases Decidable.em (k = key) with heq | hkey
      · rw [if_pos heq, if_pos ⟨heq.symm, hne⟩]
      · rw [if_neg hkey, if_neg (fun hboth => hkey hboth.1.symm), h.tags]
  refine ⟨⟨?_, ?_⟩, hheld, ?_⟩
  · rw [hindex]
    exact h.sound.index.register key tags
  · intro k hk
    rw [hindex] at hk
    obtain ⟨tag, htag⟩ := List.exists_mem_of_ne_nil _ hk
    have hleads := (htags k tag).mp htag
    refine (hheld k).mpr ?_
    rw [TagLeads] at hleads
    split at hleads
    · rename_i hput
      exact Or.inl hput.1
    · exact Or.inr (h.held_of_tagLeads hleads)
  · rw [hindex]
    exact htags

theorem follows_perform (h : store.Follows history)
    (hfresh : store.Unexpired now) (op : BackendOp) :
    (store.perform now op).Follows (op :: history) := by
  cases op with
  | get key => exact ⟨h.sound, h.held, h.tags⟩
  | put key value ttlSecs tags =>
    exact follows_put h hfresh key value ttlSecs tags
  | remove key =>
    refine follows_of_drops h (drops_evict h.sound key) (fun k => ?_) (fun k tag => ?_)
    · exact and_congr_left' ne_comm
    · exact and_congr_left' ne_comm
  | purgeByTag tag =>
    refine follows_of_drops h (drops_purgeByTag h.sound now tag) (fun k => ?_) (fun k t => ?_)
    · exact and_congr_left' (not_congr (h.tags k tag)).symm
    · exact and_congr_left' (not_congr (h.tags k tag)).symm
  | purgeByRouteId tag =>
    refine follows_of_drops h (drops_purgeByTag h.sound now tag) (fun k => ?_) (fun k t => ?_)
    · exact and_congr_left' (not_congr (h.tags k tag)).symm
    · exact and_congr_left' (not_congr (h.tags k tag)).symm
  | purgeHost host =>
    refine follows_of_drops h (drops_purgeHost h.sound hfresh host) (fun k => ?_) (fun k tag => ?_)
    · rw [h.held, Held]
      tauto
    · have hheld : TagLeads k tag history -> Held k history := h.held_of_tagLeads
      rw [h.held, TagLeads]
      tauto
  | flush =>
    refine follows_of_drops h (drops_flush store now) (fun k => ?_) (fun k tag => ?_)
    · exact iff_of_false id (fun h => h.1 trivial)
    · exact iff_of_false id (fun h => h.1 trivial)

end Follows

end MokaStore
end Cache
end PrxWaf
