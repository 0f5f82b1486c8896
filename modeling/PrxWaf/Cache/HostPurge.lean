import PrxWaf.Cache.Freshness

/-!
# Purging a host

The keys of the cache are texts in which the method, the host and the path are put
together with colons.  A purge of a host takes the second piece of each key for its
host, whatever the parts of the key were.
-/

namespace PrxWaf
namespace Cache

open Lib

namespace MokaStore

theorem lookup_evict (store : MokaStore) (key k : Text) :
    (store.evict key).inner.lookup k =
      if k = key then none else store.inner.lookup k := by
  unfold evict
  cases hentry : store.inner.lookup key with
  | none =>
    dsimp only
    split
    · rename_i heq
      rw [heq, hentry]
    · rfl
  | some entry =>
    dsimp only
    split
    · rename_i heq
      rw [heq, AList.lookup_erase]
    · rename_i hne
      rw [AList.lookup_erase_ne hne]

theorem lookup_foldl_evict (keys : List Text) (store : MokaStore) (k : Text) :
    (keys.foldl evict store).inner.lookup k =
      if k ∈ keys then none else store.inner.lookup k := by
  induction keys generalizing store with
  | nil => rfl
  | cons key rest ih =>
    rw [List.foldl_cons, ih, lookup_evict]
    rcases Decidable.em (k ∈ rest) with hrest | hrest
    · rw [if_pos hrest, if_pos (List.mem_cons_of_mem key hrest)]
    · rw [if_neg hrest]
      rcases eq_or_ne k key with rfl | hne
      · rw [if_pos rfl, if_pos List.mem_cons_self]
      · rw [if_neg hne, if_neg (fun hmem => (List.mem_cons.mp hmem).elim hne hrest)]

theorem get_congr {s t : MokaStore} {key : Text} (now : Time)
    (hlookup : s.inner.lookup key = t.inner.lookup key)
    (httl : s.maxTtlSecs = t.maxTtlSecs) : s.get now key = t.get now key := by
  refine Option.ext ?_
  intro response
  rw [get_eq_some_iff, get_eq_some_iff, hlookup, httl]

theorem get_purgeHost (store : MokaStore) (now : Time) (host key : Text) :
    (store.purgeHost now host).1.get now key =
      if keyHost key = some host then none else store.get now key := by
  have hlookup : (store.purgeHost now host).1.inner.lookup key =
      if key ∈ store.inner.keys.filter (fun key =>
          (store.get now key).isSome && keyHost key == some host) then none
      else store.inner.lookup key :=
    lookup_foldl_evict _ store key
  have httl := (purgeHost_shrinks store now host).left
  split at hlookup
  · rename_i hmem
    have hboth := (List.mem_filter.mp hmem).2
    rw [Bool.and_eq_true, beq_iff_eq] at hboth
    rw [if_pos hboth.2]
    unfold get
    rw [hlookup]
  · rename_i hnot
    rw [get_congr now hlookup httl]
    split
    · rename_i hhost
      -- the key is not among those removed, so it was not served before
      cases hget : store.get now key with
      | none => rfl
      | some response =>
        obtain ⟨entry, hentry, -⟩ := get_eq_some_iff.mp hget
        refine absurd (List.mem_filter.mpr ⟨?_, ?_⟩) hnot
        · exact AList.lookup_isSome.mp (Option.isSome_of_eq_some hentry)
        · rw [hget, hhost]
          simp
    · rfl

end MokaStore

structure KeyParts where
  method : Text
  host : Text
  path : Text
  query : Text

namespace KeyParts

def key (parts : KeyParts) : Text :=
  ResponseCache.makeKey parts.method parts.host parts.path parts.query

/-- The host that a purge reads from the key: the second of the pieces of the method
and the host. -/
def readHost (parts : KeyParts) : Option Text :=
  (parts.method.splitOn ':' ++ parts.host.splitOn ':')[1]?

theorem keyHost_key (parts : KeyParts) :
    MokaStore.keyHost parts.key = parts.readHost := by
  have hsplit : exists rest, parts.key = parts.method ++ ':' :: (parts.host ++ ':' :: rest) := by
    unfold key ResponseCache.makeKey
    split
    · exact ⟨parts.path, by simp⟩
    · exact ⟨parts.path ++ '?' :: parts.query, by simp⟩
  obtain ⟨rest, hrest⟩ := hsplit
  have hmethod := List.length_pos_iff.mpr (List.splitOn_ne_nil ':' parts.method)
  have hhost := List.length_pos_iff.mpr (List.splitOn_ne_nil ':' parts.host)
  unfold MokaStore.keyHost readHost
  rw [hrest, List.splitOn_append_cons_self, List.splitOn_append_cons_self,
    ← List.append_assoc, List.getElem?_append_left]
  rw [List.length_append]
  lia

theorem splitOn_append_getElem?_zero (s : Text) (pieces : List Text) :
    (s.splitOn ':' ++ pieces)[0]? = some (Text.beforeFirst ':' s) := by
  rcases Decidable.em (':' ∈ s) with hmem | hnot
  · rcases List.eq_append_cons_of_mem hmem with ⟨first, rest, rfl, hfirst⟩
    rw [List.splitOn_append_cons_self, List.splitOn_eq_singleton hfirst,
      Text.beforeFirst_append_cons hfirst]
    rfl
  · rw [List.splitOn_eq_singleton hnot, Text.beforeFirst_eq_self hnot]
    rfl

theorem readHost_of_plain_method {parts : KeyParts} (hmethod : ':' ∉ parts.method) :
    parts.readHost = some (Text.beforeFirst ':' parts.host) := by
  unfold readHost
  rw [List.splitOn_eq_singleton hmethod, ← List.append_nil (parts.host.splitOn ':')]
  exact splitOn_append_getElem?_zero parts.host []

theorem readHost_of_colon {parts : KeyParts} {first more : Text} (hfirst : ':' ∉ first)
    (hmethod : parts.method = first ++ ':' :: more) :
    parts.readHost = some (Text.beforeFirst ':' more) := by
  unfold readHost
  rw [hmethod, List.splitOn_append_cons_self, List.splitOn_eq_singleton hfirst]
  exact splitOn_append_getElem?_zero more _

/-- With a method without a colon, a host with one is neither the host in question nor
begins with it; with a method that has a colon, the text after that is the host in
question exactly if the host is. -/
def Legible (parts : KeyParts) (host : Text) : Prop :=
  (':' ∉ parts.method -> ':' ∈ parts.host ->
    parts.host ≠ host ∧ Text.beforeFirst ':' parts.host ≠ host) ∧
  forall first more, ':' ∉ first -> parts.method = first ++ ':' :: more ->
    (Text.beforeFirst ':' more = host <-> parts.host = host)

theorem legible_iff_of_plain {parts : KeyParts} (hmethod : ':' ∉ parts.method) (host : Text) :
    parts.Legible host <-> (Text.beforeFirst ':' parts.host = host <-> parts.host = host) := by
  have hnone : forall first more, parts.method ≠ first ++ ':' :: more := by
    intro first more h
    rw [h] at hmethod
    exact hmethod (List.mem_append_right _ List.mem_cons_self)
  have hlegible : parts.Legible host <-> (':' ∈ parts.host ->
      parts.host ≠ host ∧ Text.beforeFirst ':' parts.host ≠ host) := by
    constructor
    · intro h
      exact h.1 hmethod
    · intro h
      exact ⟨fun _ => h, fun first more _ heq => absurd heq (hnone first more)⟩
  rw [hlegible]
  rcases Decidable.em (':' ∈ parts.host) with hmem | hnot
  · have hshort : Text.beforeFirst ':' parts.host ≠ parts.host := by
      rcases List.eq_append_cons_of_mem hmem with ⟨first, rest, heq, hfirst⟩
      rw [heq, Text.beforeFirst_append_cons hfirst]
      simp
    constructor
    · intro h
      exact iff_of_false (h hmem).2 (h hmem).1
    · intro h _
      constructor
      · intro hhost
        exact hshort ((h.mpr hhost).trans hhost.symm)
      · intro hhost
        exact hshort (hhost.trans (h.mp hhost).symm)
  · rw [Text.beforeFirst_eq_self hnot]
    exact iff_of_true (fun hmem => absurd hmem hnot) Iff.rfl

theorem legible_iff_of_colon {parts : KeyParts} {first more : Text} (hfirst : ':' ∉ first)
    (hmethod : parts.method = first ++ ':' :: more) (host : Text) :
    parts.Legible host <-> (Text.beforeFirst ':' more = host <-> parts.host = host) := by
  have hmem : ':' ∈ parts.method := by
    rw [hmethod]
    exact List.mem_append_right _ List.mem_cons_self
  constructor
  · intro h
    exact h.2 first more hfirst hmethod
  · intro h
    refine ⟨fun hnot => absurd hmem hnot, ?_⟩
    intro first' more' hfirst' hmethod'
    have hmore := readHost_of_colon hfirst' hmethod'
    rw [readHost_of_colon hfirst hmethod] at hmore
    injection hmore with hmore
    rw [← hmore]
    exact h

theorem legible_iff (parts : KeyParts) (host : Text) :
    parts.Legible host <-> (parts.readHost = some host <-> parts.host = host) := by
  rcases Decidable.em (':' ∈ parts.method) with hmem | hnot
  · rcases List.eq_append_cons_of_mem hmem with ⟨first, more, hmethod, hfirst⟩
    rw [legible_iff_of_colon hfirst hmethod, readHost_of_colon hfirst hmethod, Option.some_inj]
  · rw [legible_iff_of_plain hnot, readHost_of_plain_method hnot, Option.some_inj]

end KeyParts

/-- A store with the parts that each of its keys was built from. -/
structure BuiltStore where
  store : MokaStore
  origin : Text -> KeyParts
  built : forall key, (store.inner.lookup key).isSome = true -> (origin key).key = key

namespace BuiltStore

theorem built_of_get (content : BuiltStore) {now : Time} {key : Text}
    (h : (content.store.get now key).isSome = true) :
    (content.origin key).key = key := by
  obtain ⟨response, hget⟩ := Option.isSome_iff_exists.mp h
  obtain ⟨entry, hentry, -⟩ := MokaStore.get_eq_some_iff.mp hget
  exact content.built key (Option.isSome_of_eq_some hentry)

/-- The entries built with the host are gone, and all others are as before. -/
def PurgesExactly (content : BuiltStore) (now : Time) (host : Text) : Prop :=
  forall key,
    (content.store.purgeHost now host).1.get now key =
      if (content.origin key).host = host then none
      else content.store.get now key

/-- A purge is exact for the content when the colons of the method and the host of no
entry get in its way. -/
theorem purgesExactly_iff (content : BuiltStore) (now : Time) (host : Text) :
    content.PurgesExactly now host <-> forall key, (content.store.get now key).isSome = true ->
        (content.origin key).Legible host := by
  unfold PurgesExactly
  apply forall_congr'
  intro key
  rw [MokaStore.get_purgeHost, KeyParts.legible_iff]
  cases hget : content.store.get now key with
  | none => simp
  | some response =>
    have hread := (content.origin key).keyHost_key
    rw [content.built_of_get (Option.isSome_of_eq_some hget)] at hread
    rw [hread]
    split
    · rename_i hyes
      simp [hyes]
    · rename_i hno
      simp [hno]

def ported : KeyParts :=
  { method := "GET".toList
    host := "example.com:8080".toList
    path := "/".toList
    query := [] }

def page : CachedResponse :=
  { status := 200, headers := [], body := [], maxAge := 60 }

def portedContent : BuiltStore where
  store := ((MokaStore.new 60).put 0 ported.key page 60 []).1
  origin := fun _ => ported
  built := by
    intro key hkey
    have hmem := AList.lookup_isSome.mp hkey
    rcases (AList.mem_insert _).mp hmem with heq | hnone
    · exact heq.symm
    · cases hnone

/-- The purge of the host leaves its page, and the purge of another removes it. -/
theorem ported_host_missed :
    (portedContent.store.purgeHost 1 "example.com:8080".toList).1.get 1 ported.key = some page ∧
      (portedContent.store.purgeHost 1 "example.com".toList).1.get 1 ported.key = none := by
  rw [MokaStore.get_purgeHost, MokaStore.get_purgeHost]
  decide

end BuiltStore

end Cache
end PrxWaf
