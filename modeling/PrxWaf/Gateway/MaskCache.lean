import PrxWaf.Gateway.BodyMask
import PrxWaf.Gateway.Request
import PrxWaf.Lib.Run

/-!
# The cache of compiled masks

The mask of a site is compiled once and kept under the address of the
configuration.  The map does not hold the configuration itself: when the router
and the requests have let go of it, the allocator may give its address to another,
and the map still has the mask of the old one.
-/

namespace PrxWaf
namespace Gateway

open Lib Cache

abbrev Address := Nat

/-- A shared value with the address that it was allocated at. -/
structure Arc (value : Type) where
  asPtr : Address
  value : value

structure MaskedHost extends HostConfig where
  internalPatterns : List Bytes
  maskToken : Bytes
  bodyMaskMaxBytes : Nat

def MaskedHost.ownMask (host : MaskedHost) (engine : RegexEngine) : CompiledMask :=
  CompiledMask.build engine host.internalPatterns host.maskToken host.bodyMaskMaxBytes

abbrev MaskMap := AList (fun _ : Address => CompiledMask)

def resolveMask (engine : RegexEngine) (masks : MaskMap)
    (hc : Arc MaskedHost) : MaskMap × CompiledMask :=
  match masks.lookup hc.asPtr with
  | some existing => (masks, existing)
  | none =>
    let compiled := hc.value.ownMask engine
    (masks.insert hc.asPtr compiled, compiled)

abbrev ArcRoutes := HostRoutes (Arc MaskedHost)

def ArcRoutes.held (router : ArcRoutes) : List (Arc MaskedHost) :=
  router.routes.entries.map Sigma.snd

/-- The routes, the configurations of the requests in flight, and the masks. -/
structure MaskWorld where
  routes : ArcRoutes
  inFlight : List (Arc MaskedHost)
  masks : MaskMap

inductive MaskEvent where
  | register (config : MaskedHost) (asPtr : Address)
  | unregister (host : Text) (port : UInt16)
  | arrive (hostHeader : Text)
  | mask (index : Nat)
  | finish (index : Nat)

namespace MaskWorld

def start : MaskWorld :=
  { routes := .new, inFlight := [], masks := ∅ }

def live (s : MaskWorld) : List (Arc MaskedHost) :=
  s.routes.held ++ s.inFlight

/-- A configuration is allocated at an address that no live one has; one that
nothing refers to any more is dropped. -/
def step (engine : RegexEngine) (s : MaskWorld) : MaskEvent -> Option MaskWorld
  | .register config asPtr =>
    if asPtr ∈ s.live.map Arc.asPtr then none
    else
      some { s with
        routes := s.routes.register config.toHostConfig { asPtr := asPtr, value := config } }
  | .unregister host port =>
    some { s with routes := s.routes.unregister host port }
  | .arrive hostHeader =>
    (s.routes.resolve hostHeader).map (fun hc =>
      { s with inFlight := s.inFlight ++ [hc] })
  | .mask index =>
    s.inFlight[index]?.map (fun hc =>
      { s with masks := (resolveMask engine s.masks hc).1 })
  | .finish index =>
    some { s with inFlight := s.inFlight.eraseIdx index }

def MasksOwn (engine : RegexEngine) (s : MaskWorld) : Prop :=
  forall hc, hc ∈ s.inFlight -> (resolveMask engine s.masks hc).2 = hc.value.ownMask engine

/-- The address of a new configuration has no mask, or the one that the new
configuration would get. -/
def CleanAddress (engine : RegexEngine) (s : MaskWorld) : MaskEvent -> Prop
  | .register config asPtr =>
    forall compiled, s.masks.lookup asPtr = some compiled -> compiled = config.ownMask engine
  | _ => True

variable {router : ArcRoutes} {added hc : Arc MaskedHost} {key : Text}

theorem held_insert (h : hc ∈ ArcRoutes.held { routes := router.routes.insert key added }) :
    hc = added ∨ hc ∈ router.held := by
  unfold ArcRoutes.held at h ⊢
  rw [AList.entries_insert, List.map_cons] at h
  rcases List.mem_cons.mp h with hnew | hold
  · exact Or.inl hnew
  · have hsub := (List.kerase_sublist key router.routes.entries).map Sigma.snd
    exact Or.inr (hsub.subset hold)

theorem held_erase (h : hc ∈ ArcRoutes.held { routes := router.routes.erase key }) :
    hc ∈ router.held :=
  ((List.kerase_sublist key router.routes.entries).map Sigma.snd).subset h

theorem held_register {config : HostConfig}
    (h : hc ∈ ArcRoutes.held (router.register config added)) :
    hc = added ∨ hc ∈ router.held := by
  unfold HostRoutes.register at h
  dsimp only at h
  split at h
  · rcases @held_insert { routes := router.routes.insert _ added } _ _ _ h with hnew | hfirst
    · exact Or.inl hnew
    · exact held_insert hfirst
  · exact held_insert h

theorem held_unregister {host : Text} {port : UInt16}
    (h : hc ∈ ArcRoutes.held (router.unregister host port)) : hc ∈ router.held := by
  unfold HostRoutes.unregister at h
  dsimp only at h
  split at h
  · exact held_erase (@held_erase { routes := router.routes.erase _ } _ _ h)
  · exact held_erase h

theorem held_of_lookup (h : router.routes.lookup key = some hc) : hc ∈ router.held :=
  List.mem_map.mpr ⟨⟨key, hc⟩, AList.mem_lookup_iff.mp h, rfl⟩

theorem held_of_resolve {hostHeader : Text} (h : router.resolve hostHeader = some hc) :
    hc ∈ router.held := by
  unfold HostRoutes.resolve at h
  split at h
  · rename_i found hlookup
    injection h with h
    rw [← h]
    exact held_of_lookup hlookup
  · exact held_of_lookup h

variable {engine : RegexEngine} {s t : MaskWorld}

/-- Live configurations have addresses of their own, and the masks under these
addresses belong to them. -/
structure Invariant (engine : RegexEngine) (s : MaskWorld) : Prop where
  distinct : forall a b, a ∈ s.live -> b ∈ s.live -> a.asPtr = b.asPtr -> a = b
  own : forall hc compiled, hc ∈ s.live ->
    s.masks.lookup hc.asPtr = some compiled -> compiled = hc.value.ownMask engine

theorem invariant_of_subset (h : Invariant engine s) (hmasks : t.masks = s.masks)
    (hlive : forall hc, hc ∈ t.live -> hc ∈ s.live) : Invariant engine t := by
  constructor
  · intro a b ha hb
    exact h.distinct a b (hlive a ha) (hlive b hb)
  · intro hc compiled hhc hlookup
    rw [hmasks] at hlookup
    exact h.own hc compiled (hlive hc hhc) hlookup

theorem invariant_register {config : MaskedHost} {asPtr : Address}
    (h : Invariant engine s) (hfree : asPtr ∉ s.live.map Arc.asPtr)
    (hclean : CleanAddress engine s (.register config asPtr)) :
    Invariant engine { s with
      routes := s.routes.register config.toHostConfig { asPtr := asPtr, value := config } } := by
  have hlive : forall hc, hc ∈ ({ s with
      routes := s.routes.register config.toHostConfig { asPtr := asPtr, value := config } } :
        MaskWorld).live ->
      hc = { asPtr := asPtr, value := config } ∨ hc ∈ s.live := by
    intro hc hhc
    rcases List.mem_append.mp hhc with hrouted | hflying
    · rcases held_register hrouted with hnew | hold
      · exact Or.inl hnew
      · exact Or.inr (List.mem_append_left _ hold)
    · exact Or.inr (List.mem_append_right _ hflying)
  have hother : forall hc, hc ∈ s.live -> hc.asPtr ≠ asPtr := by
    intro hc hhc heq
    exact hfree (List.mem_map.mpr ⟨hc, hhc, heq⟩)
  constructor
  · intro a b ha hb heq
    rcases hlive a ha with hnewA | holdA
    · rcases hlive b hb with hnewB | holdB
      · rw [hnewA, hnewB]
      · rw [hnewA] at heq
        exact absurd heq.symm (hother b holdB)
    · rcases hlive b hb with hnewB | holdB
      · rw [hnewB] at heq
        exact absurd heq (hother a holdA)
      · exact h.distinct a b holdA holdB heq
  · intro hc compiled hhc hlookup
    rcases hlive hc hhc with hnew | hold
    · rw [hnew] at hlookup ⊢
      exact hclean compiled hlookup
    · exact h.own hc compiled hold hlookup

theorem invariant_mask (h : Invariant engine s) (hhc : hc ∈ s.live) :
    Invariant engine { s with masks := (resolveMask engine s.masks hc).1 } := by
  refine ⟨h.distinct, ?_⟩
  intro other compiled hother hlookup
  unfold resolveMask at hlookup
  split at hlookup
  · exact h.own other compiled hother hlookup
  · rcases Decidable.em (other.asPtr = hc.asPtr) with heq | hne
    · have hsame := h.distinct other hc hother hhc heq
      rw [hsame] at hlookup ⊢
      dsimp only at hlookup
      rw [AList.lookup_insert] at hlookup
      injection hlookup with hcompiled
      exact hcompiled.symm
    · dsimp only at hlookup
      rw [AList.lookup_insert_ne hne] at hlookup
      exact h.own other compiled hother hlookup

theorem invariant_step {event : MaskEvent} (h : Invariant engine s)
    (hclean : CleanAddress engine s event)
    (hstep : step engine s event = some t) : Invariant engine t := by
  cases event with
  | register config asPtr =>
    dsimp only [step] at hstep
    split at hstep
    · cases hstep
    · rename_i hfree
      injection hstep with hstep
      rw [← hstep]
      exact invariant_register h hfree hclean
  | unregister host port =>
    injection hstep with hstep
    rw [← hstep]
    refine invariant_of_subset h rfl ?_
    intro hc hhc
    rcases List.mem_append.mp hhc with hrouted | hflying
    · exact List.mem_append_left _ (held_unregister hrouted)
    · exact List.mem_append_right _ hflying
  | arrive hostHeader =>
    rcases Option.map_eq_some_iff.mp hstep with ⟨found, hfound, hstep⟩
    rw [← hstep]
    refine invariant_of_subset h rfl ?_
    intro hc hhc
    rcases List.mem_append.mp hhc with hrouted | hflying
    · exact List.mem_append_left _ hrouted
    · rcases List.mem_append.mp hflying with hold | hnew
      · exact List.mem_append_right _ hold
      · rw [List.mem_singleton.mp hnew]
        exact List.mem_append_left _ (held_of_resolve hfound)
  | mask index =>
    rcases Option.map_eq_some_iff.mp hstep with ⟨found, hfound, hstep⟩
    rw [← hstep]
    exact invariant_mask h (List.mem_append_right _ (List.mem_of_getElem? hfound))
  | finish index =>
    injection hstep with hstep
    rw [← hstep]
    refine invariant_of_subset h rfl ?_
    intro hc hhc
    rcases List.mem_append.mp hhc with hrouted | hflying
    · exact List.mem_append_left _ hrouted
    · exact List.mem_append_right _ (List.mem_of_mem_eraseIdx hflying)

theorem invariant_start (engine : RegexEngine) : Invariant engine start := by
  constructor
  · intro a b ha
    cases ha
  · intro hc compiled hhc
    cases hhc

theorem masksOwn_of_invariant (h : Invariant engine s) : MasksOwn engine s := by
  intro hc hhc
  unfold resolveMask
  split
  · rename_i existing hlookup
    exact h.own hc existing (List.mem_append_right _ hhc) hlookup
  · rfl

/-- If no configuration is allocated where a mask of another is left, every
request gets the mask of its own host in every state. -/
theorem masks_own_in_run {events : List MaskEvent}
    (hclean : StepsMeet (step engine) (CleanAddress engine) start events)
    (hrun : runFrom (step engine) start events = some t) :
    MasksOwn engine t :=
  masksOwn_of_invariant (runFrom_invariant (fun h hclean hstep => invariant_step h hclean hstep)
    (invariant_start engine) hclean hrun)

end MaskWorld

def maskedShop : MaskedHost :=
  { host := "shop.test".toList
    port := 443
    internalPatterns := [ascii "10.0.0.1"]
    maskToken := ascii "***"
    bodyMaskMaxBytes := 1048576 }

def plainMall : MaskedHost :=
  { host := "mall.test".toList
    port := 443
    internalPatterns := []
    maskToken := ascii "***"
    bodyMaskMaxBytes := 1048576 }

/-- A site whose page is masked is removed, and a second is added at the given
address. -/
def replaced (asPtr : Address) : List MaskEvent :=
  [.register maskedShop 4096, .arrive "shop.test".toList, .mask 0, .finish 0,
    .unregister "shop.test".toList 443, .register plainMall asPtr,
    .arrive "mall.test".toList]

theorem own_mask_at_new_address :
    exists t, runFrom (MaskWorld.step literalEngine) .start (replaced 8192) = some t ∧
      MaskWorld.MasksOwn literalEngine t := by
  have hclean : StepsMeet (MaskWorld.step literalEngine)
      (MaskWorld.CleanAddress literalEngine) .start (replaced 8192) := by
    refine stepsMeet_cons (fun compiled hlookup => nomatch hlookup) rfl ?_
    refine stepsMeet_cons trivial rfl (stepsMeet_cons trivial rfl ?_)
    refine stepsMeet_cons trivial rfl (stepsMeet_cons trivial rfl ?_)
    refine stepsMeet_cons (fun compiled hlookup => nomatch hlookup) rfl ?_
    exact stepsMeet_cons trivial rfl trivial
  exact ⟨_, rfl, MaskWorld.masks_own_in_run hclean rfl⟩

/-- The second site gets the mask of the first. -/
theorem stale_mask_at_reused_address :
    exists t hc, runFrom (MaskWorld.step literalEngine) .start (replaced 4096) = some t ∧
      t.inFlight = [hc] ∧ hc.value = plainMall ∧ (resolveMask literalEngine t.masks hc).2 =
        maskedShop.ownMask literalEngine ∧ ¬ MaskWorld.MasksOwn literalEngine t := by
  refine ⟨_, _, rfl, rfl, rfl, rfl, ?_⟩
  intro hown
  have hmask : maskedShop.ownMask literalEngine =
      plainMall.ownMask literalEngine := hown _ (List.mem_singleton_self _)
  have hdiffer : (maskedShop.ownMask literalEngine).regex.isSome ≠
      (plainMall.ownMask literalEngine).regex.isSome := by decide
  exact hdiffer (congrArg (fun mask => mask.regex.isSome) hmask)

end Gateway
end PrxWaf
