import PrxWaf.Lib.Edits
import PrxWaf.Lib.Machine
import PrxWaf.Net.IpParse

/-!
# The cache of CrowdSec decisions

Decisions on addresses, networks and other things are kept by what they are about,
one for each.  A stream message puts its new decisions into the cache and then takes
its deleted ones out.  Instants count nanoseconds.
-/

namespace PrxWaf
namespace CrowdSec

open Lib Net

/-- What the cache takes from libraries: the lower case of a text, the reading of a
network, and the number that a text is in floating point, times a factor and without
its fraction. -/
structure Externals where
  toLowercase : Text -> Text
  parseIpNet : Text -> Option IpNet
  scaled : Text -> Nat -> Option Nat

structure Decision where
  id : Int
  origin : Text
  scope : Text
  value : Text
  type_ : Text
  scenario : Text
  duration : Option Text
  createdAt : Option Text

structure DecisionStream where
  new : Option (List Decision)
  deleted : Option (List Decision)

structure CachedDecision where
  decision : Decision
  expiresAt : Nat

def CachedDecision.isExpired (now : Nat) (cached : CachedDecision) : Bool :=
  cached.expiresAt ≤ now

structure CrowdSecConfig where
  scenariosContaining : List Text
  scenariosNotContaining : List Text

def defaultDecisionCacheFallbackSecs : Nat := 4 * 3600

def unitSecs : Char -> Option Nat
  | 'h' => some 3600
  | 'm' => some 60
  | 's' => some 1
  | _ => none

/-- The number before every unit has to be readable, also before one that is not
known; a number without a unit at the end is ignored. -/
def parseCsFrom (ext : Externals) (total : Nat) (current : Text) : Text -> Option Nat
  | [] => some total
  | c :: rest =>
    if c.isDigit || c = '.' then parseCsFrom ext total (current ++ [c]) rest
    else
      match unitSecs c with
      | some secs =>
        match ext.scaled current secs with
        | none => none
        | some n => parseCsFrom ext (total + n) [] rest
      | none =>
        match ext.scaled current 1 with
        | none => none
        | some _ => parseCsFrom ext total [] rest

def parseCsDuration (ext : Externals) (s : Text) : Option Nat :=
  parseCsFrom ext 0 [] s

inductive Target where
  | ip (addr : IpAddr)
  | range (net : IpNet)
  deriving DecidableEq

def Target.covers (ip : IpAddr) : Target -> Bool
  | .ip addr => addr = ip
  | .range net => net.contains ip

inductive DecisionKey where
  | target (target : Target)
  | other (value : Text)
  deriving DecidableEq

namespace Decision

/-- A value that does not fit its scope is about nothing. -/
def key (ext : Externals) (decision : Decision) : Option DecisionKey :=
  let scope := ext.toLowercase decision.scope
  if scope = "ip".toList then
    (IpAddr.fromStr decision.value).map (fun ip => .target (.ip ip))
  else if scope = "range".toList then
    (ext.parseIpNet decision.value).map (fun net => .target (.range net))
  else some (.other decision.value)

def target (ext : Externals) (decision : Decision) : Option Target :=
  match decision.key ext with
  | some (.target target) => some target
  | _ => none

end Decision

structure DecisionCache where
  ipDecisions : IpAddr -> Option CachedDecision
  rangeDecisions : List (IpNet × CachedDecision)
  otherDecisions : Text -> Option CachedDecision
  cacheTtlSecs : Nat
  distinct : (rangeDecisions.map Prod.fst).Nodup

namespace DecisionCache

def new (cacheTtlSecs : Nat) : DecisionCache where
  ipDecisions := fun _ => none
  rangeDecisions := []
  otherDecisions := fun _ => none
  cacheTtlSecs := cacheTtlSecs
  distinct := List.nodup_nil

def withoutRange (cache : DecisionCache) (net : IpNet) : List (IpNet × CachedDecision) :=
  cache.rangeDecisions.filter (fun entry => entry.1 ≠ net)

variable (now : Nat) (cache : DecisionCache) (net : IpNet) (cached : Option CachedDecision)
  (target : Target)

theorem distinct_withoutRange :
    ((cache.withoutRange net).map Prod.fst).Nodup :=
  cache.distinct.sublist (List.filter_sublist.map _)

theorem not_mem_withoutRange :
    net ∉ (cache.withoutRange net).map Prod.fst := by
  intro hmem
  rcases List.mem_map.mp hmem with ⟨entry, hentry, rfl⟩
  unfold withoutRange at hentry
  rw [List.mem_filter, decide_eq_true_eq] at hentry
  exact hentry.2 rfl

def checkIp (now : Nat) (ip : IpAddr) (cache : DecisionCache) : Option CachedDecision :=
  match (cache.ipDecisions ip).filter (fun cached => !cached.isExpired now) with
  | some cached => some cached
  | none =>
    (cache.rangeDecisions.find? (fun entry =>
      entry.1.contains ip && !entry.2.isExpired now)).map Prod.snd

def shouldCache (decision : Decision) (config : CrowdSecConfig) : Bool :=
  (config.scenariosContaining.isEmpty ||
      config.scenariosContaining.any (fun s => decide (s <:+: decision.scenario)))
    && !config.scenariosNotContaining.any (fun excluded =>
      decide (excluded <:+: decision.scenario))

def computeExpiry (ext : Externals) (now : Nat) (cache : DecisionCache)
    (decision : Decision) : Nat :=
  if 0 < cache.cacheTtlSecs then now + cache.cacheTtlSecs * nanosPerSec
  else
    match decision.duration.bind (parseCsDuration ext) with
    | some secs => now + secs * nanosPerSec
    | none => now + defaultDecisionCacheFallbackSecs * nanosPerSec

def store (cache : DecisionCache) (cached : Option CachedDecision) : DecisionKey -> DecisionCache
  | .target (.ip ip) =>
    { cache with
      ipDecisions := Function.update cache.ipDecisions ip cached }
  | .target (.range net) =>
    { cache with
      rangeDecisions := cache.withoutRange net ++ cached.toList.map (fun cached => (net, cached))
      distinct := by
        cases cached with
        | none =>
          rw [Option.toList_none, List.map_nil, List.append_nil]
          exact cache.distinct_withoutRange net
        | some cached =>
          rw [List.map_append, List.nodup_append]
          refine ⟨cache.distinct_withoutRange net, List.nodup_singleton net, ?_⟩
          rintro a ha b hb rfl
          rw [List.mem_singleton.mp hb] at ha
          exact cache.not_mem_withoutRange net ha }
  | .other value =>
    { cache with
      otherDecisions := Function.update cache.otherDecisions value cached }

def insertDecision (ext : Externals) (cache : DecisionCache)
    (decision : Decision) (cached : CachedDecision) : DecisionCache :=
  (decision.key ext).elim cache (cache.store (some cached))

def removeDecision (ext : Externals) (cache : DecisionCache)
    (decision : Decision) : DecisionCache :=
  (decision.key ext).elim cache (cache.store none)

def receive (ext : Externals) (config : CrowdSecConfig) (now : Nat)
    (cache : DecisionCache) (decision : Decision) : DecisionCache :=
  if shouldCache decision config then
    cache.insertDecision ext decision
      { decision := decision
        expiresAt := cache.computeExpiry ext now decision }
  else cache

def applyStream (ext : Externals) (config : CrowdSecConfig) (now : Nat)
    (stream : DecisionStream) (cache : DecisionCache) : DecisionCache :=
  let cache := (stream.new.getD []).foldl (receive ext config now) cache
  (stream.deleted.getD []).foldl (removeDecision ext) cache

def cleanupExpired (now : Nat) (cache : DecisionCache) : DecisionCache where
  ipDecisions := fun ip =>
    (cache.ipDecisions ip).filter (fun cached => now < cached.expiresAt)
  rangeDecisions := cache.rangeDecisions.filter (fun entry => now < entry.2.expiresAt)
  otherDecisions := fun value =>
    (cache.otherDecisions value).filter (fun cached => now < cached.expiresAt)
  cacheTtlSecs := cache.cacheTtlSecs
  distinct := cache.distinct.sublist (List.filter_sublist.map _)

def slot (cache : DecisionCache) : Target -> Option CachedDecision
  | .ip addr => cache.ipDecisions addr
  | .range net =>
    (cache.rangeDecisions.find? (fun entry => entry.1 = net)).map Prod.snd

variable {ext : Externals}

theorem mem_rangeDecisions_iff {cache : DecisionCache} {net : IpNet} {cached : CachedDecision} :
    (net, cached) ∈ cache.rangeDecisions <-> cache.slot (.range net) = some cached := by
  unfold slot
  rw [Option.map_eq_some_iff]
  constructor
  · intro hmem
    refine ⟨(net, cached), ?_, rfl⟩
    cases hfind : cache.rangeDecisions.find? (fun entry => entry.1 = net) with
    | none =>
      exact absurd (decide_eq_true rfl) (List.find?_eq_none.mp hfind (net, cached) hmem)
    | some entry =>
      have hnet := List.find?_some hfind
      rw [decide_eq_true_eq] at hnet
      rw [List.inj_on_of_nodup_map cache.distinct (List.mem_of_find?_eq_some hfind) hmem hnet]
  · rintro ⟨entry, hfind, rfl⟩
    have hnet := List.find?_some hfind
    rw [decide_eq_true_eq] at hnet
    rw [← hnet]
    exact List.mem_of_find?_eq_some hfind

theorem checkIp_isSome_iff (ip : IpAddr) (cache : DecisionCache) :
    (cache.checkIp now ip).isSome = true <->
      exists target cached, target.covers ip = true ∧
        cache.slot target = some cached ∧ now < cached.expiresAt := by
  have halive : forall cached : CachedDecision,
      (!cached.isExpired now) = true <-> now < cached.expiresAt := by
    intro cached
    unfold CachedDecision.isExpired
    rw [Bool.not_eq_true', decide_eq_false_iff_not, Nat.not_le]
  unfold checkIp
  split
  · rename_i cached hcached
    rw [Option.filter_eq_some_iff] at hcached
    refine iff_of_true rfl ⟨.ip ip, cached, decide_eq_true rfl, hcached.1, ?_⟩
    exact (halive cached).mp hcached.2
  · rename_i hnone
    rw [Option.isSome_map, List.find?_isSome]
    constructor
    · rintro ⟨⟨net, cached⟩, hmem, hboth⟩
      rw [Bool.and_eq_true] at hboth
      exact ⟨.range net, cached, hboth.1, mem_rangeDecisions_iff.mp hmem,
        (halive cached).mp hboth.2⟩
    · rintro ⟨target, cached, hcovers, hslot, hlt⟩
      cases target with
      | ip addr =>
        have haddr := of_decide_eq_true hcovers
        rw [haddr] at hslot
        have hkept : (cache.ipDecisions ip).filter
            (fun cached => !cached.isExpired now) = some cached :=
          Option.filter_eq_some_iff.mpr ⟨hslot, (halive cached).mpr hlt⟩
        rw [hkept] at hnone
        cases hnone
      | range net =>
        refine ⟨(net, cached), mem_rangeDecisions_iff.mpr hslot, ?_⟩
        rw [Bool.and_eq_true]
        exact ⟨hcovers, (halive cached).mpr hlt⟩

theorem find?_withoutRange {net other : IpNet} (hne : other ≠ net) :
    (cache.withoutRange net).find? (fun entry => entry.1 = other) =
      cache.rangeDecisions.find? (fun entry => entry.1 = other) := by
  unfold withoutRange
  rw [List.find?_filter]
  congr 1
  funext entry
  rcases eq_or_ne entry.1 other with heq | hother
  · rw [heq]
    simp [hne]
  · simp [hother]

theorem find?_withoutRange_self :
    (cache.withoutRange net).find? (fun entry => entry.1 = net) = none := by
  rw [List.find?_eq_none]
  intro entry hentry hnet
  exact cache.not_mem_withoutRange net (List.mem_map.mpr ⟨entry, hentry, of_decide_eq_true hnet⟩)

theorem slot_store :
    (cache.store cached (.target target)).slot = Function.update cache.slot target cached := by
  funext other
  cases target with
  | ip ip =>
    cases other with
    | range net => exact (Function.update_of_ne (by simp) ..).symm
    | ip addr =>
      rcases eq_or_ne addr ip with rfl | hne
      · rw [Function.update_self]
        exact Function.update_self ..
      · rw [Function.update_of_ne (fun h => hne (Target.ip.inj h))]
        exact Function.update_of_ne hne ..
  | range net =>
    cases other with
    | ip addr => exact (Function.update_of_ne (by simp) ..).symm
    | range other =>
      rcases eq_or_ne other net with rfl | hne
      · rw [Function.update_self]
        simp only [store, slot, List.find?_append, find?_withoutRange_self]
        cases cached with
        | none => rfl
        | some cached => simp
      · rw [Function.update_of_ne (fun h => hne (Target.range.inj h))]
        simp only [store, slot, List.find?_append, find?_withoutRange cache hne]
        cases cached with
        | none => simp
        | some cached => simp [hne.symm]

theorem slot_elim_store (decision : Decision) :
    ((decision.key ext).elim cache (cache.store cached)).slot =
      (decision.target ext).elim cache.slot
        (fun target => Function.update cache.slot target cached) := by
  unfold Decision.target
  cases decision.key ext with
  | none => rfl
  | some key =>
    cases key with
    | target target => exact slot_store cache cached target
    | other value => rfl

theorem slot_cleanupExpired :
    (cache.cleanupExpired now).slot target =
      (cache.slot target).filter (fun cached => now < cached.expiresAt) := by
  cases target with
  | ip addr => rfl
  | range net =>
    refine Option.ext ?_
    intro cached
    rw [← mem_rangeDecisions_iff, Option.filter_eq_some_iff, ← mem_rangeDecisions_iff]
    exact List.mem_filter

end DecisionCache

end CrowdSec
end PrxWaf
