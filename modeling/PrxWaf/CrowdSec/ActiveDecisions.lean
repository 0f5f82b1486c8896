import PrxWaf.CrowdSec.Cache
import PrxWaf.Lib.Expiry
import PrxWaf.Lib.Run
import PrxWaf.Lib.Traverse

/-!
# Active decisions

The server knows its decisions by their ids; the cache keeps one for each address and
network.  It stands for all active decisions of an address or network only as long as
what it keeps is the one that expires last, and what it removes was the last one.
-/

namespace PrxWaf
namespace CrowdSec

open Lib Net

/-! ## The decisions of the server -/

structure ActiveDecision where
  decision : Decision
  expiresAt : Nat

/-- The cache with the decisions that are active at the server by the last
message. -/
structure Feed where
  cache : DecisionCache
  active : List ActiveDecision
  clock : Nat

def Feed.start : Feed where
  cache := .new 0
  active := []
  clock := 0

inductive FeedEvent where
  | stream (now : Nat) (message : DecisionStream)
  | cleanup (now : Nat)

namespace DecisionStream

def added (message : DecisionStream) : List Decision :=
  message.new.getD []

def removed (message : DecisionStream) : List Decision :=
  message.deleted.getD []

end DecisionStream

def CrowdSecConfig.unfiltered : CrowdSecConfig where
  scenariosContaining := []
  scenariosNotContaining := []

section Feed

variable (ext : Externals)
-- the nanoseconds that the server means by a valid duration
variable (nanosOf : Text -> Option Nat)

def announce (now : Nat) (decision : Decision) : Option ActiveDecision :=
  (decision.duration.bind nanosOf).map (fun nanos =>
    { decision := decision, expiresAt := now + nanos })

def activeAfter (now : Nat) (message : DecisionStream)
    (active : List ActiveDecision) : List ActiveDecision :=
  active.filter (fun a =>
      !(message.removed.map Decision.id).contains a.decision.id) ++
    message.added.filterMap (announce nanosOf now)

/-- The message deletes active decisions, its new ones have valid durations, and no
two decisions have one id. -/
def isListed (now : Nat) (message : DecisionStream) (active : List ActiveDecision) : Bool :=
  message.removed.all (fun d => active.any (fun a =>
      a.decision.id = d.id && a.decision.scope = d.scope && a.decision.value = d.value)) &&
    message.added.all (fun d => (announce nanosOf now d).isSome) &&
    ((activeAfter nanosOf now message active).map (fun a => a.decision.id)).Nodup

def feedStep (feed : Feed) : FeedEvent -> Option Feed
  | .stream now message =>
    if feed.clock ≤ now ∧ isListed nanosOf now message feed.active then
      some
        { cache := feed.cache.applyStream ext .unfiltered now message
          active := activeAfter nanosOf now message feed.active
          clock := now }
    else none
  | .cleanup now =>
    if feed.clock ≤ now then
      some
        { cache := feed.cache.cleanupExpired now
          active := feed.active
          clock := now }
    else none

def Covered (feed : Feed) (ip : IpAddr) (t : Nat) : Prop :=
  exists a target, a ∈ feed.active ∧ a.decision.target ext = some target ∧
    target.covers ip = true ∧ t < a.expiresAt

/-- From the last message on, the cache answers as the active decisions do. -/
def Refines (feed : Feed) : Prop :=
  forall ip t, feed.clock ≤ t -> ((feed.cache.checkIp t ip).isSome = true <-> Covered ext feed ip t)

def untils (active : List ActiveDecision) (target : Target) : List Nat :=
  (active.filter (fun a => a.decision.target ext = some target)).map ActiveDecision.expiresAt

def readExpiry (now : Nat) (decision : Decision) : Nat :=
  (DecisionCache.new 0).computeExpiry ext now decision

def TouchedBy (target : Target) (decisions : List Decision) : Prop :=
  exists d, d ∈ decisions ∧ d.target ext = some target

/-- When a decision on a target is deleted, all that are left on it have expired;
otherwise the last new one, as the cache reads it, expires with the last of all. -/
def Settled (feed : Feed) : FeedEvent -> Prop
  | .cleanup _ => True
  | .stream now message =>
    forall target,
      (TouchedBy ext target message.removed ->
        forall u, u ∈ untils ext
            (activeAfter nanosOf now message feed.active) target ->
          u ≤ now) ∧
      (¬ TouchedBy ext target message.removed ->
        forall front d back, message.added = front ++ d :: back ->
          d.target ext = some target -> ¬ TouchedBy ext target back ->
          (forall u, u ∈ untils ext
              (activeAfter nanosOf now message feed.active) target ->
            u ≤ max now (readExpiry ext now d)) ∧
          (now < readExpiry ext now d ->
            exists u, u ∈ untils ext
                (activeAfter nanosOf now message feed.active) target ∧
              readExpiry ext now d ≤ u))

end Feed

section Edits

variable (ext : Externals)

def storeFor (cached : Decision -> Option CachedDecision)
    (cache : DecisionCache) (decision : Decision) : DecisionCache :=
  (decision.key ext).elim cache (cache.store (cached decision))

def slotEdit (cached : Decision -> Option CachedDecision)
    (decision : Decision) : Option (Edit Target CachedDecision) :=
  (decision.target ext).map (fun target =>
    match cached decision with
    | some entry => .put target entry
    | none => .del target)

def newEntry (now : Nat) (decision : Decision) : Option CachedDecision :=
  some { decision := decision, expiresAt := readExpiry ext now decision }

def noEntry (_ : Decision) : Option CachedDecision :=
  none

theorem slotEdit_eq_some {cached : Decision -> Option CachedDecision}
    {decision : Decision} {e : Edit Target CachedDecision}
    (h : slotEdit ext cached decision = some e) :
    decision.target ext = some e.touched ∧ e.result = cached decision := by
  rcases Option.map_eq_some_iff.mp h with ⟨target, htarget, rfl⟩
  rw [htarget]
  cases cached decision with
  | none => exact ⟨rfl, rfl⟩
  | some entry => exact ⟨rfl, rfl⟩

theorem mem_touched_iff {cached : Decision -> Option CachedDecision}
    {decisions : List Decision} {target : Target} :
    target ∈ (decisions.filterMap (slotEdit ext cached)).map Edit.touched <->
      TouchedBy ext target decisions := by
  unfold TouchedBy
  rw [List.mem_map]
  constructor
  · rintro ⟨e, he, rfl⟩
    rcases List.mem_filterMap.mp he with ⟨d, hd, hedit⟩
    exact ⟨d, hd, (slotEdit_eq_some ext hedit).1⟩
  · rintro ⟨d, hd, htarget⟩
    cases hedit : slotEdit ext cached d with
    | none =>
      unfold slotEdit at hedit
      rw [htarget] at hedit
      cases hedit
    | some e =>
      refine ⟨e, List.mem_filterMap.mpr ⟨d, hd, hedit⟩, ?_⟩
      exact Option.some.inj ((slotEdit_eq_some ext hedit).1.symm.trans htarget)

theorem cacheTtlSecs_storeFor (cached : Decision -> Option CachedDecision)
    (cache : DecisionCache) (decision : Decision) :
    (storeFor ext cached cache decision).cacheTtlSecs = cache.cacheTtlSecs := by
  unfold storeFor
  cases decision.key ext with
  | none => rfl
  | some key =>
    rcases key with (ip | net) | value
    · rfl
    · rfl
    · rfl

theorem foldl_storeFor (cached : Decision -> Option CachedDecision)
    (cache : DecisionCache) (decisions : List Decision) :
    (decisions.foldl (storeFor ext cached) cache).cacheTtlSecs = cache.cacheTtlSecs ∧
      (decisions.foldl (storeFor ext cached) cache).slot = Edit.applyAll cache.slot
          (decisions.filterMap (slotEdit ext cached)) := by
  induction decisions generalizing cache with
  | nil => exact ⟨rfl, rfl⟩
  | cons decision rest ih =>
    rcases ih (storeFor ext cached cache decision) with ⟨httl, hslot⟩
    refine ⟨httl.trans (cacheTtlSecs_storeFor ext cached cache decision), ?_⟩
    rw [List.foldl_cons, hslot, List.filterMap_cons]
    unfold storeFor slotEdit
    rw [DecisionCache.slot_elim_store]
    cases decision.target ext with
    | none => rfl
    | some target =>
      cases cached decision with
      | none => rfl
      | some entry => rfl

variable {cache : DecisionCache}

theorem computeExpiry_of_ttl_zero (h : cache.cacheTtlSecs = 0) (now : Nat) (decision : Decision) :
    cache.computeExpiry ext now decision = readExpiry ext now decision := by
  have hzero : ¬ 0 < cache.cacheTtlSecs := by
    rw [h]
    exact Nat.lt_irrefl 0
  have hnew : ¬ 0 < (DecisionCache.new 0).cacheTtlSecs := Nat.lt_irrefl 0
  unfold readExpiry DecisionCache.computeExpiry
  rw [if_neg hzero, if_neg hnew]

theorem shouldCache_unfiltered (decision : Decision) :
    DecisionCache.shouldCache decision .unfiltered = true :=
  rfl

theorem receive_eq (h : cache.cacheTtlSecs = 0) (now : Nat) (decision : Decision) :
    DecisionCache.receive ext .unfiltered now cache decision =
      storeFor ext (newEntry ext now) cache decision := by
  unfold DecisionCache.receive storeFor newEntry DecisionCache.insertDecision
  rw [if_pos (shouldCache_unfiltered decision), computeExpiry_of_ttl_zero ext h]

theorem foldl_receive (h : cache.cacheTtlSecs = 0) (now : Nat) (decisions : List Decision) :
    decisions.foldl (DecisionCache.receive ext .unfiltered now) cache =
      decisions.foldl (storeFor ext (newEntry ext now)) cache := by
  induction decisions generalizing cache with
  | nil => rw [List.foldl_nil, List.foldl_nil]
  | cons decision rest ih =>
    have httl : (storeFor ext (newEntry ext now) cache decision).cacheTtlSecs = 0 := by
      rw [cacheTtlSecs_storeFor, h]
    rw [List.foldl_cons, List.foldl_cons, receive_eq ext h, ih httl]

theorem applyStream_spec (h : cache.cacheTtlSecs = 0) (now : Nat) (message : DecisionStream) :
    (cache.applyStream ext .unfiltered now message).cacheTtlSecs = 0 ∧
      (cache.applyStream ext .unfiltered now message).slot = Edit.applyAll (Edit.applyAll cache.slot
            (message.added.filterMap (slotEdit ext (newEntry ext now))))
          (message.removed.filterMap (slotEdit ext noEntry)) := by
  have hnew := foldl_storeFor ext (newEntry ext now) cache message.added
  have hboth := foldl_storeFor ext noEntry
    (message.added.foldl (storeFor ext (newEntry ext now)) cache) message.removed
  have happly : cache.applyStream ext .unfiltered now message =
      message.removed.foldl (storeFor ext noEntry)
        (message.added.foldl (storeFor ext (newEntry ext now)) cache) := by
    rw [← foldl_receive ext h]
    rfl
  rw [happly, hboth.1, hboth.2, hnew.1, hnew.2]
  exact ⟨h, rfl⟩

variable {ext} {target : Target} {slots : Target -> Option CachedDecision}
  {now : Nat} {message : DecisionStream}

theorem slot_of_removed (h : TouchedBy ext target message.removed) :
    Edit.applyAll slots (message.removed.filterMap (slotEdit ext noEntry)) target = none := by
  refine Edit.applyAll_of_result ((mem_touched_iff ext).mpr h) ?_
  intro e he _
  rcases List.mem_filterMap.mp he with ⟨d, -, hedit⟩
  exact (slotEdit_eq_some ext hedit).2

theorem slot_of_last {front back : List Decision} {d : Decision}
    (hadded : message.added = front ++ d :: back)
    (htarget : d.target ext = some target) (hlast : ¬ TouchedBy ext target back) :
    Edit.applyAll slots (message.added.filterMap (slotEdit ext (newEntry ext now))) target =
      newEntry ext now d := by
  have hedit : slotEdit ext (newEntry ext now) d =
      some (.put target { decision := d, expiresAt := readExpiry ext now d }) := by
    unfold slotEdit
    rw [htarget]
    rfl
  rw [hadded, List.filterMap_append, List.filterMap_cons_some hedit,
    Edit.applyAll_append, Edit.applyAll_cons,
    Edit.applyAll_of_untouched (fun h => hlast ((mem_touched_iff ext).mp h))]
  exact Function.update_self ..

end Edits

/-!
## The cache stands for the active decisions

A slot stands for several decisions if it expires with the last of them. The messages that
keep this are those that are settled.
-/

section Refinement

variable {ext : Externals} {nanosOf : Text -> Option Nat}

structure Represents (ext : Externals) (feed : Feed) : Prop where
  ttl : feed.cache.cacheTtlSecs = 0
  ids : (feed.active.map (fun a => a.decision.id)).Nodup
  slots : forall target, StandsFor feed.clock
    ((feed.cache.slot target).map CachedDecision.expiresAt)
    (untils ext feed.active target)

variable {active : List ActiveDecision} {feed : Feed}

variable {target : Target} {now : Nat} {message : DecisionStream}

theorem mem_untils {u : Nat} :
    u ∈ untils ext active target <->
      exists a, a ∈ active ∧ a.decision.target ext = some target ∧ a.expiresAt = u := by
  unfold untils
  simp only [List.mem_map, List.mem_filter, decide_eq_true_eq, and_assoc]

theorem represents_start : Represents ext Feed.start := by
  refine ⟨rfl, List.nodup_nil, ?_⟩
  intro target
  have hslot : Feed.start.cache.slot target = none := by
    cases target with
    | ip addr => rfl
    | range net => rfl
  rw [hslot]
  refine standsFor_none_iff.mpr ?_
  intro u hu
  cases hu

theorem refines_of_represents (h : Represents ext feed) :
    Refines ext feed := by
  intro ip t ht
  rw [DecisionCache.checkIp_isSome_iff]
  constructor
  · rintro ⟨target, cached, hcovers, hslot, hlt⟩
    rcases (h.slots target t ht).mp ⟨cached.expiresAt, by rw [hslot]; rfl, hlt⟩ with ⟨u, hu, hlt'⟩
    rcases mem_untils.mp hu with ⟨a, ha, htarget, rfl⟩
    exact ⟨a, target, ha, htarget, hcovers, hlt'⟩
  · rintro ⟨a, target, ha, htarget, hcovers, hlt⟩
    rcases (h.slots target t ht).mpr ⟨a.expiresAt, mem_untils.mpr ⟨a, ha, htarget, rfl⟩, hlt⟩ with
      ⟨u, hu, hlt'⟩
    rcases Option.map_eq_some_iff.mp hu with ⟨cached, hslot, rfl⟩
    exact ⟨target, cached, hcovers, hslot, hlt'⟩

theorem target_of_removed (hlisted : isListed nanosOf now message active = true) {d : Decision}
    (hd : d ∈ message.removed) {a : ActiveDecision} (ha : a ∈ active)
    (hids : (active.map (fun a => a.decision.id)).Nodup)
    (hid : d.id = a.decision.id) : d.target ext = a.decision.target ext := by
  unfold isListed at hlisted
  rw [Bool.and_eq_true, Bool.and_eq_true, List.all_eq_true] at hlisted
  rcases List.any_eq_true.mp (hlisted.1.1 d hd) with ⟨b, hb, hsame⟩
  simp only [Bool.and_eq_true, decide_eq_true_eq] at hsame
  have hab : b = a := List.inj_on_of_nodup_map hids hb ha (hsame.1.1.trans hid)
  rw [hab] at hsame
  unfold Decision.target Decision.key
  rw [hsame.1.2, hsame.2]

theorem mem_untils_activeAfter (hlisted : isListed nanosOf now message active = true)
    (hids : (active.map (fun a => a.decision.id)).Nodup) {target : Target}
    (hremoved : ¬ TouchedBy ext target message.removed)
    (hadded : ¬ TouchedBy ext target message.added) (u : Nat) :
    u ∈ untils ext active target <->
      u ∈ untils ext (activeAfter nanosOf now message active) target := by
  rw [mem_untils, mem_untils]
  unfold activeAfter
  constructor
  · rintro ⟨a, ha, htarget, rfl⟩
    refine ⟨a, List.mem_append_left _ (List.mem_filter.mpr ⟨ha, ?_⟩), htarget,
      rfl⟩
    rw [Bool.not_eq_true', ← Bool.not_eq_true, List.contains_iff_mem]
    intro hmem
    rcases List.mem_map.mp hmem with ⟨d, hd, hid⟩
    refine hremoved ⟨d, hd, ?_⟩
    rw [target_of_removed hlisted hd ha hids hid, htarget]
  · rintro ⟨a, ha, htarget, rfl⟩
    rcases List.mem_append.mp ha with hold | hnew
    · exact ⟨a, List.mem_of_mem_filter hold, htarget, rfl⟩
    · rcases List.mem_filterMap.mp hnew with ⟨d, hd, hannounce⟩
      rcases Option.map_eq_some_iff.mp hannounce with ⟨nanos, -, rfl⟩
      exact absurd ⟨d, hd, htarget⟩ hadded

theorem exists_last {decisions : List Decision} (h : TouchedBy ext target decisions) :
    exists front d back, decisions = front ++ d :: back ∧
      d.target ext = some target ∧ ¬ TouchedBy ext target back := by
  induction decisions with
  | nil =>
    rcases h with ⟨d, hd, -⟩
    cases hd
  | cons first rest ih =>
    rcases Classical.em (TouchedBy ext target rest) with hrest | hrest
    · rcases ih hrest with ⟨front, d, back, heq, htarget, hlast⟩
      exact ⟨first :: front, d, back, by rw [heq]; rfl, htarget, hlast⟩
    · rcases h with ⟨d, hd, htarget⟩
      rcases List.mem_cons.mp hd with rfl | hmem
      · exact ⟨[], d, rest, rfl, htarget, hrest⟩
      · exact absurd ⟨d, hmem, htarget⟩ hrest

theorem represents_stream_iff (h : Represents ext feed) {now : Nat}
    {message : DecisionStream} (hclock : feed.clock ≤ now)
    (hlisted : isListed nanosOf now message feed.active = true) :
    Represents ext
        { cache := feed.cache.applyStream ext .unfiltered now message
          active := activeAfter nanosOf now message feed.active
          clock := now } <->
      Settled ext nanosOf feed (.stream now message) := by
  rcases applyStream_spec ext h.ttl now message with ⟨httl, hslots⟩
  have hids : ((activeAfter nanosOf now message feed.active).map
      (fun a => a.decision.id)).Nodup := by
    unfold isListed at hlisted
    rw [Bool.and_eq_true, decide_eq_true_eq] at hlisted
    exact hlisted.2
  have hslot := fun target => congrFun hslots target
  have huntouched : forall {target},
      ¬ TouchedBy ext target message.removed ->
      (feed.cache.applyStream ext .unfiltered now message).slot target =
        Edit.applyAll feed.cache.slot
          (message.added.filterMap (slotEdit ext (newEntry ext now)))
          target := by
    intro target hremoved
    rw [hslot]
    exact Edit.applyAll_of_untouched
      (fun hmem => hremoved ((mem_touched_iff ext).mp hmem))
  constructor
  · intro hafter target
    constructor
    · intro hremoved
      have hstands := hafter.slots target
      dsimp only at hstands
      rw [hslot, slot_of_removed hremoved] at hstands
      exact standsFor_none_iff.mp hstands
    · intro hremoved front d back hadded htarget hlast
      have hstands := hafter.slots target
      dsimp only at hstands
      rw [huntouched hremoved, slot_of_last hadded htarget hlast] at hstands
      exact standsFor_some_iff.mp hstands
  · intro hsettled
    refine ⟨httl, hids, ?_⟩
    intro target
    dsimp only
    rcases Classical.em (TouchedBy ext target message.removed) with
      hremoved | hremoved
    · rw [hslot, slot_of_removed hremoved]
      exact standsFor_none_iff.mpr ((hsettled target).1 hremoved)
    · rw [huntouched hremoved]
      rcases Classical.em (TouchedBy ext target message.added) with
        hadded | hadded
      · rcases exists_last hadded with ⟨front, d, back, heq, htarget, hlast⟩
        rw [slot_of_last heq htarget hlast]
        exact standsFor_some_iff.mpr
          ((hsettled target).2 hremoved front d back heq htarget hlast)
      · rw [Edit.applyAll_of_untouched
          (fun hmem => hadded ((mem_touched_iff ext).mp hmem))]
        refine (standsFor_congr ?_ _).mp (standsFor_later (h.slots target) hclock)
        exact mem_untils_activeAfter hlisted h.ids hremoved hadded

theorem represents_cleanup (h : Represents ext feed) {now : Nat}
    (hclock : feed.clock ≤ now) :
    Represents ext
      { cache := feed.cache.cleanupExpired now
        active := feed.active
        clock := now } := by
  refine ⟨h.ttl, h.ids, ?_⟩
  intro target
  have hstands := standsFor_filter (standsFor_later (h.slots target) hclock)
  rw [Option.filter_map] at hstands
  dsimp only
  rw [DecisionCache.slot_cleanupExpired]
  exact hstands

theorem represents_step {feed' : Feed} {event : FeedEvent}
    (h : Represents ext feed) (hsettled : Settled ext nanosOf feed event)
    (hstep : feedStep ext nanosOf feed event = some feed') :
    Represents ext feed' := by
  cases event with
  | stream now message =>
    unfold feedStep at hstep
    dsimp only at hstep
    split at hstep
    · rename_i hguard
      injection hstep with hstep
      rw [← hstep]
      exact (represents_stream_iff h hguard.1 hguard.2).mpr hsettled
    · cases hstep
  | cleanup now =>
    unfold feedStep at hstep
    dsimp only at hstep
    split at hstep
    · rename_i hclock
      injection hstep with hstep
      rw [← hstep]
      exact represents_cleanup h hclock
    · cases hstep

/-- In a run whose messages are all settled, the cache reports an address from every
state on exactly while an active decision covers it. -/
theorem cache_refines_active_decisions {events : List FeedEvent} {feed : Feed}
    (hsettled : StepsMeet (feedStep ext nanosOf) (Settled ext nanosOf) Feed.start events)
    (hrun : runFrom (feedStep ext nanosOf) Feed.start events = some feed) :
    Refines ext feed :=
  refines_of_represents (runFrom_invariant represents_step represents_start hsettled hrun)

end Refinement

def wholeNumbers : Externals where
  toLowercase := fun s => s.map Char.toLower
  parseIpNet := fun _ => none
  scaled := fun s factor =>
    (Text.parseUnsigned (2 ^ 64) s).map (fun n => n * factor)

def wholeSeconds (s : Text) : Option Nat :=
  (parseCsDuration wholeNumbers s).map (fun secs => secs * nanosPerSec)

def ban (id : Int) (scenario : String) : Decision where
  id := id
  origin := "crowdsec".toList
  scope := "Ip".toList
  value := "192.0.2.1".toList
  type_ := "ban".toList
  scenario := scenario.toList
  duration := some "4h".toList
  createdAt := none

def bannedIp : IpAddr :=
  .v4 (Ipv4Addr.new 192 0 2 1)

theorem target_ban (id : Int) (scenario : String) :
    (ban id scenario).target wholeNumbers = some (.ip bannedIp) := by
  have hkey : (ban 0 "").target wholeNumbers = some (.ip bannedIp) := by
    decide
  exact hkey

def otherBan : Decision :=
  { ban 2 "http-probing" with value := "192.0.2.2".toList }

def otherIp : IpAddr :=
  .v4 (Ipv4Addr.new 192 0 2 2)

def twoBans : List FeedEvent :=
  [.stream 0 { new := some [ban 1 "ssh-bf", otherBan], deleted := none },
    .stream 1 { new := none, deleted := some [ban 1 "ssh-bf"] }, .cleanup 2]

theorem twoBans_settled :
    StepsMeet (feedStep wholeNumbers wholeSeconds) (Settled wholeNumbers wholeSeconds)
      Feed.start twoBans := by
  have hother : otherBan.target wholeNumbers = some (.ip otherIp) := by decide
  refine ⟨?_, ?_, trivial, trivial⟩
  · intro target
    constructor
    · rintro ⟨d, hd, -⟩
      cases hd
    · intro _ front d back hadded htarget _
      have hmem : d ∈ [ban 1 "ssh-bf", otherBan] := by
        rw [show [ban 1 "ssh-bf", otherBan] = front ++ d :: back from hadded]
        exact List.mem_append_right _ List.mem_cons_self
      rcases List.mem_pair.mp hmem with rfl | rfl
      · rw [target_ban] at htarget
        injection htarget with htarget
        rw [← htarget]
        decide
      · rw [hother] at htarget
        injection htarget with htarget
        rw [← htarget]
        decide
  · intro target
    constructor
    · rintro ⟨d, hd, htarget⟩
      rw [List.mem_singleton.mp hd, target_ban] at htarget
      injection htarget with htarget
      rw [← htarget]
      decide
    · intro _ front d back hadded
      exact absurd hadded.symm (List.append_ne_nil_of_right_ne_nil front (List.cons_ne_nil d back))

theorem two_bans_refined :
    exists feed, runFrom (feedStep wholeNumbers wholeSeconds) Feed.start twoBans = some feed ∧
      Refines wholeNumbers feed ∧ (feed.cache.checkIp 2 bannedIp).isSome = false ∧
      (feed.cache.checkIp 2 otherIp).isSome = true :=
  ⟨_, rfl, cache_refines_active_decisions twoBans_settled rfl, by decide, by decide⟩

/-- Two scenarios have banned one address.  When the server lifts one ban, the cache
forgets the other. -/
theorem lifted_ban_hides_another :
    exists feed, runFrom (feedStep wholeNumbers wholeSeconds) Feed.start
        [.stream 0 { new := some [ban 1 "ssh-bf", ban 2 "http-probing"]
                     deleted := none },
          .stream 1 { new := none, deleted := some [ban 1 "ssh-bf"] }] = some feed ∧
      (feed.cache.checkIp 2 bannedIp).isSome = false ∧ Covered wholeNumbers feed bannedIp 2 := by
  refine ⟨_, rfl, by decide, ?_⟩
  refine ⟨_, .ip bannedIp, List.mem_singleton.mpr rfl, target_ban _ _, ?_, ?_⟩
  · decide
  · decide

end CrowdSec
end PrxWaf
