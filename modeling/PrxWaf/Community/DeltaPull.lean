import PrxWaf.Community.SignedSync
import PrxWaf.Net.IpLength

/-!
# A delta in place of a full list

A delta leads to the state of the full list unless it skips an entry: then the
address keeps the decision that it had, where the full list has none.
-/

namespace PrxWaf
namespace Community

open Lib Net

def SignedBlocklistEntry.oversized (entry : SignedBlocklistEntry) : Bool :=
  isOversized entry.scenario || isOversized entry.action

variable (entry : SignedBlocklistEntry)

theorem SignedBlocklistEntry.edit_eq :
    entry.edit =
      if entry.oversized then none else some (.put entry.ip entry.decision) := by
  have hip : ¬ maxIpLen < (utf8 entry.ip.display).length := Nat.not_lt.mpr entry.ip.display_length
  unfold SignedBlocklistEntry.edit SignedBlocklistEntry.oversized
  rw [decide_eq_false hip, Bool.false_or]

/-- The entry of a delta for an entry of a full list; an action that is missing is
the one to block. -/
structure DeltaAddedEntry.Reads (added : DeltaAddedEntry)
    (entry : SignedBlocklistEntry) : Prop where
  ip : IpAddr.fromStr added.ip = some entry.ip
  scenario : added.scenario = entry.scenario
  action : added.action.getD "block".toList = entry.action

namespace DeltaAddedEntry

variable {added : DeltaAddedEntry}

theorem any_isOversized (action : Option Text) :
    action.any isOversized = isOversized (action.getD "block".toList) := by
  cases action with
  | none => decide
  | some action => rfl

theorem Reads.edit_eq {entry : SignedBlocklistEntry} (h : added.Reads entry) :
    added.edit = entry.edit := by
  have hip : ¬ maxIpLen < (utf8 added.ip).length := Nat.not_lt.mpr (IpAddr.fromStr_length h.ip)
  rw [SignedBlocklistEntry.edit_eq]
  unfold DeltaAddedEntry.edit SignedBlocklistEntry.oversized
    DeltaAddedEntry.decision SignedBlocklistEntry.decision
  rw [decide_eq_false hip, Bool.false_or, any_isOversized, h.scenario, h.action, h.ip]
  rfl

theorem Reads.eq {entry other : SignedBlocklistEntry} (h : added.Reads entry)
    (hother : added.Reads other) : entry = other := by
  have hip := h.ip.symm.trans hother.ip
  injection hip with hip
  cases entry
  cases other
  cases hip
  cases h.scenario.symm.trans hother.scenario
  cases h.action.symm.trans hother.action
  rfl

theorem reads_of_ip {ip : IpAddr} (h : IpAddr.fromStr added.ip = some ip) :
    exists entry : SignedBlocklistEntry, entry.ip = ip ∧ added.Reads entry :=
  ⟨{ ip := ip
     scenario := added.scenario
     action := added.action.getD "block".toList }, rfl, h, rfl, rfl⟩

end DeltaAddedEntry

section FullMap

variable {entries : List SignedBlocklistEntry}

def Lists (entries : List SignedBlocklistEntry) (ip : IpAddr) : Prop :=
  exists entry, entry ∈ entries ∧ entry.ip = ip

def DistinctIps (entries : List SignedBlocklistEntry) : Prop :=
  (entries.map SignedBlocklistEntry.ip).Nodup

theorem DistinctIps.eq (h : DistinctIps entries) {x y : SignedBlocklistEntry}
    (hx : x ∈ entries) (hy : y ∈ entries) (hip : x.ip = y.ip) : x = y :=
  List.inj_on_of_nodup_map h hx hy hip

theorem fullMap_of_not_lists {ip : IpAddr} (h : ¬ Lists entries ip) :
    fullMap entries ip = none := by
  apply Edit.applyAll_of_untouched
  intro hmem
  rcases List.mem_map.mp hmem with ⟨e, he, htouched⟩
  rcases List.mem_filterMap.mp he with ⟨entry, hentry, hedit⟩
  exact h ⟨entry, hentry, (SignedBlocklistEntry.edit_some hedit).left.trans htouched⟩

theorem fullMap_of_mem (hdistinct : DistinctIps entries)
    {entry : SignedBlocklistEntry} (hentry : entry ∈ entries) :
    fullMap entries entry.ip =
      if entry.oversized then none else some entry.decision := by
  have hedit : forall e, e ∈ entries.filterMap SignedBlocklistEntry.edit ->
      e.touched = entry.ip -> entry.edit = some e := by
    intro e he htouched
    rcases List.mem_filterMap.mp he with ⟨other, hother, heq⟩
    have hip := (SignedBlocklistEntry.edit_some heq).left.trans htouched
    rw [← hdistinct.eq hother hentry hip]
    exact heq
  have heq := entry.edit_eq
  split at heq
  · rename_i hlong
    rw [if_pos hlong]
    apply Edit.applyAll_of_untouched
    intro hmem
    rcases List.mem_map.mp hmem with ⟨e, he, htouched⟩
    rw [hedit e he htouched] at heq
    cases heq
  · rename_i hfits
    rw [if_neg hfits]
    refine Edit.applyAll_of_result ?_ ?_
    · exact List.mem_map_of_mem (List.mem_filterMap.mpr ⟨entry, hentry, heq⟩)
    · intro e he htouched
      rw [hedit e he htouched] at heq
      cases heq
      rfl

end FullMap

structure DeltaPayload.Between (data : DeltaPayload) (older newer : FullUpdate) : Prop where
  base : data.fromVersion.toInt = older.version.toNat
  target : data.toVersion.toInt = newer.version.toNat
  removed : forall ip,
    (exists entry, entry ∈ data.removed ∧ IpAddr.fromStr entry.ip = some ip) <->
      Lists older.entries ip ∧ ¬ Lists newer.entries ip
  added : forall entry,
    (exists x, x ∈ data.added ∧ x.Reads entry) <-> entry ∈ newer.entries ∧ entry ∉ older.entries
  few : data.added.length + data.removed.length ≤ maxDeltaChanges

section Between

variable {data : DeltaPayload} {older newer : FullUpdate}

theorem DeltaRemovedEntry.edit_of_ip {entry : DeltaRemovedEntry} {ip : IpAddr}
    (h : IpAddr.fromStr entry.ip = some ip) : entry.edit = some (.del ip) := by
  have hip : ¬ maxIpLen < (utf8 entry.ip).length := Nat.not_lt.mpr (IpAddr.fromStr_length h)
  unfold DeltaRemovedEntry.edit
  rw [if_neg hip, h]
  rfl

theorem DeltaPayload.Between.touched_removed (h : data.Between older newer) (ip : IpAddr) :
    ip ∈ (data.removed.filterMap DeltaRemovedEntry.edit).map Edit.touched <->
      Lists older.entries ip ∧ ¬ Lists newer.entries ip := by
  rw [← h.removed, List.mem_map]
  constructor
  · rintro ⟨e, he, rfl⟩
    rcases List.mem_filterMap.mp he with ⟨entry, hentry, hedit⟩
    exact ⟨entry, hentry, (DeltaRemovedEntry.edit_some hedit).left⟩
  · rintro ⟨entry, hentry, hip⟩
    refine ⟨.del ip, ?_, rfl⟩
    exact List.mem_filterMap.mpr ⟨entry, hentry, DeltaRemovedEntry.edit_of_ip hip⟩

theorem DeltaPayload.Between.mem_added (h : data.Between older newer)
    (e : Edit IpAddr CommunityDecision) :
    e ∈ data.added.filterMap DeltaAddedEntry.edit <->
      exists entry, entry ∈ newer.entries ∧ entry ∉ older.entries ∧ entry.edit = some e := by
  rw [List.mem_filterMap]
  constructor
  · rintro ⟨x, hx, hedit⟩
    rcases DeltaAddedEntry.reads_of_ip (DeltaAddedEntry.edit_some hedit).left with
      ⟨entry, _, hreads⟩
    rcases (h.added entry).mp ⟨x, hx, hreads⟩ with ⟨hnewer, holder⟩
    rw [hreads.edit_eq] at hedit
    exact ⟨entry, hnewer, holder, hedit⟩
  · rintro ⟨entry, hnewer, holder, hedit⟩
    rcases (h.added entry).mpr ⟨hnewer, holder⟩ with ⟨x, hx, hreads⟩
    rw [← hreads.edit_eq] at hedit
    exact ⟨x, hx, hedit⟩

theorem DeltaPayload.Between.touched_added (h : data.Between older newer) {ip : IpAddr}
    (hip : ip ∈ (data.added.filterMap DeltaAddedEntry.edit).map Edit.touched) :
    exists entry, entry ∈ newer.entries ∧ entry ∉ older.entries ∧
      entry.ip = ip ∧ entry.oversized = false := by
  rcases List.mem_map.mp hip with ⟨e, he, htouched⟩
  rcases (h.mem_added e).mp he with ⟨entry, hnewer, holder, hedit⟩
  refine ⟨entry, hnewer, holder, (SignedBlocklistEntry.edit_some hedit).left.trans htouched, ?_⟩
  rw [SignedBlocklistEntry.edit_eq] at hedit
  split at hedit
  · cases hedit
  · rename_i hfits
    exact Bool.not_eq_true _ ▸ hfits

def deltaMap (data : DeltaPayload) (older : FullUpdate) : IpAddr -> Option CommunityDecision :=
  Edit.applyAll (fullMap older.entries) data.edits

theorem deltaMap_of_not_lists (h : data.Between older newer) {ip : IpAddr}
    (hip : ¬ Lists newer.entries ip) : deltaMap data older ip = none := by
  rw [deltaMap, DeltaPayload.edits, Edit.applyAll_append]
  have hadded : ip ∉ (data.added.filterMap DeltaAddedEntry.edit).map Edit.touched := by
    intro htouched
    rcases h.touched_added htouched with ⟨entry, hnewer, _, heq, _⟩
    exact hip ⟨entry, hnewer, heq⟩
  rw [Edit.applyAll_of_untouched hadded]
  rcases Decidable.em (ip ∈ (data.removed.filterMap DeltaRemovedEntry.edit).map Edit.touched)
    with htouched | huntouched
  · refine Edit.applyAll_of_result htouched ?_
    intro e he _
    rcases List.mem_filterMap.mp he with ⟨entry, _, hedit⟩
    exact (DeltaRemovedEntry.edit_some hedit).right
  · rw [Edit.applyAll_of_untouched huntouched]
    apply fullMap_of_not_lists
    intro holder
    exact huntouched ((h.touched_removed ip).mpr ⟨holder, hip⟩)

theorem deltaMap_of_lists (h : data.Between older newer) {ip : IpAddr}
    (hip : Lists newer.entries ip) :
    deltaMap data older ip = Edit.applyAll (fullMap older.entries)
        (data.added.filterMap DeltaAddedEntry.edit) ip := by
  rw [deltaMap, DeltaPayload.edits, Edit.applyAll_append]
  apply Edit.applyAll_congr
  right
  apply Edit.applyAll_of_untouched
  intro htouched
  exact ((h.touched_removed ip).mp htouched).right hip

theorem deltaMap_of_kept (h : data.Between older newer)
    (hdistinct : DistinctIps newer.entries) {entry : SignedBlocklistEntry}
    (hentry : entry ∈ newer.entries) (hkept : entry ∈ older.entries ∨ entry.oversized = true) :
    deltaMap data older entry.ip = fullMap older.entries entry.ip := by
  rw [deltaMap_of_lists h ⟨entry, hentry, rfl⟩]
  apply Edit.applyAll_of_untouched
  intro htouched
  rcases h.touched_added htouched with ⟨other, hnewer, holder, hip, hfits⟩
  rw [hdistinct.eq hnewer hentry hip] at holder hfits
  rcases hkept with hmem | hlong
  · exact holder hmem
  · rw [hlong] at hfits
    cases hfits

theorem deltaMap_of_added (h : data.Between older newer)
    (hdistinct : DistinctIps newer.entries) {entry : SignedBlocklistEntry}
    (hentry : entry ∈ newer.entries) (hnew : entry ∉ older.entries)
    (hfits : entry.oversized = false) :
    deltaMap data older entry.ip = some entry.decision := by
  have hedit : entry.edit = some (.put entry.ip entry.decision) := by
    rw [SignedBlocklistEntry.edit_eq, hfits]
    rfl
  rw [deltaMap_of_lists h ⟨entry, hentry, rfl⟩]
  refine Edit.applyAll_of_result ?_ ?_
  · exact List.mem_map_of_mem ((h.mem_added _).mpr ⟨entry, hentry, hnew, hedit⟩)
  · intro e he htouched
    rcases (h.mem_added e).mp he with ⟨other, hother, _, heq⟩
    have hip := (SignedBlocklistEntry.edit_some heq).left.trans htouched
    rw [hdistinct.eq hother hentry hip, hedit] at heq
    cases heq
    rfl

/-- Where a new entry is too long, the old one has to be. -/
def SkipsAgree (older newer : FullUpdate) : Prop :=
  forall x y, x ∈ older.entries -> y ∈ newer.entries -> x.ip = y.ip ->
    y.oversized = true -> x.oversized = true

theorem deltaMap_eq_iff (h : data.Between older newer)
    (holder : DistinctIps older.entries) (hnewer : DistinctIps newer.entries) :
    deltaMap data older = fullMap newer.entries <-> SkipsAgree older newer := by
  constructor
  · intro heq x y hx hy hip hlong
    have hvalue := congrFun heq y.ip
    rw [deltaMap_of_kept h hnewer hy (Or.inr hlong), fullMap_of_mem hnewer hy,
      if_pos hlong, ← hip, fullMap_of_mem holder hx] at hvalue
    split at hvalue
    · assumption
    · cases hvalue
  · intro hskips
    funext ip
    rcases Classical.em (Lists newer.entries ip) with ⟨y, hy, rfl⟩ | hnot
    · rcases Classical.em (y ∈ older.entries) with hmem | hnew
      · rw [deltaMap_of_kept h hnewer hy (Or.inl hmem), fullMap_of_mem hnewer hy,
          fullMap_of_mem holder hmem]
      · rw [fullMap_of_mem hnewer hy]
        cases hlong : y.oversized with
        | false => exact deltaMap_of_added h hnewer hy hnew hlong
        | true =>
          rw [deltaMap_of_kept h hnewer hy (Or.inr hlong)]
          rcases Classical.em (Lists older.entries y.ip) with ⟨x, hx, hip⟩ | habsent
          · rw [← hip, fullMap_of_mem holder hx, hskips x y hx hy hip hlong]
            rfl
          · exact fullMap_of_not_lists habsent
    · rw [deltaMap_of_not_lists h hnot, fullMap_of_not_lists hnot]

end Between

section Pulls

variable {dec : Decoders} {verify : VerifyKey}

variable {fetch : Fetch} {localVersion : UInt64} {update : DeltaUpdate}

theorem fullPull_of_some {update : FullUpdate}
    (h : fetchFull dec verify fetch = some update) (sync : CommunityBlocklistSync) :
    fullPull dec (some verify) sync fetch = update.state := by
  rw [fullPull_eq, h]
  rfl

theorem fetchDelta_of_receive {key : Option VerifyKey} (hversion : localVersion ≠ 0)
    (hreceive : receiveDelta dec key fetch = .ok (some update)) :
    fetchDelta dec key localVersion fetch = checkDelta localVersion update := by
  have hgone : fetch.any (fun response => response.status = 410) = false := by
    cases fetch with
    | none => rfl
    | some response =>
      rw [Option.any_some, decide_eq_false_iff_not]
      intro hstatus
      unfold receiveDelta fetchBody at hreceive
      dsimp only at hreceive
      rw [hstatus] at hreceive
      cases hreceive
  unfold fetchDelta
  rw [if_neg hversion, hgone, hreceive]
  rfl

theorem checkDelta_of_follows (h : update.data.Follows localVersion)
    (hfew : update.data.added.length + update.data.removed.length ≤ maxDeltaChanges) :
    checkDelta localVersion update = .ok (some update) := by
  unfold checkDelta
  dsimp only
  rw [if_neg (Int64.not_le.mpr h.positive), if_neg (Int64.not_le.mpr h.greater),
    if_neg (Decidable.not_not.mpr h.base), if_neg (Nat.not_lt.mpr hfew)]

theorem DeltaPayload.Between.follows {data : DeltaPayload}
    {older newer : FullUpdate} (h : data.Between older newer)
    (hlater : older.version < newer.version) :
    data.Follows older.version := by
  have hlt := UInt64.lt_iff_toNat_lt.mp hlater
  have hbase := h.base
  have htarget := h.target
  refine ⟨?_, ?_, (toUInt64_of_toInt h.base).left⟩
  · rw [Int64.lt_iff_toInt_lt, Int64.toInt_zero]
    lia
  · rw [Int64.lt_iff_toInt_lt]
    lia

/-- After the full list of a version, the delta to a later one is applied.  It leads
to the state of the later full list exactly if no entry that is too long takes the
place of one that is not. -/
theorem deltaPull_eq_fullPull_iff {older newer : FullUpdate} {update : DeltaUpdate}
    {olderFetch newerFetch deltaFetch : Fetch}
    (holder : fetchFull dec verify olderFetch = some older)
    (hnewer : fetchFull dec verify newerFetch = some newer)
    (hdelta : receiveDelta dec (some verify) deltaFetch = .ok (some update))
    (hpositive : 0 < older.version) (hlater : older.version < newer.version)
    (holderIps : DistinctIps older.entries) (hnewerIps : DistinctIps newer.entries)
    (hbetween : update.data.Between older newer) (sync other : CommunityBlocklistSync) :
    exists pulled, deltaPull dec (some verify) (fullPull dec (some verify) sync olderFetch)
        deltaFetch = (pulled, .ok true) ∧
      (pulled = fullPull dec (some verify) other newerFetch <-> SkipsAgree older newer) := by
  have hversion : older.version ≠ 0 := (UInt64.ne_of_lt hpositive).symm
  have hfetch : fetchDelta dec (some verify) older.version deltaFetch = .ok (some update) := by
    rw [fetchDelta_of_receive hversion hdelta,
      checkDelta_of_follows (hbetween.follows hlater) hbetween.few]
  refine ⟨applyDelta older.state update.data, ?_, ?_⟩
  · rw [fullPull_of_some holder]
    unfold deltaPull
    rw [show older.state.currentVersion = older.version from rfl, hfetch]
  · rw [fullPull_of_some hnewer, ← deltaMap_eq_iff hbetween holderIps hnewerIps,
      CommunityBlocklistSync.ext_iff]
    exact and_iff_left (toUInt64_of_toInt hbetween.target).right

end Pulls

def hostEntry (host : UInt8) (scenario : Text) : SignedBlocklistEntry where
  ip := .v4 (.new 10 0 0 host)
  scenario := scenario
  action := "ban".toList

/-- The first payload is the full list of version 1, the second the one of version 2
and the third their delta. -/
def deltaServer (older newer : List SignedBlocklistEntry) (data : DeltaPayload) : Decoders :=
  byteServer (fun b => if b = 1 then some older else if b = 2 then some newer else none)
    (fun b => if b = 3 then some data else none)

def firstList (entries : List SignedBlocklistEntry) : FullUpdate where
  version := 1
  payload := [1]
  entries := entries

def secondList (entries : List SignedBlocklistEntry) : FullUpdate where
  version := 2
  payload := [2]
  entries := entries

section DeltaServer

variable (older newer : List SignedBlocklistEntry) (data : DeltaPayload)

theorem deltaServer_first :
    fetchFull (deltaServer older newer data) signedBytes (bodyOf [1, 1]) = some (firstList older) :=
  rfl

theorem deltaServer_second :
    fetchFull (deltaServer older newer data) signedBytes (bodyOf [2, 2]) =
      some (secondList newer) :=
  rfl

theorem deltaServer_delta :
    receiveDelta (deltaServer older newer data) (some signedBytes) (bodyOf [3]) =
      .ok (some { payload := some [3], data := data }) :=
  rfl

end DeltaServer

theorem lists_singleton (ip : IpAddr) :
    Lists [entry] ip <-> entry.ip = ip := by
  simp [Lists]

theorem distinctIps_singleton :
    DistinctIps [entry] :=
  List.nodup_singleton _

theorem added_singleton {added : DeltaAddedEntry} {new : SignedBlocklistEntry}
    {older : List SignedBlocklistEntry} (hreads : added.Reads new)
    (hnew : new ∉ older) (entry : SignedBlocklistEntry) :
    (exists x, x ∈ [added] ∧ x.Reads entry) <-> entry ∈ [new] ∧ entry ∉ older := by
  simp only [List.mem_singleton, exists_eq_left]
  constructor
  · intro hentry
    rw [hentry.eq hreads]
    exact ⟨rfl, hnew⟩
  · rintro ⟨rfl, _⟩
    exact hreads

def moveDelta : DeltaPayload where
  fromVersion := 1
  toVersion := 2
  added := [{ ip := "10.0.0.2".toList, scenario := "scan".toList, action := some "ban".toList }]
  removed := [{ ip := "10.0.0.1".toList }]

theorem moveDelta_between :
    moveDelta.Between (firstList [hostEntry 1 "scan".toList])
      (secondList [hostEntry 2 "scan".toList]) where
  base := rfl
  target := rfl
  removed := by
    intro ip
    have hip : IpAddr.fromStr "10.0.0.1".toList = some (.v4 (.new 10 0 0 1)) := by
      decide
    rw [firstList, secondList, lists_singleton, lists_singleton]
    simp only [moveDelta, List.mem_singleton, exists_eq_left, hip, Option.some.injEq]
    constructor
    · rintro rfl
      exact ⟨rfl, by decide⟩
    · exact fun h => h.left
  added := added_singleton ⟨by decide, rfl, rfl⟩ (by decide)
  few := by decide

def moveServer : Decoders :=
  deltaServer [hostEntry 1 "scan".toList] [hostEntry 2 "scan".toList] moveDelta

theorem moveDelta_eq_fullPull :
    exists pulled, deltaPull moveServer (some signedBytes)
          (fullPull moveServer (some signedBytes) .new (bodyOf [1, 1]))
          (bodyOf [3]) = (pulled, .ok true) ∧
        pulled = fullPull moveServer (some signedBytes) .new (bodyOf [2, 2]) := by
  rcases deltaPull_eq_fullPull_iff (deltaServer_first _ _ _)
    (deltaServer_second _ _ _) (deltaServer_delta _ _ _) (by decide) (by decide)
    (distinctIps_singleton _) (distinctIps_singleton _) moveDelta_between .new .new
    with ⟨pulled, hpulled, hiff⟩
  refine ⟨pulled, hpulled, hiff.mpr ?_⟩
  intro x y _ hy _ hlong
  rw [List.mem_singleton.mp hy] at hlong
  cases hlong

def longScenario : Text :=
  List.replicate 257 'x'

def longDelta : DeltaPayload where
  fromVersion := 1
  toVersion := 2
  added := [{ ip := "10.0.0.1".toList, scenario := longScenario, action := some "ban".toList }]
  removed := []

theorem longDelta_between :
    longDelta.Between (firstList [hostEntry 1 "scan".toList])
      (secondList [hostEntry 1 longScenario]) where
  base := rfl
  target := rfl
  removed := by
    intro ip
    rw [firstList, secondList, lists_singleton, lists_singleton]
    simp only [longDelta, List.not_mem_nil, false_and, exists_false, false_iff]
    rintro ⟨heq, hne⟩
    exact hne heq
  added := added_singleton ⟨by decide, rfl, rfl⟩ (by decide)
  few := by decide

def longServer : Decoders :=
  deltaServer [hostEntry 1 "scan".toList] [hostEntry 1 longScenario] longDelta

/-- The delta leaves the address blocked, and the full list has no decision for
it. -/
theorem longDelta_ne_fullPull :
    longDelta.Between (firstList [hostEntry 1 "scan".toList])
      (secondList [hostEntry 1 longScenario]) ∧
    exists pulled, deltaPull longServer (some signedBytes)
          (fullPull longServer (some signedBytes) .new (bodyOf [1, 1]))
          (bodyOf [3]) = (pulled, .ok true) ∧ pulled.blockedIps (.v4 (.new 10 0 0 1)) =
          some (hostEntry 1 "scan".toList).decision ∧ (fullPull longServer (some signedBytes) .new
          (bodyOf [2, 2])).blockedIps (.v4 (.new 10 0 0 1)) = none :=
  ⟨longDelta_between, _, rfl, by decide +kernel, by decide +kernel⟩

end Community
end PrxWaf
