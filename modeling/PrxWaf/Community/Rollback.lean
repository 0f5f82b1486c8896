import PrxWaf.Community.SignedSync
import PrxWaf.Lib.Run

/-!
# Older payloads

A delta says in its signed bytes which version it starts from, so an old one is not
applied again.  A full list has its version next to the signed bytes: it may be
replayed, with any version.
-/

namespace PrxWaf
namespace Community

open Lib Net

theorem DeltaPayload.Follows.lt {data : DeltaPayload} {localVersion : UInt64}
    (h : data.Follows localVersion) (hfrom : 0 ≤ data.fromVersion) :
    localVersion < data.toVersion.toUInt64 := by
  have hpositive := Int64.lt_iff_toInt_lt.mp h.positive
  have hgreater := Int64.lt_iff_toInt_lt.mp h.greater
  have hbase := Int64.le_iff_toInt_le.mp hfrom
  rw [Int64.toInt_zero] at hpositive hbase
  rw [h.base] at hgreater hbase
  rw [toInt_toInt64 hbase] at hgreater
  rw [UInt64.lt_iff_toNat_lt]
  have hto := toNat_toUInt64 hpositive.le
  lia

/-!
## Runs with the payload of the last update

A run remembers the payload of the last update. An honest server signs higher
versions later; only the version beside a full list is not signed.
-/

structure TracedSync where
  sync : CommunityBlocklistSync
  origin : Option Bytes

def TracedSync.start : TracedSync where
  sync := .new
  origin := none

section Rollback

variable (dec : Decoders) (verify : VerifyKey)

def tracedStep (s : TracedSync) (event : SyncEvent) : Option TracedSync :=
  some
    { sync := syncStep dec (some verify) s.sync event
      origin := ((pulled dec verify s.sync event).bind Update.payload).or s.origin }

def Signed (payload : Bytes) : Prop :=
  exists signature : Bytes, signature.length = ed25519SignatureLen ∧ verify payload signature = true

-- the version that a payload is for, and when the server signed it
variable (versionOf : Bytes -> UInt64) (signedAt : Bytes -> Nat)

/-- The server signs the payloads of later versions later, and its deltas say the
versions they are for. -/
structure HonestServer : Prop where
  delta : forall {payload data}, Signed verify payload ->
    dec.deltaPayload payload = some data ->
    0 ≤ data.fromVersion ∧ data.toVersion.toUInt64 = versionOf payload
  ordered : forall {payload later}, Signed verify payload ->
    Signed verify later -> versionOf payload < versionOf later ->
    signedAt payload < signedAt later

/-- The list is the whole one of the payload, or the earlier one with its changes. -/
def MadeBy (payload : Bytes) (earlier sync : CommunityBlocklistSync) : Prop :=
  ReplacedBy dec payload sync ∨
    exists data, dec.deltaPayload payload = some data ∧ sync = applyDelta earlier data

/-- The step changes nothing, or makes the list of a signed payload that the event
brings, which is the origin from then on. -/
def Traced (s : TracedSync) (event : SyncEvent) (s' : TracedSync) : Prop :=
  s' = s ∨ exists payload, s'.origin = some payload ∧ Authentic dec verify event payload ∧
    MadeBy dec payload s.sync s'.sync

/-- The step does not lower the version and does not go back to a payload that was
signed earlier than the one the list was made of. -/
def NoRollback (s : TracedSync) (event : SyncEvent) : Prop :=
  forall s', tracedStep dec verify s event = some s' ->
    Traced dec verify s event s' ∧ s.sync.currentVersion ≤ s'.sync.currentVersion ∧
      forall payload installed, s.origin = some payload ->
        s'.origin = some installed -> ¬ signedAt installed < signedAt payload

/-- A full list that is installed comes with the version that its payload is for,
which is a new one. -/
def FreshFull (s : TracedSync) (event : SyncEvent) : Prop :=
  forall update, pulled dec verify s.sync event = some (.full update) ->
    update.version = versionOf update.payload ∧
      (s.origin = none ∨ s.sync.currentVersion < update.version)

def Labelled (s : TracedSync) : Prop :=
  (s.origin = none ∧ s.sync.currentVersion = 0) ∨
    exists payload, s.origin = some payload ∧ Signed verify payload ∧
      s.sync.currentVersion = versionOf payload

end Rollback

theorem Authentic.signed {dec : Decoders} {verify : VerifyKey}
    {event : SyncEvent} {payload : Bytes} (h : Authentic dec verify event payload) :
    Signed verify payload := by
  rcases h with ⟨signature, _, hsigned⟩
  exact ⟨signature, hsigned⟩

section Steps

variable {dec : Decoders} {verify : VerifyKey}
variable {versionOf : Bytes -> UInt64} {signedAt : Bytes -> Nat}
variable {s s' : TracedSync} {event : SyncEvent}

theorem pulled_advances (hhonest : HonestServer dec verify versionOf signedAt)
    (hfresh : FreshFull dec verify versionOf s event) {update : Update}
    (hpulled : pulled dec verify s.sync event = some update) :
    exists payload, update.payload = some payload ∧ Signed verify payload ∧
      (update.install s.sync).currentVersion = versionOf payload ∧
      (s.origin = none ∨ s.sync.currentVersion < versionOf payload) := by
  cases update with
  | delta update =>
    rcases pulled_delta hpulled with ⟨hfollows, payload, hpayload, hdata, hauthentic⟩
    rcases hhonest.delta hauthentic.signed hdata with ⟨hfrom, hto⟩
    refine ⟨payload, hpayload, hauthentic.signed, hto, Or.inr ?_⟩
    rw [← hto]
    exact hfollows.lt hfrom
  | full update =>
    rcases pulled_full hpulled with ⟨_, hauthentic⟩
    rcases hfresh update hpulled with ⟨hversion, hnew⟩
    rw [hversion] at hnew
    exact ⟨update.payload, rfl, hauthentic.signed, hversion, hnew⟩

theorem tracedStep_none (hpulled : pulled dec verify s.sync event = none)
    (hstep : tracedStep dec verify s event = some s') : s' = s := by
  rw [tracedStep, syncStep_eq, hpulled] at hstep
  cases hstep
  rfl

theorem tracedStep_some {update : Update} {payload : Bytes}
    (hpulled : pulled dec verify s.sync event = some update)
    (hpayload : update.payload = some payload) (hstep : tracedStep dec verify s event = some s') :
    s'.sync = update.install s.sync ∧ s'.origin = some payload := by
  rw [tracedStep, syncStep_eq, hpulled, Option.bind_some, hpayload] at hstep
  cases hstep
  exact ⟨rfl, rfl⟩

theorem tracedStep_traced (hstep : tracedStep dec verify s event = some s') :
    Traced dec verify s event s' := by
  cases hpulled : pulled dec verify s.sync event with
  | none => exact Or.inl (tracedStep_none hpulled hstep)
  | some update =>
    right
    cases update with
    | delta update =>
      rcases pulled_delta hpulled with ⟨_, payload, hpayload, hdata, hauthentic⟩
      rcases tracedStep_some hpulled hpayload hstep with ⟨hsync, horigin⟩
      exact ⟨payload, horigin, hauthentic, Or.inr ⟨update.data, hdata, hsync⟩⟩
    | full update =>
      rcases pulled_full hpulled with ⟨hentries, hauthentic⟩
      rcases tracedStep_some hpulled rfl hstep with ⟨hsync, horigin⟩
      refine ⟨update.payload, horigin, hauthentic, Or.inl ⟨update.entries, hentries, ?_⟩⟩
      rw [hsync]
      rfl

theorem tracedStep_labelled (hhonest : HonestServer dec verify versionOf signedAt)
    (hlabelled : Labelled verify versionOf s) (hfresh : FreshFull dec verify versionOf s event)
    (hstep : tracedStep dec verify s event = some s') :
    Labelled verify versionOf s' := by
  cases hpulled : pulled dec verify s.sync event with
  | none =>
    rw [tracedStep_none hpulled hstep]
    exact hlabelled
  | some update =>
    rcases pulled_advances hhonest hfresh hpulled with ⟨payload, hpayload, hsigned, hversion, _⟩
    rcases tracedStep_some hpulled hpayload hstep with ⟨hsync, horigin⟩
    refine Or.inr ⟨payload, horigin, hsigned, ?_⟩
    rw [hsync]
    exact hversion

theorem tracedStep_noRollback (hhonest : HonestServer dec verify versionOf signedAt)
    (hlabelled : Labelled verify versionOf s) (hfresh : FreshFull dec verify versionOf s event) :
    NoRollback dec verify signedAt s event := by
  intro s' hstep
  refine ⟨tracedStep_traced hstep, ?_⟩
  cases hpulled : pulled dec verify s.sync event with
  | none =>
    rw [tracedStep_none hpulled hstep]
    refine ⟨UInt64.le_refl _, ?_⟩
    intro payload installed hpayload hinstalled
    rw [hpayload] at hinstalled
    cases hinstalled
    exact Nat.lt_irrefl _
  | some update =>
    rcases pulled_advances hhonest hfresh hpulled with ⟨payload, hpayload, hsigned, hversion, hnew⟩
    rcases tracedStep_some hpulled hpayload hstep with ⟨hsync, horigin⟩
    rw [hsync, hversion, horigin]
    rcases hlabelled with ⟨hnone, hzero⟩ | ⟨earlier, hearlier, hbefore, hlabel⟩
    · rw [hnone, hzero]
      refine ⟨UInt64.zero_le, ?_⟩
      intro _ _ habsurd
      cases habsurd
    · rw [hearlier, hlabel] at hnew
      have hlt := hnew.resolve_left (fun habsurd => by cases habsurd)
      have hlater := hhonest.ordered hbefore hsigned hlt
      rw [hlabel]
      refine ⟨UInt64.le_of_lt hlt, ?_⟩
      intro first installed hfirst hinstalled
      rw [hearlier] at hfirst
      cases hfirst
      cases hinstalled
      exact Nat.lt_asymm hlater

end Steps

/-- As long as each full list that is installed comes with the version of its
payload, and that version is new, nothing is rolled back. -/
theorem runSyncTask_noRollback {dec : Decoders} {verify : VerifyKey}
    {versionOf : Bytes -> UInt64} {signedAt : Bytes -> Nat} {events : List SyncEvent}
    (hhonest : HonestServer dec verify versionOf signedAt)
    (hfresh : StepsMeet (tracedStep dec verify) (FreshFull dec verify versionOf) .start events) :
    StepsMeet (tracedStep dec verify) (NoRollback dec verify signedAt) .start
      events :=
  stepsMeet_of_invariant (tracedStep_labelled hhonest)
    (tracedStep_noRollback hhonest) (Or.inl ⟨rfl, rfl⟩) hfresh

def byteVersion (payload : Bytes) : UInt64 :=
  (payload.headD 0).toUInt64

def byteTime (payload : Bytes) : Nat :=
  (payload.headD 0).toNat

def listedByte (b : UInt8) : SignedBlocklistEntry where
  ip := .v4 (.new 10 0 0 b)
  scenario := "scan".toList
  action := "block".toList

/-- The full list of a version blocks the address that ends in it; version 4 is
reached by a delta. -/
def smallServer : Decoders :=
  byteServer (fun b => if b = 4 then none else some [listedByte b])
    (fun b =>
      if b = 4 then
        some { fromVersion := 3, toVersion := 4, added := [], removed := [] }
      else none)

theorem smallServer_honest :
    HonestServer smallServer signedBytes byteVersion byteTime where
  delta := by
    intro payload data _ hdata
    change (payload.head?.bind fun b => if b = 4 then some _ else none) = some data at hdata
    cases payload with
    | nil => cases hdata
    | cons b rest =>
      rw [List.head?_cons, Option.bind_some] at hdata
      split at hdata
      · rename_i hb
        cases hdata
        rw [hb]
        exact ⟨by decide, rfl⟩
      · cases hdata
  ordered := by
    intro payload later _ _ hlt
    have hnat := UInt64.lt_iff_toNat_lt.mp hlt
    simpa [byteVersion, byteTime] using hnat

theorem new_versions_noRollback :
    StepsMeet (tracedStep smallServer signedBytes)
      (NoRollback smallServer signedBytes byteTime) .start
      [.startup (bodyOf [2, 2]), .round (bodyOf [3]) gone (bodyOf [3, 3]),
        .round (bodyOf [4]) (bodyOf [4]) gone] := by
  refine runSyncTask_noRollback smallServer_honest ⟨?_, ?_, ?_, trivial⟩
  · intro update hpulled
    cases hpulled
    exact ⟨rfl, Or.inl rfl⟩
  · intro update hpulled
    cases hpulled
    exact ⟨rfl, Or.inr (by decide)⟩
  · intro update hpulled
    cases hpulled

/-- The list of version 2 is replaced by an older one, first under a higher version
and then under its own. -/
theorem replayed_list_rolls_back :
    HonestServer smallServer signedBytes byteVersion byteTime ∧
    exists first second third,
      tracedStep smallServer signedBytes .start (.startup (bodyOf [2, 2])) = some first ∧
      tracedStep smallServer signedBytes first
        (.round (bodyOf [9]) gone (bodyOf [3, 1])) = some second ∧
      tracedStep smallServer signedBytes second
        (.round (bodyOf [9]) gone (bodyOf [1, 1])) = some third ∧
      first.origin = some [2] ∧ second.origin = some [1] ∧ byteTime [1] < byteTime [2] ∧
      second.sync.blockedIps (listedByte 2).ip = none ∧
      second.sync.currentVersion = 3 ∧ third.sync.currentVersion = 1 :=
  ⟨smallServer_honest, _, _, _, rfl, rfl, rfl, rfl, rfl, by decide, by decide, rfl,
    rfl⟩

end Community
end PrxWaf
