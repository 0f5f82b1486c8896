import PrxWaf.Community.Blocklist

/-!
# Only what is signed

With a key, a step of the sync task leaves the blocklist as it is, applies a signed
delta, or replaces it by a signed list.  So every entry comes from a signed payload,
and no entry is lost but by one.
-/

namespace PrxWaf
namespace Community

open Lib Net

inductive Update where
  | delta (update : DeltaUpdate)
  | full (update : FullUpdate)

namespace Update

def payload : Update -> Option Bytes
  | delta update => update.payload
  | full update => some update.payload

def install (sync : CommunityBlocklistSync) : Update -> CommunityBlocklistSync
  | delta update => applyDelta sync update.data
  | full update => update.state

end Update

section Steps

variable (dec : Decoders) (verify : VerifyKey)

def pulled (sync : CommunityBlocklistSync) : SyncEvent -> Option Update
  | .startup full => (fetchFull dec verify full).map Update.full
  | .round version delta full =>
    match fetchVersion dec version with
    | .error _ => none
    | .ok serverVersion =>
      if sync.currentVersion < serverVersion then
        match fetchDelta dec (some verify) sync.currentVersion delta with
        | .ok (some update) => some (.delta update)
        | _ => (fetchFull dec verify full).map Update.full
      else none

theorem fullPull_eq (sync : CommunityBlocklistSync) (fetch : Fetch) :
    fullPull dec (some verify) sync fetch =
      ((fetchFull dec verify fetch).map Update.full).elim sync (Update.install sync) := by
  unfold fullPull fullPullVerified
  dsimp only
  cases fetchFull dec verify fetch with
  | none => rfl
  | some update => rfl

theorem syncStep_eq (sync : CommunityBlocklistSync) (event : SyncEvent) :
    syncStep dec (some verify) sync event =
      (pulled dec verify sync event).elim sync (Update.install sync) := by
  cases event with
  | startup full => exact fullPull_eq dec verify sync full
  | round version delta full =>
    unfold syncStep pulled deltaPull
    dsimp only
    cases fetchVersion dec version with
    | error e => rfl
    | ok serverVersion =>
      dsimp only
      split
      · cases fetchDelta dec (some verify) sync.currentVersion delta with
        | error e => exact fullPull_eq dec verify sync full
        | ok checked =>
          cases checked with
          | none => exact fullPull_eq dec verify sync full
          | some update => rfl
      · rfl

def FullCarries (fetch : Fetch) (payload signature : Bytes) : Prop :=
  exists body data, fetchBody maxBlocklistResponseBytes fetch = .ok body ∧
    dec.signed body = some data ∧ hexDecode data.payloadHex = some payload ∧
    hexDecode data.signatureHex = some signature

def DeltaCarries (fetch : Fetch) (payload signature : Bytes) : Prop :=
  exists body delta payloadHex signatureHex,
    fetchBody maxBlocklistResponseBytes fetch = .ok body ∧
    dec.delta body = some delta ∧ delta.payloadHex = some payloadHex ∧
    delta.signatureHex = some signatureHex ∧
    hexDecode payloadHex = some payload ∧ hexDecode signatureHex = some signature

def SyncEvent.Carries (payload signature : Bytes) : SyncEvent -> Prop
  | .startup full => FullCarries dec full payload signature
  | .round _ delta full =>
    DeltaCarries dec delta payload signature ∨ FullCarries dec full payload signature

def Authentic (event : SyncEvent) (payload : Bytes) : Prop :=
  exists signature, event.Carries dec payload signature ∧
    signature.length = ed25519SignatureLen ∧ verify payload signature = true

end Steps

section Inversion

variable {dec : Decoders} {verify : VerifyKey}

theorem verifySignature_some {signatureHex payloadHex : Text} {payload : Bytes}
    (h : verifySignature verify signatureHex payloadHex = some payload) :
    exists signature, hexDecode payloadHex = some payload ∧
      hexDecode signatureHex = some signature ∧ signature.length = ed25519SignatureLen ∧
      verify payload signature = true := by
  unfold verifySignature at h
  split at h
  · rename_i payload' signature hpayload hsignature
    split at h
    · rename_i hvalid
      injection h with h
      rw [h] at hpayload hvalid
      exact ⟨signature, hpayload, hsignature, hvalid⟩
    · cases h
  · cases h

variable {update : DeltaUpdate} {fetch : Fetch}

theorem deltaData_some {delta : DeltaResponse}
    (h : deltaData dec (some verify) delta = .ok (some update)) :
    exists signatureHex payloadHex payload, delta.signatureHex = some signatureHex ∧
      delta.payloadHex = some payloadHex ∧
      verifySignature verify signatureHex payloadHex = some payload ∧
      update.payload = some payload ∧ dec.deltaPayload payload = some update.data := by
  unfold deltaData at h
  dsimp only at h
  split at h
  · rename_i signatureHex payloadHex hsignatureHex hpayloadHex
    split at h
    · cases h
    · rename_i payload hverified
      split at h
      · cases h
      · rename_i data hdata
        cases h
        exact ⟨signatureHex, payloadHex, payload, hsignatureHex, hpayloadHex, hverified, rfl, hdata⟩
  · cases h

theorem receiveDelta_some (h : receiveDelta dec (some verify) fetch = .ok (some update)) :
    exists payload signature, update.payload = some payload ∧
      dec.deltaPayload payload = some update.data ∧ DeltaCarries dec fetch payload signature ∧
      signature.length = ed25519SignatureLen ∧ verify payload signature = true := by
  unfold receiveDelta at h
  split at h
  · cases h
  · rename_i body hbody
    split at h
    · cases h
    · rename_i delta hdelta
      rcases deltaData_some h with ⟨signatureHex, payloadHex, payload,
        hsignatureHex, hpayloadHex, hverified, hpayload, hdata⟩
      rcases verifySignature_some hverified with
        ⟨signature, hpayloadBytes, hsignatureBytes, hlength, hvalid⟩
      exact ⟨payload, signature, hpayload, hdata,
        ⟨body, delta, payloadHex, signatureHex, hbody, hdelta, hpayloadHex,
          hsignatureHex, hpayloadBytes, hsignatureBytes⟩, hlength, hvalid⟩

structure DeltaPayload.Follows (data : DeltaPayload) (localVersion : UInt64) : Prop where
  positive : 0 < data.toVersion
  greater : data.fromVersion < data.toVersion
  base : data.fromVersion = localVersion.toInt64

theorem checkDelta_some {localVersion : UInt64} {checked : DeltaUpdate}
    (h : checkDelta localVersion update = .ok (some checked)) :
    checked = update ∧ update.data.Follows localVersion := by
  unfold checkDelta at h
  dsimp only at h
  split at h
  · cases h
  · rename_i hpositive
    split at h
    · cases h
    · rename_i hgreater
      split at h
      · cases h
      · rename_i hbase
        split at h
        · cases h
        · cases h
          exact ⟨rfl, Int64.not_le.mp hpositive, Int64.not_le.mp hgreater,
            Decidable.not_not.mp hbase⟩

theorem fetchDelta_some {key : Option VerifyKey} {localVersion : UInt64}
    (h : fetchDelta dec key localVersion fetch = .ok (some update)) :
    receiveDelta dec key fetch = .ok (some update) ∧ update.data.Follows localVersion := by
  unfold fetchDelta at h
  split at h
  · cases h
  · split at h
    · cases h
    · split at h
      · cases h
      · cases h
      · rename_i received hreceived
        rcases checkDelta_some h with ⟨heq, hfollows⟩
        rw [heq]
        exact ⟨hreceived, hfollows⟩

theorem fetchFull_some {update : FullUpdate} (h : fetchFull dec verify fetch = some update) :
    fullEntries dec update.payload = some update.entries ∧
      exists signature, FullCarries dec fetch update.payload signature ∧
        signature.length = ed25519SignatureLen ∧ verify update.payload signature = true := by
  unfold fetchFull at h
  split at h
  · cases h
  · rename_i body hbody
    split at h
    · cases h
    · rename_i data hdata
      split at h
      · cases h
      · rename_i payload hverified
        rw [Option.map_eq_some_iff] at h
        rcases h with ⟨entries, hentries, rfl⟩
        rcases verifySignature_some hverified with
          ⟨signature, hpayload, hsignature, hlength, hvalid⟩
        exact ⟨hentries, signature,
          ⟨body, data, hbody, hdata, hpayload, hsignature⟩, hlength, hvalid⟩

section Pulled

variable {sync : CommunityBlocklistSync} {event : SyncEvent}

theorem pulled_cases {update : Update} (h : pulled dec verify sync event = some update) :
    (exists version fetch full delta, event = .round version fetch full ∧
      fetchDelta dec (some verify) sync.currentVersion fetch = .ok (some delta) ∧
      update = .delta delta) ∨ (exists fetch full, fetchFull dec verify fetch = some full ∧
      (event = .startup fetch ∨
        exists version delta, event = .round version delta fetch) ∧ update = .full full) := by
  cases event with
  | startup fetch =>
    rw [pulled, Option.map_eq_some_iff] at h
    rcases h with ⟨full, hfull, rfl⟩
    exact Or.inr ⟨fetch, full, hfull, Or.inl rfl, rfl⟩
  | round version delta fetch =>
    unfold pulled at h
    dsimp only at h
    split at h
    · cases h
    · split at h
      · split at h
        · rename_i received hreceived
          cases h
          exact Or.inl ⟨version, delta, fetch, received, rfl, hreceived, rfl⟩
        · rw [Option.map_eq_some_iff] at h
          rcases h with ⟨full, hfull, rfl⟩
          exact Or.inr ⟨fetch, full, hfull, Or.inr ⟨version, delta, rfl⟩, rfl⟩
      · cases h

theorem pulled_delta {update : DeltaUpdate}
    (h : pulled dec verify sync event = some (.delta update)) :
    update.data.Follows sync.currentVersion ∧
      exists payload, update.payload = some payload ∧
        dec.deltaPayload payload = some update.data ∧ Authentic dec verify event payload := by
  rcases pulled_cases h with ⟨version, fetch, full, delta, hevent, hdelta, heq⟩ |
    ⟨fetch, full, hfull, hevent, heq⟩
  · cases heq
    rcases fetchDelta_some hdelta with ⟨hreceived, hfollows⟩
    rcases receiveDelta_some hreceived with ⟨payload, signature, hpayload, hdata, hcarries, hsigned⟩
    refine ⟨hfollows, payload, hpayload, hdata, signature, ?_, hsigned⟩
    rw [hevent]
    exact Or.inl hcarries
  · cases heq

theorem pulled_full {update : FullUpdate} (h : pulled dec verify sync event = some (.full update)) :
    fullEntries dec update.payload = some update.entries ∧
      Authentic dec verify event update.payload := by
  rcases pulled_cases h with ⟨version, fetch, full, delta, hevent, hdelta, heq⟩ |
    ⟨fetch, full, hfull, hevent, heq⟩
  · cases heq
  · cases heq
    rcases fetchFull_some hfull with ⟨hentries, signature, hcarries, hsigned⟩
    refine ⟨hentries, signature, ?_, hsigned⟩
    rcases hevent with rfl | ⟨version, delta, rfl⟩
    · exact hcarries
    · exact Or.inr hcarries

end Pulled

end Inversion

section Lists

variable (dec : Decoders)

def ListsEntry (payload : Bytes) (ip : IpAddr) (decision : CommunityDecision) : Prop :=
  (exists entries entry, fullEntries dec payload = some entries ∧
    entry ∈ entries ∧ entry.ip = ip ∧ entry.decision = decision) ∨
  (exists data entry, dec.deltaPayload payload = some data ∧
    entry ∈ data.added ∧ IpAddr.fromStr entry.ip = some ip ∧
    entry.decision = decision)

def ListsRemoved (payload : Bytes) (ip : IpAddr) : Prop :=
  exists data entry, dec.deltaPayload payload = some data ∧
    entry ∈ data.removed ∧ IpAddr.fromStr entry.ip = some ip

def ReplacedBy (payload : Bytes) (sync : CommunityBlocklistSync) : Prop :=
  exists entries, fullEntries dec payload = some entries ∧ sync.blockedIps = fullMap entries

end Lists

variable {e : Edit IpAddr CommunityDecision}

theorem DeltaRemovedEntry.edit_some {entry : DeltaRemovedEntry} (h : entry.edit = some e) :
    IpAddr.fromStr entry.ip = some e.touched ∧ e.result = none := by
  unfold DeltaRemovedEntry.edit at h
  split at h
  · cases h
  · rw [Option.map_eq_some_iff] at h
    rcases h with ⟨ip, hip, rfl⟩
    exact ⟨hip, rfl⟩

theorem DeltaAddedEntry.edit_some {entry : DeltaAddedEntry} (h : entry.edit = some e) :
    IpAddr.fromStr entry.ip = some e.touched ∧ e.result = some entry.decision := by
  unfold DeltaAddedEntry.edit at h
  split at h
  · cases h
  · rw [Option.map_eq_some_iff] at h
    rcases h with ⟨ip, hip, rfl⟩
    exact ⟨hip, rfl⟩

theorem SignedBlocklistEntry.edit_some {entry : SignedBlocklistEntry} (h : entry.edit = some e) :
    entry.ip = e.touched ∧ e.result = some entry.decision := by
  unfold SignedBlocklistEntry.edit at h
  split at h
  · cases h
  · cases h
    exact ⟨rfl, rfl⟩

section Listed

variable {dec : Decoders} {payload : Bytes} {ip : IpAddr}
variable {decision : CommunityDecision}

theorem fullMap_listed {entries : List SignedBlocklistEntry}
    (hentries : fullEntries dec payload = some entries) (h : fullMap entries ip = some decision) :
    ListsEntry dec payload ip decision := by
  rcases Edit.applyAll_cases (fun _ => none)
    (entries.filterMap SignedBlocklistEntry.edit) ip with hnone | ⟨e, he, htouched, hresult⟩
  · rw [fullMap, hnone] at h
    cases h
  · rw [List.mem_filterMap] at he
    rcases he with ⟨entry, hentry, hedit⟩
    rcases SignedBlocklistEntry.edit_some hedit with ⟨hip, hdecision⟩
    rw [fullMap, hresult, hdecision] at h
    injection h with h
    exact Or.inl ⟨entries, entry, hentries, hentry, hip.trans htouched, h⟩

theorem applyDelta_listed {data : DeltaPayload} (hdata : dec.deltaPayload payload = some data)
    (sync : CommunityBlocklistSync) (ip : IpAddr) :
    (applyDelta sync data).blockedIps ip = sync.blockedIps ip ∨
      ((applyDelta sync data).blockedIps ip = none ∧ ListsRemoved dec payload ip) ∨
      exists decision, (applyDelta sync data).blockedIps ip = some decision ∧
        ListsEntry dec payload ip decision := by
  rcases Edit.applyAll_cases sync.blockedIps data.edits ip with hkept | ⟨e, he, htouched, hresult⟩
  · exact Or.inl hkept
  · right
    rw [DeltaPayload.edits, List.mem_append, List.mem_filterMap, List.mem_filterMap] at he
    rcases he with ⟨entry, hentry, hedit⟩ | ⟨entry, hentry, hedit⟩
    · rcases DeltaRemovedEntry.edit_some hedit with ⟨hip, hnone⟩
      rw [htouched] at hip
      exact Or.inl ⟨hresult.trans hnone, data, entry, hdata, hentry, hip⟩
    · rcases DeltaAddedEntry.edit_some hedit with ⟨hip, hdecision⟩
      rw [htouched] at hip
      exact Or.inr ⟨entry.decision, hresult.trans hdecision,
        Or.inr ⟨data, entry, hdata, hentry, hip, rfl⟩⟩

end Listed

section Runs

variable {dec : Decoders} {verify : VerifyKey}
variable {sync : CommunityBlocklistSync} {event : SyncEvent}

variable {ip : IpAddr}

theorem syncStep_listed {decision : CommunityDecision}
    (h : (syncStep dec (some verify) sync event).blockedIps ip = some decision) :
    sync.blockedIps ip = some decision ∨
      exists payload, Authentic dec verify event payload ∧ ListsEntry dec payload ip decision := by
  rw [syncStep_eq] at h
  cases hpulled : pulled dec verify sync event with
  | none =>
    rw [hpulled] at h
    exact Or.inl h
  | some update =>
    rw [hpulled] at h
    cases update with
    | delta update =>
      rcases pulled_delta hpulled with ⟨hfollows, payload, hpayload, hdata, hsigned⟩
      change (applyDelta sync update.data).blockedIps ip = some decision at h
      rcases applyDelta_listed hdata sync ip with
        hkept | ⟨hnone, hremoved⟩ | ⟨added, hadded, hlists⟩
      · exact Or.inl (hkept.symm.trans h)
      · rw [hnone] at h
        cases h
      · rw [hadded] at h
        injection h with h
        rw [h] at hlists
        exact Or.inr ⟨payload, hsigned, hlists⟩
    | full update =>
      rcases pulled_full hpulled with ⟨hentries, hsigned⟩
      exact Or.inr ⟨update.payload, hsigned, fullMap_listed hentries h⟩

theorem syncStep_removed (hbefore : sync.blockedIps ip ≠ none)
    (hafter : (syncStep dec (some verify) sync event).blockedIps ip = none) :
    exists payload, Authentic dec verify event payload ∧ (ListsRemoved dec payload ip ∨
        ReplacedBy dec payload (syncStep dec (some verify) sync event)) := by
  rw [syncStep_eq] at hafter ⊢
  cases hpulled : pulled dec verify sync event with
  | none =>
    rw [hpulled] at hafter
    exact absurd hafter hbefore
  | some update =>
    rw [hpulled] at hafter
    cases update with
    | delta update =>
      rcases pulled_delta hpulled with ⟨hfollows, payload, hpayload, hdata, hsigned⟩
      change (applyDelta sync update.data).blockedIps ip = none at hafter
      rcases applyDelta_listed hdata sync ip with
        hkept | ⟨hnone, hremoved⟩ | ⟨added, hadded, hlists⟩
      · exact absurd (hkept.symm.trans hafter) hbefore
      · exact ⟨payload, hsigned, Or.inl hremoved⟩
      · rw [hadded] at hafter
        cases hafter
    | full update =>
      rcases pulled_full hpulled with ⟨hentries, hsigned⟩
      exact ⟨update.payload, hsigned, Or.inr ⟨update.entries, hentries, rfl⟩⟩

theorem runSyncTask_append (key : Option VerifyKey) (events : List SyncEvent) (event : SyncEvent) :
    runSyncTask dec key (events ++ [event]) = syncStep dec key (runSyncTask dec key events) event :=
  List.foldl_concat ..

theorem runSyncTask_listed {events : List SyncEvent} {decision : CommunityDecision}
    (h : (runSyncTask dec (some verify) events).blockedIps ip = some decision) :
    exists event payload, event ∈ events ∧ Authentic dec verify event payload ∧
      ListsEntry dec payload ip decision := by
  induction events using List.reverseRecOn with
  | nil => cases h
  | append_singleton events event ih =>
    rw [runSyncTask_append] at h
    rcases syncStep_listed h with hbefore | ⟨payload, hsigned, hlists⟩
    · rcases ih hbefore with ⟨earlier, payload, hearlier, hrest⟩
      exact ⟨earlier, payload, List.mem_append_left _ hearlier, hrest⟩
    · exact ⟨event, payload, List.mem_concat_self, hsigned, hlists⟩

end Runs

/-- Whatever the server answers: an entry of the blocklist is listed by a signed
payload that was received, and an entry is lost only to a signed payload, which lists
it as removed or replaces the whole list. -/
theorem blockedIps_signed (dec : Decoders) (verify : VerifyKey) (events : List SyncEvent) :
    (forall ip decision, (runSyncTask dec (some verify) events).blockedIps ip = some decision ->
      exists event payload, event ∈ events ∧ Authentic dec verify event payload ∧
        ListsEntry dec payload ip decision) ∧ (forall event ip,
      (runSyncTask dec (some verify) events).blockedIps ip ≠ none ->
      (runSyncTask dec (some verify) (events ++ [event])).blockedIps ip = none ->
      exists payload, Authentic dec verify event payload ∧ (ListsRemoved dec payload ip ∨
          ReplacedBy dec payload (runSyncTask dec (some verify) (events ++ [event])))) := by
  constructor
  · intro ip decision h
    exact runSyncTask_listed h
  · intro event ip hbefore hafter
    rw [runSyncTask_append] at hafter ⊢
    exact syncStep_removed hbefore hafter

end Community
end PrxWaf
