import PrxWaf.Lib.Edits
import PrxWaf.Lib.Utf8
import PrxWaf.Net.IpParse

/-!
# The community blocklist

The blocklist is pulled from a server, as a whole at the start and in increments
afterwards; where an increment is not available the whole list is pulled again.  With
a key, only what is signed is taken over.  The answers of the server are arbitrary;
the decoders of JSON, the decompression and the check of a signature are given by
libraries.
-/

namespace PrxWaf
namespace Community

open Lib Net

abbrev Bytes := List UInt8

def ed25519SignatureLen : Nat := 64

def maxBlocklistResponseBytes : Nat := 8 * 1024 * 1024

def maxDecompressedBytes : Nat := 16 * 1024 * 1024

def maxVersionResponseBytes : Nat := 4096

def maxFieldLen : Nat := 256

def maxIpLen : Nat := 45

def maxDeltaChanges : Nat := 5000

structure BlocklistSignedResponse where
  version : UInt64
  payloadHex : Text
  signatureHex : Text

structure BlocklistEntry where
  ip : Text
  reason : Text
  source : Text

structure BlocklistDecodedResponse where
  version : UInt64
  entries : List BlocklistEntry

structure DeltaAddedEntry where
  ip : Text
  scenario : Text
  action : Option Text

structure DeltaRemovedEntry where
  ip : Text

structure DeltaPayload where
  fromVersion : Int64
  toVersion : Int64
  added : List DeltaAddedEntry
  removed : List DeltaRemovedEntry

structure DeltaResponse extends DeltaPayload where
  signatureHex : Option Text
  payloadHex : Option Text

structure SignedBlocklistEntry where
  ip : IpAddr
  scenario : Text
  action : Text
  deriving DecidableEq

structure CommunityDecision where
  reason : Text
  source : Text
  deriving DecidableEq

/-- What the libraries make of bytes; the decompression is read up to a number of
bytes. -/
structure Decoders where
  version : Bytes -> Option UInt64
  signed : Bytes -> Option BlocklistSignedResponse
  decoded : Bytes -> Option BlocklistDecodedResponse
  delta : Bytes -> Option DeltaResponse
  deltaPayload : Bytes -> Option DeltaPayload
  entries : Bytes -> Option (List SignedBlocklistEntry)
  zstdTake : Nat -> Bytes -> Option Bytes

/-- Whether a signature of a payload is valid under the key. -/
def VerifyKey : Type :=
  Bytes -> Bytes -> Bool

structure Response where
  status : Nat
  contentLength : Option Nat
  chunks : List (Option Bytes)

/-- `none` means that the request failed. -/
abbrev Fetch := Option Response

inductive PullError where
  | request
  | status (code : Nat)
  | contentLength (length : Nat)
  | bodyTooLong
  | chunk
  | parse
  | payload
  | notPositive (toVersion : Int64)
  | notGreater (toVersion fromVersion : Int64)

def hexDigit (c : Char) : Option UInt8 :=
  (toDigit 16 c).map UInt8.ofNat

def hexDecode : Text -> Option Bytes
  | [] => some []
  | [_] => none
  | high :: low :: rest =>
    match hexDigit high, hexDigit low, hexDecode rest with
    | some h, some l, some bytes => some ((h * 16 + l) :: bytes)
    | _, _, _ => none

def readChunks (maxBytes : Nat) (body : Bytes) : List (Option Bytes) -> Except PullError Bytes
  | [] => .ok body
  | none :: _ => .error .chunk
  | some chunk :: rest =>
    if maxBytes < body.length + chunk.length then .error .bodyTooLong
    else readChunks maxBytes (body ++ chunk) rest

def readResponseBodyLimited (maxBytes : Nat) (response : Response) : Except PullError Bytes :=
  match response.contentLength with
  | none => readChunks maxBytes [] response.chunks
  | some length =>
    if maxBytes < length then .error (.contentLength length)
    else readChunks maxBytes [] response.chunks

def isSuccess (status : Nat) : Bool :=
  200 ≤ status && status < 300

def fetchBody (maxBytes : Nat) : Fetch -> Except PullError Bytes
  | none => .error .request
  | some response =>
    if isSuccess response.status then readResponseBodyLimited maxBytes response
    else .error (.status response.status)

def decompressWithLimit (dec : Decoders) (maxBytes : Nat) (data : Bytes) : Option Bytes :=
  (dec.zstdTake (maxBytes + 1) data).filter (fun out => out.length ≤ maxBytes)

def verifySignature (verify : VerifyKey) (signatureHex payloadHex : Text) : Option Bytes :=
  match hexDecode payloadHex, hexDecode signatureHex with
  | some payload, some signature =>
    if signature.length = ed25519SignatureLen ∧ verify payload signature then
      some payload
    else none
  | _, _ => none

def isOversized (field : Text) : Bool :=
  maxFieldLen < (utf8 field).length

def communitySource (action : Text) : Text :=
  "community-".toList ++ action

namespace DeltaAddedEntry

def decision (entry : DeltaAddedEntry) : CommunityDecision where
  reason := entry.scenario
  source := communitySource (entry.action.getD "block".toList)

/-- Entries with fields that are too long are skipped. -/
def edit (entry : DeltaAddedEntry) : Option (Edit IpAddr CommunityDecision) :=
  if maxIpLen < (utf8 entry.ip).length || isOversized entry.scenario ||
      entry.action.any isOversized then none
  else (IpAddr.fromStr entry.ip).map (fun ip => .put ip entry.decision)

end DeltaAddedEntry

def DeltaRemovedEntry.edit (entry : DeltaRemovedEntry) : Option (Edit IpAddr CommunityDecision) :=
  if maxIpLen < (utf8 entry.ip).length then none
  else (IpAddr.fromStr entry.ip).map Edit.del

/-- The removed entries come first. -/
def DeltaPayload.edits (data : DeltaPayload) : List (Edit IpAddr CommunityDecision) :=
  data.removed.filterMap DeltaRemovedEntry.edit ++ data.added.filterMap DeltaAddedEntry.edit

namespace SignedBlocklistEntry

def decision (entry : SignedBlocklistEntry) : CommunityDecision where
  reason := entry.scenario
  source := communitySource entry.action

def edit (entry : SignedBlocklistEntry) : Option (Edit IpAddr CommunityDecision) :=
  if maxIpLen < (utf8 entry.ip.display).length || isOversized entry.scenario ||
      isOversized entry.action then none
  else some (.put entry.ip entry.decision)

end SignedBlocklistEntry

def BlocklistEntry.edit (entry : BlocklistEntry) : Option (Edit IpAddr CommunityDecision) :=
  if maxIpLen < (utf8 entry.ip).length || isOversized entry.reason ||
      isOversized entry.source then none
  else
    (IpAddr.fromStr entry.ip).map (fun ip =>
      .put ip { reason := entry.reason, source := entry.source })

/-!
## Pulls

A pull fetches, checks and installs in that order. What is fetched is kept apart from
what is installed, so that both can be compared with the payload that was signed.
-/

@[ext]
structure CommunityBlocklistSync where
  blockedIps : IpAddr -> Option CommunityDecision
  currentVersion : UInt64

def CommunityBlocklistSync.new : CommunityBlocklistSync where
  blockedIps := fun _ => none
  currentVersion := 0

section Pulls

variable (dec : Decoders)

/-- A delta that is to be applied, with the bytes that it was decoded from if they
are signed. -/
structure DeltaUpdate where
  payload : Option Bytes
  data : DeltaPayload

/-- What of an answer is looked at: the signed payload if there is a key, and
nothing if it is not valid. -/
def deltaData (key : Option VerifyKey) (delta : DeltaResponse) :
    Except PullError (Option DeltaUpdate) :=
  match key with
  | none => .ok (some { payload := none, data := delta.toDeltaPayload })
  | some verify =>
    match delta.signatureHex, delta.payloadHex with
    | some signatureHex, some payloadHex =>
      match verifySignature verify signatureHex payloadHex with
      | none => .ok none
      | some payload =>
        match dec.deltaPayload payload with
        | none => .error .payload
        | some data => .ok (some { payload := some payload, data := data })
    | _, _ => .ok none

/-- A delta for another version or with too many changes is not applied. -/
def checkDelta (localVersion : UInt64) (update : DeltaUpdate) :
    Except PullError (Option DeltaUpdate) :=
  let data := update.data
  if data.toVersion ≤ 0 then .error (.notPositive data.toVersion)
  else if data.toVersion ≤ data.fromVersion then
    .error (.notGreater data.toVersion data.fromVersion)
  else if data.fromVersion ≠ localVersion.toInt64 then .ok none
  else if maxDeltaChanges < data.added.length + data.removed.length then .ok none
  else .ok (some update)

def receiveDelta (key : Option VerifyKey) (fetch : Fetch) : Except PullError (Option DeltaUpdate) :=
  match fetchBody maxBlocklistResponseBytes fetch with
  | .error e => .error e
  | .ok body =>
    match dec.delta body with
    | none => .error .parse
    | some delta => deltaData dec key delta

/-- The first part of `delta_pull`, up to the application; `none` asks for a full
pull. -/
def fetchDelta (key : Option VerifyKey) (localVersion : UInt64) (fetch : Fetch) :
    Except PullError (Option DeltaUpdate) :=
  if localVersion = 0 then .ok none
  else if fetch.any (fun response => response.status = 410) then .ok none
  else
    match receiveDelta dec key fetch with
    | .error e => .error e
    | .ok none => .ok none
    | .ok (some update) => checkDelta localVersion update

def applyDelta (sync : CommunityBlocklistSync) (data : DeltaPayload) : CommunityBlocklistSync where
  blockedIps := Edit.applyAll sync.blockedIps data.edits
  currentVersion := data.toVersion.toUInt64

def deltaPull (key : Option VerifyKey) (sync : CommunityBlocklistSync)
    (fetch : Fetch) : CommunityBlocklistSync × Except PullError Bool :=
  match fetchDelta dec key sync.currentVersion fetch with
  | .error e => (sync, .error e)
  | .ok none => (sync, .ok false)
  | .ok (some update) => (applyDelta sync update.data, .ok true)

structure FullUpdate where
  version : UInt64
  payload : Bytes
  entries : List SignedBlocklistEntry

def fullEntries (payload : Bytes) : Option (List SignedBlocklistEntry) :=
  (decompressWithLimit dec maxDecompressedBytes payload).bind dec.entries

/-- The first part of `full_pull_verified`: the version is not signed. -/
def fetchFull (verify : VerifyKey) (fetch : Fetch) : Option FullUpdate :=
  match fetchBody maxBlocklistResponseBytes fetch with
  | .error _ => none
  | .ok body =>
    match dec.signed body with
    | none => none
    | some data =>
      match verifySignature verify data.signatureHex data.payloadHex with
      | none => none
      | some payload =>
        (fullEntries dec payload).map (fun entries =>
          { version := data.version
            payload := payload
            entries := entries })

def fullMap (entries : List SignedBlocklistEntry) : IpAddr -> Option CommunityDecision :=
  Edit.applyAll (fun _ => none) (entries.filterMap SignedBlocklistEntry.edit)

def FullUpdate.state (update : FullUpdate) : CommunityBlocklistSync where
  blockedIps := fullMap update.entries
  currentVersion := update.version

def fullPullVerified (verify : VerifyKey) (sync : CommunityBlocklistSync)
    (fetch : Fetch) : CommunityBlocklistSync :=
  match fetchFull dec verify fetch with
  | none => sync
  | some update => update.state

def fullPullDecoded (sync : CommunityBlocklistSync) (fetch : Fetch) : CommunityBlocklistSync :=
  match fetchBody maxBlocklistResponseBytes fetch with
  | .error _ => sync
  | .ok body =>
    match dec.decoded body with
    | none => sync
    | some data =>
      { blockedIps := Edit.applyAll (fun _ => none)
          (data.entries.filterMap BlocklistEntry.edit)
        currentVersion := data.version }

def fullPull (key : Option VerifyKey) (sync : CommunityBlocklistSync)
    (fetch : Fetch) : CommunityBlocklistSync :=
  match key with
  | some verify => fullPullVerified dec verify sync fetch
  | none => fullPullDecoded dec sync fetch

def fetchVersion (fetch : Fetch) : Except PullError UInt64 :=
  match fetchBody maxVersionResponseBytes fetch with
  | .error e => .error e
  | .ok body =>
    match dec.version body with
    | none => .error .parse
    | some version => .ok version

/-- The pull at the start, or a round with the answers to its requests. -/
inductive SyncEvent where
  | startup (full : Fetch)
  | round (version delta full : Fetch)

def syncStep (key : Option VerifyKey) (sync : CommunityBlocklistSync) :
    SyncEvent -> CommunityBlocklistSync
  | .startup full => fullPull dec key sync full
  | .round version delta full =>
    match fetchVersion dec version with
    | .error _ => sync
    | .ok serverVersion =>
      if sync.currentVersion < serverVersion then
        match deltaPull dec key sync delta with
        | (updated, .ok true) => updated
        | (updated, _) => fullPull dec key updated full
      else sync

def runSyncTask (key : Option VerifyKey) (events : List SyncEvent) : CommunityBlocklistSync :=
  events.foldl (syncStep dec key) .new

end Pulls

/-! ## Versions

The versions of a delta are signed numbers and the version of the blocklist is not.
-/

theorem toInt_toInt64 {v : UInt64} (h : 0 ≤ v.toInt64.toInt) :
    v.toInt64.toInt = v.toNat := by
  have heq : v.toInt64.toInt = (v.toNat : Int).bmod (2 ^ 64) :=
    BitVec.toInt_eq_toNat_bmod v.toBitVec
  have hlt := v.toNat_lt
  rw [heq] at h ⊢
  unfold Int.bmod at h ⊢
  grind

theorem toNat_toUInt64 {v : Int64} (h : 0 ≤ v.toInt) :
    (v.toUInt64.toNat : Int) = v.toInt := by
  have heq : v.toInt = (v.toUInt64.toNat : Int).bmod (2 ^ 64) :=
    BitVec.toInt_eq_toNat_bmod v.toBitVec
  have hlt := v.toUInt64.toNat_lt
  rw [heq] at h ⊢
  unfold Int.bmod at h ⊢
  grind

theorem toUInt64_of_toInt {x : Int64} {v : UInt64} (h : x.toInt = v.toNat) :
    x = v.toInt64 ∧ x.toUInt64 = v := by
  have hnat : x.toUInt64 = v := by
    rw [← UInt64.toNat_inj]
    have hx := @toNat_toUInt64 x (by lia)
    lia
  refine ⟨?_, hnat⟩
  rw [← hnat]
  rfl

def byteHex (b : UInt8) : Text :=
  [Nat.digitChar (b.toNat / 16), Nat.digitChar (b.toNat % 16)]

def zeroSignature : Text :=
  List.replicate (2 * ed25519SignatureLen) '0'

/-- A server whose payloads are single bytes.  The fields of a delta that are not
signed are of no use. -/
def byteServer (entries : UInt8 -> Option (List SignedBlocklistEntry))
    (delta : UInt8 -> Option DeltaPayload) : Decoders where
  version := fun body => body.head?.map UInt8.toUInt64
  signed := fun body =>
    match body with
    | [version, payload] =>
      some
        { version := version.toUInt64
          payloadHex := byteHex payload
          signatureHex := zeroSignature }
    | _ => none
  decoded := fun _ => none
  delta := fun body =>
    match body with
    | [payload] =>
      some
        { fromVersion := 0
          toVersion := 0
          added := []
          removed := []
          signatureHex := some zeroSignature
          payloadHex := some (byteHex payload) }
    | _ => none
  deltaPayload := fun payload => payload.head?.bind delta
  entries := fun payload => payload.head?.bind entries
  zstdTake := fun n payload => some (payload.take n)

def signedBytes : VerifyKey :=
  fun payload _ => [[1], [2], [3], [4]].contains payload

def bodyOf (bytes : Bytes) : Fetch :=
  some { status := 200, contentLength := none, chunks := [some bytes] }

def gone : Fetch :=
  some { status := 410, contentLength := none, chunks := [] }

end Community
end PrxWaf
