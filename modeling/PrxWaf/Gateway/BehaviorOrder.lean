import PrxWaf.DeviceFp.Behavior
import PrxWaf.Gateway.RequestFilter

/-!
# When behaviour is recorded

`request_filter` asks the device detector first and records the request later, once
its context is built.  What the inspectors capture of a connection does not reach
it yet: it hands an empty capture to the detector, whatever the client sent.  A
request therefore has no fingerprints, and nothing is recorded of it.
-/

namespace PrxWaf
namespace Gateway

open Lib Net Http DeviceFp Engine

def userAgentName : HeaderName :=
  headerName "user-agent"

def refererName : HeaderName :=
  headerName "referer"

def secPurposeName : HeaderName :=
  headerName "sec-purpose"

/-- A request with what the client sent when its connection began, and the time on
the two clocks. -/
structure Arrival where
  session : Session
  handshake : RawCapture
  unixNow : Int
  nowMs : Nat

namespace Arrival

def peerIp (arrival : Arrival) : IpAddr :=
  arrival.session.identity.getD (arrival.session.peer.getD (.v4 (Ipv4Addr.new 0 0 0 0)))

def header (arrival : Arrival) (name : HeaderName) : Option HeaderValue :=
  HeaderMap.get arrival.session.request.headers name

def userAgent (arrival : Arrival) : Text :=
  ((arrival.header userAgentName).bind HeaderValue.fromUtf8).getD []

def hadReferer (arrival : Arrival) : Bool :=
  (arrival.header refererName).isSome

def hadPrefetchHint (arrival : Arrival) : Bool :=
  ((arrival.header secPurposeName).bind HeaderValue.fromUtf8).any (fun v =>
    (v.splitOn ',').any (fun t =>
      eqIgnoreAsciiCase (Text.trim t) "prefetch".toList))

/-- The request comes from no page, is no prefetch and is not for a path where
this means little. -/
def isCold (cfg : BehaviorConfig) (arrival : Arrival) : Bool :=
  !(arrival.hadReferer || arrival.hadPrefetchHint ||
    isLowSignalPath arrival.session.request.path
      cfg.missingReferer.exemptPaths cfg.missingReferer.exemptPrefixes)

end Arrival

structure DeviceStage where
  detector : DeviceFpDetector
  recorder : Recorder

/-- Nothing is recorded of an actor without fingerprints. -/
def recordSample (recorder : Recorder) (key : FpKey) (path : Text)
    (hadReferer hadPrefetchHint : Bool) (tier : Tier) (nowMs : Nat) :
    Recorder :=
  if key.isEmpty then recorder
  else recorder.record key path hadReferer hadPrefetchHint tier nowMs

namespace DeviceStage

variable {regex glob rest : Type} (proxy : WafProxy regex glob rest)

/-- The part of `request_filter` from the device detector to the recording.  The
capture of the connection is a new one. -/
def requestFilter (stage : DeviceStage) (arrival : Arrival) : DeviceStage × DeviceIdentity :=
  let processed := stage.detector.process stage.recorder RawCapture.default
    arrival.peerIp arrival.userAgent arrival.unixNow
  let stage := { stage with detector := processed.1 }
  match proxy.buildCtx arrival.session with
  | none => (stage, processed.2)
  | some ctx =>
    if ctx.path = "/health".toList ∧ ctx.method = "GET".toList then
      (stage, processed.2)
    else
      ({ stage with
          recorder := recordSample stage.recorder processed.2.key ctx.path
            arrival.hadReferer arrival.hadPrefetchHint ctx.tier
            arrival.nowMs },
        processed.2)

/-- The stage after requests of any actors, which are listed from the newest. -/
def after (stage : DeviceStage) : List Arrival -> DeviceStage
  | [] => stage
  | arrival :: older => (requestFilter proxy (after stage older) arrival).1

def identity (stage : DeviceStage) (past : List Arrival) (arrival : Arrival) : DeviceIdentity :=
  (requestFilter proxy (stage.after proxy past) arrival).2

/-- What the providers that are asked for a request can read of its actor. -/
def snapshotFor (stage : DeviceStage) (past : List Arrival)
    (arrival : Arrival) : Option ActorBehaviorSnapshot :=
  (stage.after proxy past).recorder.snapshot (stage.identity proxy past arrival).key

/-- A request is processed with the empty key, and so it is not recorded. -/
theorem requestFilter_eq (stage : DeviceStage) (arrival : Arrival) :
    requestFilter proxy stage arrival =
      ({ stage with
          detector := (stage.detector.process stage.recorder RawCapture.default
            arrival.peerIp arrival.userAgent arrival.unixNow).1 },
        (stage.detector.process stage.recorder RawCapture.default arrival.peerIp
          arrival.userAgent arrival.unixNow).2) := by
  unfold requestFilter
  dsimp only
  split
  · rfl
  · split
    · rfl
    · rfl

theorem after_unchanged (stage : DeviceStage) (past : List Arrival) :
    (stage.after proxy past).recorder = stage.recorder ∧
      (stage.after proxy past).detector.registry = stage.detector.registry := by
  induction past with
  | nil => exact ⟨rfl, rfl⟩
  | cons arrival older ih =>
    unfold after
    rw [requestFilter_eq]
    exact ih

/-- Whatever the clients sent when their connections began: no request has a
fingerprint, nothing is recorded, the providers that are asked for a request find
nothing, and a missing referer is signalled for none. -/
theorem behavior_unseen {stage : DeviceStage}
    (hnew : stage.recorder.snapshot FpKey.default = none)
    (honly : DeviceFpDetector.RefererFromBehavior stage.detector.registry)
    (past : List Arrival) (arrival : Arrival) :
    (stage.identity proxy past arrival).key = FpKey.default ∧
      (stage.after proxy (arrival :: past)).recorder = stage.recorder ∧
      stage.snapshotFor proxy past arrival = none ∧
      Signal.missingReferer ∉ (stage.identity proxy past arrival).signals := by
  obtain ⟨hrecorder, hregistry⟩ := after_unchanged proxy stage past
  have hidentity : stage.identity proxy past arrival =
      ((stage.after proxy past).detector.process stage.recorder RawCapture.default
        arrival.peerIp arrival.userAgent arrival.unixNow).2 := by
    unfold identity
    rw [requestFilter_eq, hrecorder]
  have hkey : (stage.identity proxy past arrival).key = FpKey.default := by
    rw [hidentity]
    exact FingerprintRegistry.assemble_default _
  refine ⟨hkey, (after_unchanged proxy stage (arrival :: past)).1, ?_, ?_⟩
  · unfold snapshotFor
    rw [hkey, hrecorder]
    exact hnew
  · rw [hidentity]
    unfold DeviceFpDetector.process
    dsimp only
    rw [hregistry]
    exact DeviceFpDetector.missingReferer_not_mem_dispatch honly hnew

end DeviceStage

def behaviorStage : DeviceStage :=
  { detector :=
      { registry := behaviorProviders
        fingerprints := { md5 := id, sha256 := id }
        store := none }
    recorder := Recorder.new (fun _ => 0) BehaviorConfig.default }

def dashboardArrival : Arrival :=
  { session := sessionOf { getRoot shopHost with
      path := "/dashboard".toList
      headers := [(hostName, shopHost)] }
    handshake := { RawCapture.default with tls := some Ja4Fingerprint.plainHello }
    unixNow := 0
    nowMs := 0 }

theorem dashboard_requests_unseen :
    behaviorStage.snapshotFor (quietProxy WafEngine.noLimits)
        [dashboardArrival, dashboardArrival] dashboardArrival = none :=
  (DeviceStage.behavior_unseen (quietProxy WafEngine.noLimits) rfl
    (fun _ hmem hother => absurd hmem hother) [dashboardArrival, dashboardArrival]
    dashboardArrival).2.2.1

/-- The first request of a client whose handshake has a fingerprint comes without a
referer.  The providers find no sample of it, and it gives no signal. -/
theorem cold_start_unseen :
    (behaviorStage.detector.fingerprints.assemble dashboardArrival.handshake).isEmpty = false ∧
      dashboardArrival.isCold behaviorStage.recorder.cfg = true ∧
      behaviorStage.snapshotFor (quietProxy WafEngine.noLimits) [] dashboardArrival = none ∧
      (behaviorStage.identity (quietProxy WafEngine.noLimits) [] dashboardArrival).signals = [] :=
  ⟨by decide +kernel, by decide +kernel, rfl, by decide +kernel⟩

end Gateway
end PrxWaf
