import PrxWaf.Common.Tier
import PrxWaf.DeviceFp.H2Akamai
import PrxWaf.DeviceFp.IdentityMemory
import PrxWaf.DeviceFp.Ja4
import PrxWaf.Lib.Ring

/-!
# The recorder of behaviour and its providers

For each fingerprint the recorder keeps the last requests in a ring.  Providers of
signals look at what it holds; the detector asks all of them for every request.
-/

namespace PrxWaf
namespace DeviceFp

open Lib Net

structure BurstIntervalCfg where
  enabled : Bool
  thresholdMs : Nat
  minConsecutive : Nat

structure ZeroDepthCfg where
  enabled : Bool
  minSamples : Nat
  criticalHitsRequired : Nat
  exemptEntryPaths : List Text

structure MissingRefererCfg where
  enabled : Bool
  exemptPaths : List Text
  exemptPrefixes : List Text

structure BehaviorConfig where
  actorTtlSecs : Nat
  burstInterval : BurstIntervalCfg
  zeroDepth : ZeroDepthCfg
  missingReferer : MissingRefererCfg

def BehaviorConfig.default : BehaviorConfig :=
  { actorTtlSecs := 600
    burstInterval :=
      { enabled := true
        thresholdMs := 50
        minConsecutive := 5 }
    zeroDepth :=
      { enabled := true
        minSamples := 4
        criticalHitsRequired := 2
        exemptEntryPaths := ["/".toList, "/login".toList, "/index".toList] }
    missingReferer :=
      { enabled := true
        exemptPaths := ["/".toList, "/login".toList, "/index".toList, "/health".toList]
        exemptPrefixes := ["/static/".toList, "/assets/".toList, "/api/".toList] } }

def isEntryPath (path : Text) (exemptPaths : List Text) : Bool :=
  exemptPaths.any (fun p => p = path)

def isLowSignalPath (path : Text) (exemptPaths exemptPrefixes : List Text) : Bool :=
  exemptPaths.any (fun p => p = path) || exemptPrefixes.any (fun p => p.isPrefixOf path)

structure Sample where
  tsMs : Nat
  pathHash : UInt64
  hadReferer : Bool
  hadPrefetchHint : Bool
  isEntryPath : Bool
  isLowSignalPath : Bool
  tier : Tier
  deriving DecidableEq

def sampleWindow : Nat := 16

def maxDistinctPaths : Nat := 8

structure ActorBehavior where
  samples : Ring sampleWindow Sample
  distinctPaths : List UInt64
  updatedMs : Nat

namespace ActorBehavior

def new : ActorBehavior :=
  { samples := Ring.empty, distinctPaths := [], updatedMs := 0 }

/-- Beyond the eighth, no further path is remembered. -/
def record (actor : ActorBehavior) (sample : Sample) : ActorBehavior :=
  { samples := actor.samples.record sample
    distinctPaths :=
      if sample.pathHash ∉ actor.distinctPaths ∧ actor.distinctPaths.length < maxDistinctPaths then
        actor.distinctPaths ++ [sample.pathHash]
      else actor.distinctPaths
    updatedMs := sample.tsMs }

end ActorBehavior

structure ActorBehaviorSnapshot where
  samples : List Sample
  distinctPathsLen : Nat
  updatedMs : Nat

/-- The hasher of paths is drawn when the recorder is made. -/
structure Recorder where
  actors : Table FpKey ActorBehavior
  hashPath : Text -> UInt64
  cfg : BehaviorConfig

namespace Recorder

def new (hashPath : Text -> UInt64) (cfg : BehaviorConfig) : Recorder :=
  { actors := Table.empty, hashPath := hashPath, cfg := cfg }

def sampleOf (recorder : Recorder) (path : Text)
    (hadReferer hadPrefetchHint : Bool) (tier : Tier) (nowMs : Nat) : Sample :=
  { tsMs := nowMs
    pathHash := recorder.hashPath path
    hadReferer := hadReferer
    hadPrefetchHint := hadPrefetchHint
    isEntryPath := DeviceFp.isEntryPath path recorder.cfg.zeroDepth.exemptEntryPaths
    isLowSignalPath :=
      DeviceFp.isLowSignalPath path recorder.cfg.missingReferer.exemptPaths
        recorder.cfg.missingReferer.exemptPrefixes
    tier := tier }

def actorOf (recorder : Recorder) (key : FpKey) : ActorBehavior :=
  (recorder.actors.lookup key).getD ActorBehavior.new

def push (recorder : Recorder) (key : FpKey) (sample : Sample) : Recorder :=
  { recorder with
    actors := recorder.actors.insert key ((recorder.actorOf key).record sample) }

def record (recorder : Recorder) (key : FpKey) (path : Text)
    (hadReferer hadPrefetchHint : Bool) (tier : Tier) (nowMs : Nat) :
    Recorder :=
  recorder.push key (recorder.sampleOf path hadReferer hadPrefetchHint tier nowMs)

def snapshot (recorder : Recorder) (key : FpKey) : Option ActorBehaviorSnapshot :=
  (recorder.actors.lookup key).map (fun actor =>
    { samples := actor.samples.items
      distinctPathsLen := actor.distinctPaths.length
      updatedMs := actor.updatedMs })

/-- The recorder without the actors that were idle for longer than the time to
live, and how many these were. -/
def purgeExpired (recorder : Recorder) (nowMs : Nat) : Recorder × Nat :=
  let cutoff := nowMs - recorder.cfg.actorTtlSecs * 1000
  let actors := recorder.actors.retain (fun actor => cutoff ≤ actor.updatedMs)
  ({ recorder with actors := actors }, recorder.actors.size - actors.size)

end Recorder

structure DeviceCtx where
  peerIp : IpAddr
  userAgent : Text
  key : FpKey
  observation : Option Observation

/-- A provider may read the recorder as it is at the time of the evaluation. -/
structure SignalProvider where
  name : Text
  evaluate : Recorder -> DeviceCtx -> List Signal

def intervalsMs (samples : List Sample) : List Nat :=
  (samples.zip samples.tail).map (fun pair => pair.2.tsMs - pair.1.tsMs)

/-- The number of intervals below the threshold since the last longer one. -/
def trailingRun (thresholdMs : Nat) (samples : List Sample) : Nat :=
  ((intervalsMs samples).reverse.takeWhile (fun d => d < thresholdMs)).length

def burstInterval : SignalProvider where
  name := "burst_interval".toList
  evaluate := fun recorder ctx =>
    let cfg := recorder.cfg.burstInterval
    if cfg.enabled = false then []
    else
      match recorder.snapshot ctx.key with
      | none => []
      | some snap =>
        if snap.samples.length < 2 then []
        else
          let run := trailingRun cfg.thresholdMs snap.samples
          if cfg.minConsecutive ≤ run then [.burstInterval run] else []

def zeroDepth : SignalProvider where
  name := "zero_depth".toList
  evaluate := fun recorder ctx =>
    let cfg := recorder.cfg.zeroDepth
    if cfg.enabled = false then []
    else
      match recorder.snapshot ctx.key with
      | none => []
      | some snap =>
        if snap.samples.length < cfg.minSamples then []
        else if snap.distinctPathsLen ≠ 1 then []
        else if snap.samples.any Sample.hadReferer then []
        else if snap.samples.countP (fun s => s.tier = .critical) < cfg.criticalHitsRequired then []
        else if snap.samples.head?.any Sample.isEntryPath then []
        else [.zeroDepth snap.samples.length]

def Sample.isCold (sample : Sample) : Bool :=
  !(sample.hadReferer || sample.hadPrefetchHint || sample.isLowSignalPath)

def missingReferer : SignalProvider where
  name := "missing_referer".toList
  evaluate := fun recorder ctx =>
    if recorder.cfg.missingReferer.enabled = false then []
    else
      match recorder.snapshot ctx.key with
      | none => []
      | some snap =>
        if snap.samples.length ≠ 1 then []
        else
          match snap.samples.head? with
          | none => []
          | some sample =>
            if sample.isCold then [.missingReferer] else []

/-- The providers of behaviour signals except that of regular intervals. -/
def behaviorProviders : List SignalProvider :=
  [burstInterval, zeroDepth, missingReferer]

variable {recorder : Recorder} {ctx : DeviceCtx}

theorem behaviorProviders_of_snapshot_none (h : recorder.snapshot ctx.key = none)
    {provider : SignalProvider} (hmem : provider ∈ behaviorProviders) :
    provider.evaluate recorder ctx = [] := by
  unfold behaviorProviders at hmem
  simp only [List.mem_cons, List.not_mem_nil, or_false] at hmem
  rcases hmem with rfl | rfl | rfl
  · unfold burstInterval
    dsimp only
    rw [h]
    exact ite_self _
  · unfold zeroDepth
    dsimp only
    rw [h]
    exact ite_self _
  · unfold missingReferer
    dsimp only
    rw [h]
    exact ite_self _

structure DeviceIdentity where
  key : FpKey
  signals : List Signal

/-- The hashes that the fingerprints are made with. -/
structure FingerprintRegistry where
  md5 : List UInt8 -> List UInt8
  sha256 : List UInt8 -> List UInt8

def FingerprintRegistry.assemble (fingerprints : FingerprintRegistry) (raw : RawCapture) : FpKey :=
  { ja3 := Ja3Fingerprint.compute fingerprints.md5 raw
    ja4 := Ja4Fingerprint.compute fingerprints.sha256 raw
    h2Akamai := H2AkamaiFingerprint.compute fingerprints.sha256 raw }

theorem FingerprintRegistry.assemble_default (fingerprints : FingerprintRegistry) :
    fingerprints.assemble RawCapture.default = FpKey.default :=
  rfl

structure DeviceFpDetector where
  registry : List SignalProvider
  fingerprints : FingerprintRegistry
  store : Option MemoryIdentityStore

namespace DeviceFpDetector

def dispatch (registry : List SignalProvider) (recorder : Recorder)
    (ctx : DeviceCtx) : List Signal :=
  registry.flatMap (fun provider => provider.evaluate recorder ctx)

/-- Without fingerprints the request is not observed, but the providers are asked
all the same. -/
def process (detector : DeviceFpDetector) (recorder : Recorder) (raw : RawCapture)
    (peerIp : IpAddr) (userAgent : Text) (unixNow : Int) :
    DeviceFpDetector × DeviceIdentity :=
  let key := detector.fingerprints.assemble raw
  let observed :=
    if key.isEmpty then none
    else detector.store.map (fun store =>
      store.observe key peerIp userAgent unixNow)
  let ctx :=
    { peerIp := peerIp
      userAgent := userAgent
      key := key
      observation := observed.map Prod.snd }
  ({ detector with
      store := (observed.map Prod.fst).or detector.store },
    { key := key
      signals := dispatch detector.registry recorder ctx })

def RefererFromBehavior (registry : List SignalProvider) : Prop :=
  forall provider, provider ∈ registry -> provider ∉ behaviorProviders ->
    forall recorder ctx, Signal.missingReferer ∉ provider.evaluate recorder ctx

theorem missingReferer_not_mem_dispatch {registry : List SignalProvider}
    (h : RefererFromBehavior registry) (hsnap : recorder.snapshot ctx.key = none) :
    Signal.missingReferer ∉ dispatch registry recorder ctx := by
  unfold dispatch
  rw [List.mem_flatMap]
  rintro ⟨provider, hmem, hsignal⟩
  rcases Classical.em (provider ∈ behaviorProviders) with hbehavior | hother
  · rw [behaviorProviders_of_snapshot_none hsnap hbehavior] at hsignal
    cases hsignal
  · exact h provider hmem hother recorder ctx hsignal

end DeviceFpDetector

end DeviceFp
end PrxWaf
