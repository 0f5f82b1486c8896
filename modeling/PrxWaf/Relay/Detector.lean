import PrxWaf.Relay.Parse

/-!
# The relay detector

The providers named in `signals.enabled` run one after the other on a request.
The first one that needs the forwarded-for chain derives the client address from
it; the others reuse what was derived.  The files behind the autonomous-system
database, the datacenter lists and the Tor list are read outside the model and
enter as the functions that they are loaded into.
-/

namespace PrxWaf
namespace Relay

open Lib Net Http

inductive AsnClass where
  | residential
  | datacenter
  | tor
  | unknown
  deriving DecidableEq, Repr

inductive Signal where
  | xffSpoofPrivate
  | xffMalformed
  | xffTooLong
  | excessiveHopDepth (n : Nat)
  | asnDatacenter (asn : Nat) (org : String)
  | asnResidential
  | asnUnknown
  | torExit
  deriving DecidableEq, Repr

structure ClientIdentity where
  realIp : IpAddr
  asn : Option Nat
  asnClass : AsnClass
  signals : List Signal

structure Derived where
  parsed : ParsedChain
  realIp : IpAddr
  strippedCount : Nat
  spoofPrivateMidChain : Bool
  effectiveDepth : Nat

/-- The request as the providers see it, with the shared derivation. -/
structure RelayCtx where
  peerIp : IpAddr
  headers : HeaderMap
  derived : Option Derived

namespace RelayCtx

def new (peerIp : IpAddr) (headers : HeaderMap) : RelayCtx where
  peerIp := peerIp
  headers := headers
  derived := none

/-- The chain of a request: empty when parsing reports an error. -/
def chain (headers : HeaderMap) (headerNames : List HeaderName) : List IpAddr :=
  let parsed := parseXffChain headers headerNames
  if parsed.hasError then [] else parsed.entries

def derive (ctx : RelayCtx) (headerNames : List HeaderName) (trusted : List IpNet) : Derived :=
  let entries := chain ctx.headers headerNames
  let outcome := deriveRealIp entries trusted ctx.peerIp
  { parsed := parseXffChain ctx.headers headerNames
    realIp := outcome.realIp
    strippedCount := outcome.strippedCount
    spoofPrivateMidChain := outcome.spoofPrivateMidChain
    effectiveDepth := min (entries.length - outcome.strippedCount) 255 }

/-- Read the derivation, computing it if no provider has before. -/
def populateDerived (ctx : RelayCtx) (headerNames : List HeaderName)
    (trusted : List IpNet) : Derived × RelayCtx :=
  match ctx.derived with
  | some d => (d, ctx)
  | none =>
    let d := ctx.derive headerNames trusted
    (d, { ctx with derived := some d })

def effectiveIp (ctx : RelayCtx) : IpAddr :=
  match ctx.derived with
  | none => ctx.peerIp
  | some d => d.realIp

end RelayCtx

structure AsnRecord where
  asn : Nat
  org : String

structure DatacenterSet where
  asnIds : Nat -> Bool
  operatorAllow : Nat -> Bool
  operatorDeny : Nat -> Bool
  containsIp : IpAddr -> Bool

inductive SignalProvider where
  | xffValidator (headers : List HeaderName) (trusted : List IpNet)
  | proxyChain (headers : List HeaderName) (trusted : List IpNet)
      (maxDepth : Nat)
  | asnClassifier (db : IpAddr -> Option AsnRecord) (dc : DatacenterSet)
  | torExit (set : IpAddr -> Bool)

namespace SignalProvider

def classify (db : IpAddr -> Option AsnRecord) (dc : DatacenterSet) (realIp : IpAddr) : Signal :=
  match db realIp with
  | none => .asnUnknown
  | some record =>
    if dc.operatorAllow record.asn then .asnResidential
    else if dc.operatorDeny record.asn || dc.asnIds record.asn || dc.containsIp realIp then
      .asnDatacenter record.asn record.org
    else .asnResidential

def evaluate (p : SignalProvider) (ctx : RelayCtx) : List Signal × RelayCtx :=
  match p with
  | .xffValidator headers trusted =>
    let (d, ctx') := ctx.populateDerived headers trusted
    let tooLong :=
      if d.parsed.tooLongBytes || d.parsed.tooLongCount then
        [Signal.xffTooLong]
      else []
    let malformed := if d.parsed.malformed then [Signal.xffMalformed] else []
    let spoof :=
      if d.spoofPrivateMidChain then [Signal.xffSpoofPrivate] else []
    (tooLong ++ malformed ++ spoof, ctx')
  | .proxyChain headers trusted maxDepth =>
    let (d, ctx') := ctx.populateDerived headers trusted
    (if maxDepth < d.effectiveDepth then
        [Signal.excessiveHopDepth d.effectiveDepth]
      else [], ctx')
  | .asnClassifier db dc => ([classify db dc ctx.effectiveIp], ctx)
  | .torExit set => (if set ctx.effectiveIp then [Signal.torExit] else [], ctx)

/-- Where a provider takes the forwarded-for chain from, if it needs one. -/
def chainSource? : SignalProvider -> Option (List HeaderName × List IpNet)
  | .xffValidator headers trusted => some (headers, trusted)
  | .proxyChain headers trusted _ => some (headers, trusted)
  | .asnClassifier _ _ => none
  | .torExit _ => none

end SignalProvider

abbrev ProviderRegistry := List SignalProvider

namespace ProviderRegistry

/-- Run every provider, collecting the signals in order. -/
def dispatch : ProviderRegistry -> RelayCtx -> List Signal × RelayCtx
  | [], ctx => ([], ctx)
  | p :: rest, ctx =>
    let (signals, ctx') := p.evaluate ctx
    let (more, ctx'') := dispatch rest ctx'
    (signals ++ more, ctx'')

end ProviderRegistry

namespace RelayDetector

def evaluate (registry : ProviderRegistry) (peerIp : IpAddr)
    (headers : HeaderMap) : ClientIdentity :=
  let (signals, ctx) := registry.dispatch (RelayCtx.new peerIp headers)
  { realIp := ctx.effectiveIp
    asn := none
    asnClass := .unknown
    signals := signals }

end RelayDetector

structure AsnConfig where
  provider : Option String := none
  mmdbPath : Option String := none
  datacenterLists : List String := []
  failClose : Bool := false

structure RelayConfig where
  trustedProxies : List IpNet := []
  maxChainDepth : Nat := 3
  forwardedFor : List Text := ["X-Forwarded-For".toList, "X-Real-IP".toList]
  asn : AsnConfig := {}
  torListPath : Option String := none
  signalsEnabled : List String := []

structure Intel where
  iptoasn : String -> Except String (IpAddr -> Option AsnRecord)
  ipinfoLite : String -> Except String (IpAddr -> Option AsnRecord)
  datacenterSet : List String -> Except String DatacenterSet
  torSet : String -> Except String (IpAddr -> Bool)

inductive RegistryError where
  | invalidHeaderName (name : Text)
  | asnFailClose (cause : String)
  | unknownAsnProvider (name : String)
  | missingMmdbPath
  | unknownProvider (name : String)

namespace ProviderRegistry

def emptyAsnDb : IpAddr -> Option AsnRecord :=
  fun _ => none

def emptyDatacenterSet : DatacenterSet where
  asnIds := fun _ => false
  operatorAllow := fun _ => false
  operatorDeny := fun _ => false
  containsIp := fun _ => false

/-- A failed load is an error only when the configuration fails closed. -/
def loadOr (failClose : Bool) (loaded : Except String source)
    (fallback : source) : Except RegistryError source :=
  match loaded with
  | .ok value => .ok value
  | .error cause =>
    if failClose then .error (.asnFailClose cause) else .ok fallback

def loadAsnDb (intel : Intel) (cfg : AsnConfig) :
    Except RegistryError (IpAddr -> Option AsnRecord) :=
  match cfg.provider, cfg.mmdbPath with
  | some "iptoasn", some path =>
    loadOr cfg.failClose (intel.iptoasn path) emptyAsnDb
  | some "ipinfo_lite", some path =>
    loadOr cfg.failClose (intel.ipinfoLite path) emptyAsnDb
  | none, some path =>
    loadOr cfg.failClose (intel.ipinfoLite path) emptyAsnDb
  | some other, _ => .error (.unknownAsnProvider other)
  | none, none =>
    if cfg.failClose then .error .missingMmdbPath else .ok emptyAsnDb

def buildAsnClassifier (intel : Intel) (cfg : AsnConfig) :
    Except RegistryError SignalProvider := do
  let db <- loadAsnDb intel cfg
  let dc <- loadOr cfg.failClose (intel.datacenterSet cfg.datacenterLists)
    emptyDatacenterSet
  return .asnClassifier db dc

def buildTorExit (intel : Intel) (path : Option String) : SignalProvider :=
  match path.map intel.torSet with
  | some (.ok set) => .torExit set
  | _ => .torExit (fun _ => false)

def headerNames : List Text -> Except RegistryError (List HeaderName)
  | [] => .ok []
  | n :: rest =>
    match HeaderName.fromBytes n with
    | none => .error (.invalidHeaderName n)
    | some name => (headerNames rest).map (fun names => name :: names)

def buildProvider (intel : Intel) (cfg : RelayConfig) (name : String) :
    Except RegistryError SignalProvider :=
  if name = "xff_validator" then
    (headerNames cfg.forwardedFor).map (fun headers =>
      .xffValidator headers cfg.trustedProxies)
  else if name = "proxy_chain" then
    (headerNames cfg.forwardedFor).map (fun headers =>
      .proxyChain headers cfg.trustedProxies cfg.maxChainDepth)
  else if name = "asn_classifier" then buildAsnClassifier intel cfg.asn
  else if name = "tor_exit" then .ok (buildTorExit intel cfg.torListPath)
  else .error (.unknownProvider name)

def fromConfig (intel : Intel) (cfg : RelayConfig) : Except RegistryError ProviderRegistry :=
  cfg.signalsEnabled.mapM (buildProvider intel cfg)

end ProviderRegistry

end Relay
end PrxWaf
