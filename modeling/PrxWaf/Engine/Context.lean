import PrxWaf.Cache.Capture
import PrxWaf.Gateway.Request
import PrxWaf.Net.IpParse

/-!
# Contexts and decisions

What the inspection of a request reads, and what it answers.
-/

namespace PrxWaf
namespace Engine

open Lib Net Cache

structure GeoIpInfo where
  country : Text
  province : Text
  city : Text
  isp : Text
  isoCode : Text

/-- What a tier does when a check cannot be made. -/
inductive FailMode where
  | failClose
  | failOpen
  deriving DecidableEq

/-- The part of a site's configuration that the inspection reads. -/
structure HostSettings where
  code : Text
  guardStatus : Bool
  logOnlyMode : Bool

structure DefenseConfig where
  sqli : Bool
  dirTraversal : Bool

/-- The context of a request with the fields that only the inspection reads. -/
structure InspectCtx extends Gateway.RequestCtx where
  clientIp : IpAddr
  bodyPreview : Bytes
  contentLength : Nat
  hostConfig : HostSettings
  geo : Option GeoIpInfo
  failMode : FailMode

def plainCtx : InspectCtx :=
  { method := "GET".toList
    host := "shop".toList
    port := 80
    path := "/".toList
    query := []
    headers := ∅
    tier := .catchAll
    cachePolicy := .noCache
    cookies := ∅
    clientIp := .v4 (Ipv4Addr.new 192 0 2 7)
    bodyPreview := []
    contentLength := 0
    hostConfig := {
      code := "shop".toList
      guardStatus := true
      logOnlyMode := false }
    geo := none
    failMode := .failOpen }

inductive Phase where
  | ipWhitelist
  | ipBlacklist
  | urlWhitelist
  | urlBlacklist
  | sqlInjection
  | xss
  | rce
  | scanner
  | dirTraversal
  | bot
  | rateLimit
  | customRule
  | owasp
  | sensitive
  | antiHotlink
  | crowdSec
  | geoIp
  | community
  | ddos
  deriving DecidableEq

structure DetectionResult where
  ruleId : Option Text
  ruleName : Text
  phase : Phase
  detail : Text
  deriving DecidableEq

inductive WafAction where
  | allow
  | block (status : UInt16) (body : Option Text)
  | logOnly
  | redirect (url : Text)
  deriving DecidableEq

structure WafDecision where
  action : WafAction
  result : Option DetectionResult
  deriving DecidableEq

namespace WafDecision

def allow : WafDecision :=
  { action := .allow, result := none }

def block (status : UInt16) (body : Option Text) (result : DetectionResult) : WafDecision :=
  { action := .block status body, result := some result }

def isAllowed (decision : WafDecision) : Bool :=
  match decision.action with
  | .allow => true
  | .logOnly => true
  | _ => false

end WafDecision

end Engine
end PrxWaf
