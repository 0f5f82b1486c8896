import PrxWaf.DeviceFp.Types
import PrxWaf.Lib.Machine

/-!
# Configuration of the transaction velocity

What the operator writes is validated before it replaces the running
configuration.
-/

namespace PrxWaf
namespace TxVelocity

open Lib DeviceFp

def schemaVersion : Nat := 1

structure RoleRule where
  role : EndpointRole
  path : Text

structure SequenceCfg where
  minHumanMs : Nat

structure VelocityCfg where
  maxCount : Nat
  windowMs : Nat

structure ClassifierConfigs where
  sequence : Option SequenceCfg
  withdrawalVelocity : Option VelocityCfg
  limitChangeVelocity : Option VelocityCfg

structure TxVelocityFileConfig where
  schemaVersion : Nat
  enabled : Bool
  sessionCookie : Text
  signalCooldownMs : Nat
  sessionTtlSecs : Nat
  janitorPeriodSecs : Nat
  endpointRoles : List RoleRule
  classifiers : ClassifierConfigs

structure TxVelocityConfig where
  enabled : Bool
  sessionCookie : Text
  signalCooldownMs : Nat
  sessionTtlSecs : Nat
  janitorPeriodSecs : Nat
  classifiers : ClassifierConfigs

def TxVelocityConfig.sessionTtlMs (cfg : TxVelocityConfig) : Nat :=
  min (cfg.sessionTtlSecs * 1000) u64Max

namespace TxVelocityFileConfig

/-- The values that the operator leaves out. -/
def default : TxVelocityFileConfig :=
  { schemaVersion := TxVelocity.schemaVersion
    enabled := false
    sessionCookie := "SESSIONID".toList
    signalCooldownMs := 5000
    sessionTtlSecs := 600
    janitorPeriodSecs := 60
    endpointRoles := []
    classifiers :=
      { sequence := none
        withdrawalVelocity := none
        limitChangeVelocity := none } }

def endpointRole (index : Nat) : Text :=
  "tx_velocity.endpoint_roles[".toList ++ (Nat.repr index).toList ++ "]: ".toList

def validateRoles : Nat -> List RoleRule -> Except Text Unit
  | _, [] => .ok ()
  | index, rule :: rest =>
    if rule.path = [] then
      .error (endpointRole index ++ "path must not be empty".toList)
    else if "*)*".toList <:+: rule.path ∨ "+)+".toList <:+: rule.path then
      .error (endpointRole index ++ "nested unbounded quantifiers are rejected".toList)
    else validateRoles (index + 1) rest

def validate (config : TxVelocityFileConfig) : Except Text Unit :=
  if config.schemaVersion ≠ TxVelocity.schemaVersion then
    .error ("tx_velocity: unsupported schema_version ".toList ++
      (Nat.repr config.schemaVersion).toList ++
      " (this build expects ".toList ++
      (Nat.repr TxVelocity.schemaVersion).toList ++ ")".toList)
  else if config.sessionCookie = [] then
    .error "tx_velocity: session_cookie must not be empty".toList
  else if config.sessionTtlSecs = 0 then
    .error "tx_velocity: session_ttl_secs must be > 0".toList
  else if config.janitorPeriodSecs = 0 then
    .error "tx_velocity: janitor_period_secs must be > 0".toList
  else validateRoles 0 config.endpointRoles

/-- The tagger of roles is compiled here as well; the recorder does not read
it. -/
def intoRuntime (config : TxVelocityFileConfig) : TxVelocityConfig :=
  { enabled := config.enabled
    sessionCookie := config.sessionCookie
    signalCooldownMs := config.signalCooldownMs
    sessionTtlSecs := config.sessionTtlSecs
    janitorPeriodSecs := config.janitorPeriodSecs
    classifiers := config.classifiers }

end TxVelocityFileConfig

end TxVelocity
end PrxWaf
