import PrxWaf.Lib.Text

/-!
# Values of the device fingerprinting

The values that captures, providers and stores exchange.
-/

namespace PrxWaf
namespace DeviceFp

open Lib

/-- The fingerprints of a connection, each if it could be computed. -/
structure FpKey where
  ja3 : Option Text
  ja4 : Option Text
  h2Akamai : Option Text
  deriving DecidableEq

def FpKey.default : FpKey :=
  { ja3 := none, ja4 := none, h2Akamai := none }

def FpKey.isEmpty (key : FpKey) : Bool :=
  key.ja3.isNone && key.ja4.isNone && key.h2Akamai.isNone

structure Observation where
  distinctIpsInWindow : Nat
  distinctUasInWindow : Nat
  firstSeenUnix : Int
  lastSeenUnix : Int
  deriving DecidableEq

structure IdentityRecord where
  key : FpKey
  firstSeenUnix : Int
  lastSeenUnix : Int
  distinctIps : Nat
  distinctUas : Nat
  deriving DecidableEq

/-- What an endpoint is for, as far as the velocity of transactions depends on
it. -/
inductive EndpointRole where
  | login
  | otp
  | deposit
  | withdrawal
  | limitChange
  | none
  deriving DecidableEq

inductive H2AnomalyReason where
  | badSettings
  | pseudoHeaderOrder
  | invalidPriority
  | zeroWindowUpdate
  deriving DecidableEq

inductive Signal where
  | fpConflict (distinctUas : Nat)
  | ipHopping (distinctIps : Nat)
  | lowEntropyUa (entropyX100 : Nat)
  | uaBlocklisted (pattern : Text)
  | h2Anomaly (reason : H2AnomalyReason)
  | burstInterval (count : Nat)
  | regularity (cvX1000 : Nat)
  | zeroDepth (samples : Nat)
  | missingReferer
  | txSequenceTooFast (source target : EndpointRole) (intervalMs : Nat)
  | withdrawalVelocity (count windowSec : Nat)
  | limitChangeBurst (count windowSec : Nat)
  deriving DecidableEq

end DeviceFp
end PrxWaf
