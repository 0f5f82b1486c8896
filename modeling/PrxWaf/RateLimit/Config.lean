import PrxWaf.Common.Tier
import PrxWaf.Lib.Text
import PrxWaf.Lib.Traverse
import PrxWaf.RateLimit.Algo

/-!
# The file of rate limits

The operator writes one limit for each tier.  A file is validated before its limits
take force.
-/

namespace PrxWaf
namespace RateLimit

open Lib

/-- A tier's limit as written; a refill that is not finite has no value. -/
structure TierLimitCfg where
  burstCapacity : UInt32
  burstRefillPerS : Option Rat
  windowSecs : UInt32
  windowLimit : UInt32

structure RateLimitFileConfig where
  schemaVersion : UInt32
  enabled : Bool
  sessionCookie : Text
  tiers : Tier -> Option TierLimitCfg
  redisUrl : Option Text

structure RateLimitConfig where
  sessionCookie : Text
  tiers : Tier -> Option LimitCfg

def schemaVersion : UInt32 := 1

def Tier.name : Tier -> Text
  | .critical => "critical".toList
  | .high => "high".toList
  | .medium => "medium".toList
  | .catchAll => "catch_all".toList

def tierError (tier : Tier) (message : String) : Text :=
  "rate_limit.tiers.".toList ++ Tier.name tier ++ ": ".toList ++ message.toList

def validateTier (tier : Tier) (t : TierLimitCfg) : Except Text Unit :=
  if t.burstCapacity = 0 then
    .error (tierError tier "burst_capacity must be > 0")
  else if t.burstRefillPerS.all (fun refill => refill < 0) then
    .error (tierError tier "burst_refill_per_s must be finite and >= 0")
  else if t.windowSecs = 0 then
    .error (tierError tier "window_secs must be > 0")
  else if t.windowLimit = 0 then
    .error (tierError tier "window_limit must be > 0")
  else .ok ()

def validateTierOf (config : RateLimitFileConfig) (tier : Tier) : Except Text Unit :=
  match config.tiers tier with
  | none => .ok ()
  | some t => validateTier tier t

def ensure (p : Prop) [Decidable p] (message : Text) : Except Text Unit :=
  if p then .ok () else .error message

def validate (config : RateLimitFileConfig) : Except Text Unit := do
  ensure (config.schemaVersion = schemaVersion)
    ("rate_limit: unsupported schema_version ".toList ++
      (Nat.repr config.schemaVersion.toNat).toList ++
      " (this build expects ".toList ++
      (Nat.repr schemaVersion.toNat).toList ++ ")".toList)
  ensure (config.sessionCookie ≠ []) "rate_limit: session_cookie must not be empty".toList
  validateTierOf config .critical
  validateTierOf config .high
  validateTierOf config .medium
  validateTierOf config .catchAll
  ensure (config.redisUrl ≠ some [])
    "rate_limit.redis.url must not be empty when redis block is present".toList

def TierLimitCfg.into (t : TierLimitCfg) : LimitCfg :=
  { burstCapacity := t.burstCapacity
    burstRefillPerS := t.burstRefillPerS.getD 0
    windowSecs := t.windowSecs
    windowLimit := t.windowLimit }

/-- The limits in force; a disabled file limits no tier. -/
def intoRuntime (config : RateLimitFileConfig) : RateLimitConfig :=
  { sessionCookie := config.sessionCookie
    tiers := fun tier =>
      if config.enabled then (config.tiers tier).map TierLimitCfg.into
      else none }

def fromFile (config : RateLimitFileConfig) : Except Text RateLimitConfig :=
  (validate config).map (fun _ => intoRuntime config)

namespace RateLimitConfig

def forTier (config : RateLimitConfig) (tier : Tier) : Option LimitCfg :=
  config.tiers tier

end RateLimitConfig

theorem validated_into {tier : Tier} {t : TierLimitCfg}
    (h : validateTier tier t = .ok ()) : t.into.Validated := by
  unfold validateTier at h
  split at h
  · cases h
  split at h
  · cases h
  split at h
  · cases h
  split at h
  · cases h
  rename_i hcapacity hrefill hsecs hlimit
  have hpos : forall n : UInt32, n ≠ 0 -> 0 < n.toNat := by
    intro n hn
    exact Nat.pos_of_ne_zero (fun h => hn (UInt32.toNat_inj.mp h))
  refine ⟨hpos _ hcapacity, ?_, hpos _ hsecs, hpos _ hlimit⟩
  unfold TierLimitCfg.into
  cases hvalue : t.burstRefillPerS with
  | none =>
    rw [hvalue] at hrefill
    exact absurd rfl hrefill
  | some refill =>
    rw [hvalue] at hrefill
    simpa using hrefill

theorem validateTierOf_of_validate {config : RateLimitFileConfig}
    (h : validate config = .ok ()) (tier : Tier) : validateTierOf config tier = .ok () := by
  rcases bind_ok h with ⟨_, _, h⟩
  rcases bind_ok h with ⟨_, _, h⟩
  rcases bind_ok h with ⟨_, hcritical, h⟩
  rcases bind_ok h with ⟨_, hhigh, h⟩
  rcases bind_ok h with ⟨_, hmedium, h⟩
  rcases bind_ok h with ⟨_, hcatchAll, _⟩
  cases tier with
  | critical => exact hcritical
  | high => exact hhigh
  | medium => exact hmedium
  | catchAll => exact hcatchAll

/-- An accepted file sets the limit for a tier. -/
def LimitCfg.SetByFile (cfg : LimitCfg) : Prop :=
  exists config runtime tier, fromFile config = .ok runtime ∧ runtime.forTier tier = some cfg

theorem LimitCfg.SetByFile.validated {cfg : LimitCfg} (h : cfg.SetByFile) : cfg.Validated := by
  rcases h with ⟨config, runtime, tier, hload, hlimit⟩
  rcases map_ok hload with ⟨_, hvalidate, hruntime⟩
  have htier := validateTierOf_of_validate hvalidate tier
  rw [← hruntime] at hlimit
  unfold RateLimitConfig.forTier intoRuntime at hlimit
  dsimp only at hlimit
  split at hlimit
  · unfold validateTierOf at htier
    cases ht : config.tiers tier with
    | none =>
      rw [ht] at hlimit
      cases hlimit
    | some t =>
      rw [ht] at hlimit htier
      injection hlimit with hlimit
      rw [← hlimit]
      exact validated_into htier
  · cases hlimit

def uniformFile (cfg : LimitCfg) : RateLimitFileConfig :=
  { schemaVersion := schemaVersion
    enabled := true
    sessionCookie := "SESSIONID".toList
    tiers := fun _ =>
      some
        { burstCapacity := cfg.burstCapacity
          burstRefillPerS := some cfg.burstRefillPerS
          windowSecs := cfg.windowSecs
          windowLimit := cfg.windowLimit }
    redisUrl := none }

theorem validateTierOf_uniformFile {cfg : LimitCfg} (h : cfg.Validated) (tier : Tier) :
    validateTierOf (uniformFile cfg) tier = .ok () := by
  rcases h with ⟨hcapacity, hrefill, hsecs, hlimit⟩
  have hne : forall n : UInt32, 0 < n.toNat -> n ≠ 0 := by
    rintro n hn rfl
    exact Nat.lt_irrefl 0 hn
  have hfinite : ¬ (some cfg.burstRefillPerS).all (fun refill => refill < 0) = true := by
    simpa using hrefill
  unfold validateTierOf uniformFile validateTier
  dsimp only
  rw [if_neg (hne _ hcapacity), if_neg hfinite, if_neg (hne _ hsecs), if_neg (hne _ hlimit)]

theorem LimitCfg.Validated.setByFile {cfg : LimitCfg} (h : cfg.Validated) : cfg.SetByFile := by
  refine ⟨uniformFile cfg, intoRuntime (uniformFile cfg), .medium, ?_, rfl⟩
  have hvalidate : validate (uniformFile cfg) = .ok () := by
    unfold validate
    simp only [validateTierOf_uniformFile h]
    rfl
  unfold fromFile
  rw [hvalidate]
  rfl

/-- The limits that are in force are those that pass the validation. -/
theorem LimitCfg.setByFile_iff {cfg : LimitCfg} : cfg.SetByFile <-> cfg.Validated :=
  ⟨SetByFile.validated, Validated.setByFile⟩

end RateLimit
end PrxWaf
