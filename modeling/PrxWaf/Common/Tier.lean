import Mathlib.Logic.Basic

/-!
# Protection tiers

Every request is put into one of four tiers, and each tier has a policy for the
response cache.
-/

namespace PrxWaf

inductive Tier where
  | critical
  | high
  | medium
  | catchAll
  deriving DecidableEq

inductive CachePolicy where
  | noCache
  | shortTtl (ttlSeconds : UInt32)
  | aggressive (ttlSeconds : UInt32)
  | default (ttlSeconds : UInt32)
  deriving DecidableEq

inductive HttpMethod where
  | get
  | head
  | post
  | put
  | delete
  | connect
  | options
  | trace
  | patch
  deriving DecidableEq

end PrxWaf
