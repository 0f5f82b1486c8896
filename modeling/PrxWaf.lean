import PrxWaf.Cluster.Membership
import PrxWaf.Cluster.SyncDecode
import PrxWaf.Cluster.Frame
import PrxWaf.Relay.ListingOrder
import PrxWaf.Common.UrlValidator
import PrxWaf.Cache.TagHistory
import PrxWaf.Cache.BreakerCycle
import PrxWaf.Cache.BackendAgreement
import PrxWaf.Rules.ConditionTree
import PrxWaf.Rules.MalformedRows
import PrxWaf.Rules.ModSecRendering
import PrxWaf.Rules.HostLists
import PrxWaf.Rules.Manager
import PrxWaf.Rules.RegistryIndex
import PrxWaf.RateLimit.ClockSkew
import PrxWaf.RateLimit.Breaker
import PrxWaf.RateLimit.HostIsolation
import PrxWaf.Engine.LogOnly
import PrxWaf.Engine.AntiHotlink
import PrxWaf.Engine.DirTraversal
import PrxWaf.Engine.SqlInjection
import PrxWaf.Ddos.TierIsolation
import PrxWaf.Ddos.SteadyTraffic
import PrxWaf.Ddos.ExactMedian
import PrxWaf.Ddos.BanHistory
import PrxWaf.DeviceFp.Ja4
import PrxWaf.DeviceFp.H2Akamai
import PrxWaf.DeviceFp.IdentityWindow
import PrxWaf.DeviceFp.ActorHistory
import PrxWaf.TxVelocity.Withdrawals
import PrxWaf.TxVelocity.Cooldown
import PrxWaf.CrowdSec.ActiveDecisions
import PrxWaf.CrowdSec.Durations
import PrxWaf.Cluster.JoinToken
import PrxWaf.Community.Rollback
import PrxWaf.Community.DeltaPull
import PrxWaf.Gateway.PartialContent
import PrxWaf.Gateway.BehaviorOrder
import PrxWaf.Gateway.ForwardedChain
import PrxWaf.Gateway.BodyInspection
import PrxWaf.Gateway.BodyMaskChunks
import PrxWaf.Gateway.MaskCache
import PrxWaf.Gateway.HopByHop
import PrxWaf.Gateway.Tunnel
import PrxWaf.Api.RateLimiter
import PrxWaf.Logging.BatchBuffer
