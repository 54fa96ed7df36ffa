import KiteX402.AccessPolicy
import KiteX402.AuthorizationIdentity
import KiteX402.AuthorizationKey
import KiteX402.Base64
import KiteX402.BoundedQueue
import KiteX402.CacheControl
import KiteX402.Census
import KiteX402.CidrMatchers
import KiteX402.CircuitBreaker
import KiteX402.CircuitBreakerHistory
import KiteX402.CircuitBreakerLaws
import KiteX402.CircuitBreakerPolling
import KiteX402.CircuitBreakerRate
import KiteX402.CircuitBreakerTrials
import KiteX402.ClientIp
import KiteX402.Clock
import KiteX402.Cors
import KiteX402.Expiration
import KiteX402.ExpirationDrift
import KiteX402.ExpiryStore
import KiteX402.Facilitator
import KiteX402.FacilitatorClient
import KiteX402.Firewall
import KiteX402.FirewallPolicy
import KiteX402.GateDelivery
import KiteX402.GateDeliveryReplay
import KiteX402.GateDeliverySafe
import KiteX402.GateEffect
import KiteX402.GateExchange
import KiteX402.GateExchangeLive
import KiteX402.GateExchangeSafe
import KiteX402.GateExpiration
import KiteX402.GateMetrics
import KiteX402.GateReplies
import KiteX402.GateSystem
import KiteX402.GateSystemPending
import KiteX402.GateSystemRelease
import KiteX402.GateSystemReplay
import KiteX402.GateTrace
import KiteX402.Http
import KiteX402.Idempotency
import KiteX402.IdempotencyAnswers
import KiteX402.IdempotencyBound
import KiteX402.IdempotencyHistory
import KiteX402.IdempotencyLease
import KiteX402.IpAddress
import KiteX402.IpAddressText
import KiteX402.Json
import KiteX402.KeyedLog
import KiteX402.Kite
import KiteX402.Machine
import KiteX402.Middleware
import KiteX402.NonceGuard
import KiteX402.NonceGuardInvariant
import KiteX402.NonceGuardMachine
import KiteX402.NonceGuardReclaim
import KiteX402.NonceGuardReplay
import KiteX402.NonceGuardStatus
import KiteX402.NonceGuardSweep
import KiteX402.Numeral
import KiteX402.PaymentConfig
import KiteX402.Price
import KiteX402.Proxy
import KiteX402.ProxyBasePath
import KiteX402.ProxyHeaders
import KiteX402.ProxyRedirect
import KiteX402.ProxyResponse
import KiteX402.RateLimit
import KiteX402.RateLimitExact
import KiteX402.RateLimitInvariant
import KiteX402.RateLimitQuota
import KiteX402.RateLimitRefinement
import KiteX402.RateLimitRetry
import KiteX402.RequestId
import KiteX402.Serde
import KiteX402.Service
import KiteX402.ServiceBooks
import KiteX402.ServiceGate
import KiteX402.ServiceLayers
import KiteX402.ServiceLife
import KiteX402.ServicePending
import KiteX402.ServiceQuota
import KiteX402.ServiceReplies
import KiteX402.ServiceSystem
import KiteX402.Settings
import KiteX402.SettlementLedger
import KiteX402.SettlementLedgerAgreement
import KiteX402.SettlementLedgerIndex
import KiteX402.SettlementLedgerPayer
import KiteX402.SlidingLimiter
import KiteX402.SlidingLimiterLaws
import KiteX402.Startup
import KiteX402.StartupExchange
import KiteX402.StartupRefusals
import KiteX402.StartupService
import KiteX402.StartupSpace
import KiteX402.Text
import KiteX402.TimeWindow
import KiteX402.TokenBucket
import KiteX402.TopBits
import KiteX402.TrustWalk
import KiteX402.Types
import KiteX402.UrlPath
import KiteX402.VerificationCache
import KiteX402.Webhook
import KiteX402.WebhookEventId
import KiteX402.WebhookInvariant
import KiteX402.WebhookRuns
import KiteX402.Wire
import KiteX402.WireAgreement
