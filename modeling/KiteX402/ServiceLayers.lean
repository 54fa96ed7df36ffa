/-
The layers that the service puts around its routes: what each decides about a
request, and what it does to a reply.
-/
import KiteX402.ClientIp
import KiteX402.RateLimit
import KiteX402.RequestId
import KiteX402.Wire

namespace KiteX402

namespace Wrapper

/-- Process-wide request counters: 64 bits that wrap, the gauge with a sign. -/
structure ServiceMetrics where
  startTime : Instant
  totalRequests : UInt64
  paidChallenges : UInt64
  successfulRequests : UInt64
  serverErrors : UInt64
  activeRequests : Int64
deriving DecidableEq

namespace ServiceMetrics

def new (now : Instant) : ServiceMetrics := ⟨now, 0, 0, 0, 0, 0⟩

/-- A request comes in: `ActiveRequestGuard::new`, and it is counted. -/
def enter (metrics : ServiceMetrics) : ServiceMetrics :=
  { metrics with
    activeRequests := metrics.activeRequests + 1
    totalRequests := metrics.totalRequests + 1 }

/-- A reply is counted by its status; other client errors are not counted. -/
def record (metrics : ServiceMetrics) (status : ℕ) : ServiceMetrics :=
  if 500 ≤ status ∧ status < 600 then
    { metrics with serverErrors := metrics.serverErrors + 1 }
  else if status = 402 then
    { metrics with paidChallenges := metrics.paidChallenges + 1 }
  else if 400 ≤ status ∧ status < 500 then metrics
  else { metrics with successfulRequests := metrics.successfulRequests + 1 }

/-- `Drop for ActiveRequestGuard`. -/
def leave (metrics : ServiceMetrics) : ServiceMetrics :=
  { metrics with activeRequests := metrics.activeRequests - 1 }

/-- What the metrics endpoint shows. -/
def snapshot (metrics : ServiceMetrics) (now : Instant) : Json :=
  .object [
    ("active_requests", .number (.posInt (max 0 metrics.activeRequests).toUInt64)),
    ("paid_challenges", .number (.posInt metrics.paidChallenges)),
    ("server_errors", .number (.posInt metrics.serverErrors)),
    ("status", .string "ok"),
    ("successful_requests", .number (.posInt metrics.successfulRequests)),
    ("total_requests", .number (.posInt metrics.totalRequests)),
    ("uptime_seconds", .number (.posInt (UInt64.ofNat ((now - metrics.startTime) / nanosPerSec))))]

end ServiceMetrics

structure SecurityHeadersConfig where
  enabled : Bool
  csp : String
  referrerPolicy : String
deriving DecidableEq

/-- `SecurityHeadersConfig::default()`. -/
def SecurityHeadersConfig.default : SecurityHeadersConfig where
  enabled := true
  csp := "default-src 'none'; frame-ancestors 'none'"
  referrerPolicy := "strict-origin-when-cross-origin"

def securityHeadersMiddleware (cfg : SecurityHeadersConfig) (response : Response) : Response :=
  if cfg.enabled then
    let headers := ((response.headers.insert "x-content-type-options"
      (.fromStatic "nosniff")).insert "x-frame-options" (.fromStatic "DENY")).insert
        "x-xss-protection" (.fromStatic "0")
    { response with
      headers := (headers.insertStr "referrer-policy" cfg.referrerPolicy).insertStr
        "content-security-policy" cfg.csp }
  else response

section Replies

variable (codec : Codec)

/-- The answer of the concurrency limiter when all permits are out. -/
def serviceBusy : Response :=
  let response := codec.jsonResponse 503 (.object [("error", .string "service_busy")])
  { response with
    headers := (response.headers.insert "retry-after" (.fromStatic "1")).insert
      "cache-control" (.fromStatic "no-store") }

def clientAddressUnavailable : Response :=
  let response := codec.jsonResponse 503
    (.object [("error", .string "client_address_unavailable")])
  { response with headers := response.headers.insert "cache-control" (.fromStatic "no-store") }

def invalidForwardedIp : Response :=
  let response := codec.jsonResponse 400 (.object [("error", .string "invalid_forwarded_ip")])
  { response with headers := response.headers.insert "cache-control" (.fromStatic "no-store") }

def rateLimitCapacityExceeded : Response :=
  let response := codec.jsonResponse 503
    (.object [("error", .string "rate_limit_capacity_exceeded")])
  { response with
    headers := (response.headers.insert "cache-control" (.fromStatic "no-store")).insert
      "retry-after" (.fromStatic "1") }

def rateLimitExceeded (rpsText : String) (retryAfter : ℕ) : Response :=
  let response := codec.jsonResponse 429 (.object [
    ("error", .string "rate_limit_exceeded"),
    ("message", .string "Too many requests, please slow down.")])
  { response with
    headers := (((response.headers.insertStr "retry-after" (toString retryAfter)).insertStr
      "x-ratelimit-limit" rpsText).insertStr "x-ratelimit-remaining" "0").insertStr
        "cache-control" "no-store" }

def notFound : Response :=
  codec.jsonResponse 404 (.object [
    ("error", .string "not_found"), ("message", .string "route not found")])

end Replies

/-- The limiter behind the middleware; `rpsText` is how its rate is printed. -/
structure RateLimitLayer where
  config : RateLimiterConfig
  trustedProxies : TrustedProxies
  rpsText : String

namespace RateLimitLayer

variable (layer : RateLimitLayer) (codec : Codec) (clock : MonotonicClock)

/-- From a request to a refusal or the tokens that its client has left, with
the call of the limiter, if there was one.  `peer` is the address of the
transport, where it is known. -/
def check (headers : HeaderMap) (peer : Option IpAddr) (buckets : BucketStore)
    (now : Instant) : (Except Response ℕ × BucketStore) × List LimiterEvent :=
  match peer with
  | none => ((.error (clientAddressUnavailable codec), buckets), [])
  | some peer =>
      match clientIp headers peer layer.trustedProxies with
      | none => ((.error (invalidForwardedIp codec), buckets), [])
      | some ip =>
          match acquire layer.config clock buckets ip now with
          | (.ok remaining, buckets) =>
              ((.ok remaining, buckets), [⟨⟨ip, now⟩, .ok remaining⟩])
          | (.error .capacity, buckets) =>
              ((.error (rateLimitCapacityExceeded codec), buckets),
                [⟨⟨ip, now⟩, .error .capacity⟩])
          | (.error (.quota wait), buckets) =>
              ((.error (rateLimitExceeded codec layer.rpsText wait), buckets),
                [⟨⟨ip, now⟩, .error (.quota wait)⟩])

/-- What an admitted request's reply says about its quota. -/
def annotate (remaining : ℕ) (response : Response) : Response :=
  { response with
    headers := (response.headers.insertStr "x-ratelimit-limit" layer.rpsText).insertStr
      "x-ratelimit-remaining" (toString remaining) }

end RateLimitLayer

end Wrapper

end KiteX402
