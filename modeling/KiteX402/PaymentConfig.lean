/-
The configuration of the payment gate, its counters, and the replies it makes
itself.
-/
import KiteX402.Expiration
import KiteX402.Kite
import KiteX402.NonceGuard
import KiteX402.Wire

namespace KiteX402

/-- Counters of 64 bits that wrap. -/
structure PaymentMetrics where
  requestsTotal : UInt64
  challengesTotal : UInt64
  verificationsSuccess : UInt64
  verificationsFailed : UInt64
  settlementsSuccess : UInt64
  settlementsFailed : UInt64
  totalSettlementLatencyMs : UInt64
deriving DecidableEq

namespace PaymentMetrics

/-- `PaymentMetrics::new()`. -/
def new : PaymentMetrics := ⟨0, 0, 0, 0, 0, 0, 0⟩

def recordRequest (metrics : PaymentMetrics) : PaymentMetrics :=
  { metrics with requestsTotal := metrics.requestsTotal + 1 }

def recordChallenge (metrics : PaymentMetrics) : PaymentMetrics :=
  { metrics with challengesTotal := metrics.challengesTotal + 1 }

def recordVerification (metrics : PaymentMetrics) (success : Bool) :
    PaymentMetrics :=
  if success then
    { metrics with verificationsSuccess := metrics.verificationsSuccess + 1 }
  else
    { metrics with verificationsFailed := metrics.verificationsFailed + 1 }

def recordSettlement (metrics : PaymentMetrics) (success : Bool)
    (latency : Duration) : PaymentMetrics :=
  let counted :=
    if success then
      { metrics with settlementsSuccess := metrics.settlementsSuccess + 1 }
    else
      { metrics with settlementsFailed := metrics.settlementsFailed + 1 }
  { counted with
    totalSettlementLatencyMs :=
      counted.totalSettlementLatencyMs + UInt64.ofNat latency.asMillis }

end PaymentMetrics

/-- The payment gate of a route.  `metrics` tells whether the events of its
requests are counted. -/
structure PaymentConfig where
  payTo : String
  chain : KiteChain
  priceUsd : String
  description : String
  expirationGuard : Option ExpirationGuardConfig
  metrics : Bool
  nonceGuard : Option PaymentNonceReplayGuard

namespace PaymentConfig

/-- No guard and no metrics. -/
def new (payTo : String) (chain : KiteChain) (priceUsd description : String) :
    PaymentConfig :=
  ⟨payTo, chain, priceUsd, description, none, false, none⟩

def withNonceGuard (cfg : PaymentConfig) (guard : PaymentNonceReplayGuard) :
    PaymentConfig :=
  { cfg with nonceGuard := some guard }

/-- What the gate asks for.  `none` is the panic of the price parser. -/
def requirements (cfg : PaymentConfig) (debug : String → String) :
    Option (Except String PaymentRequirements) :=
  match cfg.chain.parsePrice cfg.priceUsd with
  | none => none
  | some (.error error) =>
      some (.error
        ("invalid PRICE_USD configured on the server: " ++ error.message debug))
  | some (.ok asset) =>
      some (.ok {
        scheme := "exact"
        network := cfg.chain.network
        amount := asset.amount
        asset := asset.asset
        payTo := cfg.payTo
        maxTimeoutSeconds := 60
        extra := some asset.extra })

/-- The requirements of a gate survive the wire. -/
theorem requirements_faithful {cfg : PaymentConfig} {debug : String → String}
    {requirements : PaymentRequirements}
    (h : cfg.requirements debug = some (.ok requirements)) :
    requirements.Faithful := by
  unfold PaymentConfig.requirements at h
  split at h
  · contradiction
  · simp at h
  next asset hprice =>
    rw [← Except.ok.inj (Option.some.inj h), PaymentRequirements.Faithful,
      KiteChain.extra_of_parsePrice hprice]
    intro hnull
    have hjson := congrArg Value.json (Option.some.inj hnull)
    rw [KiteChain.extra_json] at hjson
    contradiction

end PaymentConfig

section Replies

variable (codec : Codec)

/-- The body of the challenge, as the `PAYMENT-REQUIRED` header spells it. -/
def challenge (requirements : PaymentRequirements)
    (resourceUrl description : String) (error : Option String) :
    PaymentRequired where
  x402Version := 2
  error := error
  resource := ⟨resourceUrl, some description, some "application/json"⟩
  accepts := [requirements]

/-- A reply of the gate that must not be stored and names a payment header. -/
def paymentReply (name value : String) : Response :=
  let response := codec.jsonResponse 402 (.object [])
  { response with
    headers := (response.headers.insert name (Codec.headerValue value)).insert
      "cache-control" (.fromStatic "no-store") }

def paymentRequiredResponse (requirements : PaymentRequirements)
    (resourceUrl description : String) (error : Option String) : Response :=
  paymentReply codec "payment-required" (codec.encodePaymentRequired
    (challenge requirements resourceUrl description error))

def settlementFailureResponse (settle : SettleResponse) : Response :=
  paymentReply codec "payment-response" (codec.encodeSettleResponse settle)

/-- The receipt is attached to the handler's response, and `private` is merged
into its first `Cache-Control` field. -/
def settledResponse (response : Response) (settle : SettleResponse) : Response :=
  let headers := response.headers.insert "payment-response"
    (Codec.headerValue (codec.encodeSettleResponse settle))
  let cacheControl := match (headers.get "cache-control").bind HeaderValue.toStr with
    | some existing => if existing.isEmpty then "private" else existing ++ ", private"
    | none => "private"
  { response with
    headers := headers.insert "cache-control"
      ((HeaderValue.fromStr cacheControl).getD (.fromStatic "private")) }

def configErrorResponse (error : String) : Response :=
  codec.jsonResponse 500 (.object [("error", .string error)])

def capacityResponse : Response :=
  let response := codec.jsonResponse 503
    (.object [("error", .string "payment_replay_capacity_exceeded")])
  { response with
    headers := (response.headers.insert "cache-control" (.fromStatic "no-store")).insert
      "retry-after" (.fromStatic "1") }

end Replies

end KiteX402
