/-
What `main` makes of its environment before it listens: the variables in the order
in which they are read, their defaults and bounds, and the panics that refuse them.
-/
import KiteX402.Cors
import KiteX402.FacilitatorClient
import KiteX402.ServiceSystem
import KiteX402.Settings

namespace KiteX402

/-- What stands under the name of a variable; one that is no Unicode has only its
debug text. -/
inductive EnvValue where
  | unset
  | notUnicode (debug : String)
  | text (value : String)

abbrev EnvSetting := Setting String EnvValue String

namespace EnvSetting

/-- `env::var(key).ok()`. -/
def var (key : String) : EnvSetting (Option String) := fun env =>
  .ok (match env key with
    | .text value => some value
    | _ => none)

/-- `env_or`. -/
def envOr (key fallback : String) : EnvSetting String := fun env =>
  .ok (match env key with
    | .text value =>
        if trim value.toList = [] then fallback else String.ofList (trim value.toList)
    | _ => fallback)

/-- `env::var(key).expect(reason)`. -/
def expectVar (key reason : String) : EnvSetting String := fun env =>
  match env key with
  | .text value => .ok value
  | .unset => .error s!"{reason}: NotPresent"
  | .notUnicode debug => .error s!"{reason}: NotUnicode({debug})"

/-- A panic. -/
def refuse {A : Type} (text : String) : EnvSetting A := fun _ => .error text

/-- `Result::expect`, of an error with its debug text. -/
def expect {A : Type} (reason : String) : Except String A → EnvSetting A
  | .ok value => pure value
  | .error debug => refuse s!"{reason}: {debug}"

end EnvSetting

open EnvSetting

/-- The loop of an integer's `FromStr`: a number that no longer fits is found before
what follows it is looked at. -/
def parseDigits (limit value : ℕ) : List Char → Except String ℕ
  | [] => .ok value
  | c :: rest =>
      if c.isDigit then
        let value := value * 10 + (c.toNat - '0'.toNat)
        if value < limit then parseDigits limit value rest
        else .error "ParseIntError \x7b kind: PosOverflow \x7d"
      else .error "ParseIntError \x7b kind: InvalidDigit \x7d"

/-- `str::parse` for unsigned integers below a limit. -/
def parseUnsigned (limit : ℕ) : List Char → Except String ℕ
  | [] => .error "ParseIntError \x7b kind: Empty \x7d"
  | ['+'] => .error "ParseIntError \x7b kind: InvalidDigit \x7d"
  | '+' :: rest => parseDigits limit 0 rest
  | text => parseDigits limit 0 text

/-- A text has a name in it. -/
def Mentions (text name : String) : Prop := ∃ before after, text = before ++ name ++ after

section Numbers

/-- A variable with a number: its default, the limit of its type, and why a text is
refused. -/
structure NumberVar where
  name : String
  fallback : String
  limit : ℕ
  unread : String
  unread_mentions : Mentions unread name

/-- One with bounds. -/
structure BoundedVar extends NumberVar where
  low : ℕ
  high : ℕ
  unfit : String
  unfit_mentions : Mentions unfit name

def NumberVar.parse (number : NumberVar) : EnvSetting ℕ := do
  let text ← envOr number.name number.fallback
  expect number.unread (parseUnsigned number.limit text.toList)

/-- The numbers that are accepted. -/
abbrev BoundedVar.Value (number : BoundedVar) : Type :=
  { value : ℕ // number.low ≤ value ∧ value ≤ number.high }

def BoundedVar.check (number : BoundedVar) (value : ℕ) : EnvSetting number.Value :=
  if h : number.low ≤ value ∧ value ≤ number.high then pure ⟨value, h⟩
  else refuse number.unfit

def BoundedVar.read (number : BoundedVar) : EnvSetting number.Value := do
  let value ← number.parse
  number.check value

def portVar : NumberVar where
  name := "PORT"
  fallback := "8402"
  limit := 2 ^ 16
  unread := "PORT must be a number"
  unread_mentions := ⟨"", " must be a number", rfl⟩

def maxClientsVar : BoundedVar where
  name := "RATE_LIMIT_MAX_CLIENTS"
  fallback := "10000"
  limit := 2 ^ 64
  unread := "RATE_LIMIT_MAX_CLIENTS must be an integer between 1 and 1000000"
  unread_mentions := ⟨"", " must be an integer between 1 and 1000000", rfl⟩
  low := 1
  high := 1000000
  unfit := "RATE_LIMIT_MAX_CLIENTS must be an integer between 1 and 1000000"
  unfit_mentions := ⟨"", " must be an integer between 1 and 1000000", rfl⟩

def idleTimeoutSecsVar : BoundedVar where
  name := "RATE_LIMIT_IDLE_TIMEOUT_SECS"
  fallback := "300"
  limit := 2 ^ 64
  unread := "RATE_LIMIT_IDLE_TIMEOUT_SECS must be an integer between 1 and 86400"
  unread_mentions := ⟨"", " must be an integer between 1 and 86400", rfl⟩
  low := 1
  high := 86400
  unfit := "RATE_LIMIT_IDLE_TIMEOUT_SECS must be an integer between 1 and 86400"
  unfit_mentions := ⟨"", " must be an integer between 1 and 86400", rfl⟩

def upstreamTimeoutMsVar : BoundedVar where
  name := "UPSTREAM_TIMEOUT_MS"
  fallback := "10000"
  limit := 2 ^ 64
  unread := "UPSTREAM_TIMEOUT_MS must be a number"
  unread_mentions := ⟨"", " must be a number", rfl⟩
  low := 100
  high := 300000
  unfit := "UPSTREAM_TIMEOUT_MS must be between 100 and 300000 ms"
  unfit_mentions := ⟨"", " must be between 100 and 300000 ms", rfl⟩

def facilitatorTimeoutMsVar : BoundedVar where
  name := "FACILITATOR_TIMEOUT_MS"
  fallback := "30000"
  limit := 2 ^ 64
  unread := "FACILITATOR_TIMEOUT_MS must be a number"
  unread_mentions := ⟨"", " must be a number", rfl⟩
  low := 100
  high := 300000
  unfit := "FACILITATOR_TIMEOUT_MS must be between 100 and 300000 ms"
  unfit_mentions := ⟨"", " must be between 100 and 300000 ms", rfl⟩

def maxConcurrentVar : BoundedVar where
  name := "MAX_CONCURRENT_REQUESTS"
  fallback := "64"
  limit := 2 ^ 64
  unread := "MAX_CONCURRENT_REQUESTS must be a number"
  unread_mentions := ⟨"", " must be a number", rfl⟩
  low := 1
  high := 10000
  unfit := "MAX_CONCURRENT_REQUESTS must be between 1 and 10000"
  unfit_mentions := ⟨"", " must be between 1 and 10000", rfl⟩

def settleRetriesVar : NumberVar where
  name := "FACILITATOR_SETTLE_RETRIES"
  fallback := "0"
  limit := 2 ^ 32
  unread := "FACILITATOR_SETTLE_RETRIES must be 0"
  unread_mentions := ⟨"", " must be 0", rfl⟩

def verifyBackoffMsVar : BoundedVar where
  name := "FACILITATOR_VERIFY_BACKOFF_MS"
  fallback := "150"
  limit := 2 ^ 64
  unread := "FACILITATOR_VERIFY_BACKOFF_MS must be an integer"
  unread_mentions := ⟨"", " must be an integer", rfl⟩
  low := 1
  high := 3000
  unfit := "FACILITATOR_VERIFY_BACKOFF_MS must be between 1 and 3000"
  unfit_mentions := ⟨"", " must be between 1 and 3000", rfl⟩

def verifyRetriesVar : BoundedVar where
  name := "FACILITATOR_VERIFY_RETRIES"
  fallback := "0"
  limit := 2 ^ 32
  unread := "FACILITATOR_VERIFY_RETRIES must be an integer"
  unread_mentions := ⟨"", " must be an integer", rfl⟩
  low := 0
  high := 5
  unfit := "FACILITATOR_VERIFY_RETRIES must be between 0 and 5"
  unfit_mentions := ⟨"", " must be between 0 and 5", rfl⟩

def replayCacheSizeVar : BoundedVar where
  name := "PAYMENT_REPLAY_CACHE_SIZE"
  fallback := ""
  limit := 2 ^ 64
  unread := "PAYMENT_REPLAY_CACHE_SIZE must be an integer between 1 and 1000000"
  unread_mentions := ⟨"", " must be an integer between 1 and 1000000", rfl⟩
  low := 1
  high := 1000000
  unfit := "PAYMENT_REPLAY_CACHE_SIZE must be an integer between 1 and 1000000"
  unfit_mentions := ⟨"", " must be an integer between 1 and 1000000", rfl⟩

end Numbers

section Rates

/-- What an `f64` is, once it has been read. -/
inductive F64 where
  | finite (value : ℚ)
  | infinite
  | nan

/-- How the standard library reads and prints numbers of 64 bits; `parse` tells an
error by its debug text.  What it prints it reads back. -/
structure FloatText where
  parse : String → Except String F64
  print : ℚ → String
  parse_print : ∀ text value, parse text = .ok (.finite value) →
    parse (print value) = .ok (.finite value)

variable (float : FloatText)

/-- A rate as a variable gives it. -/
structure Rate where
  value : ℚ
  nonneg : 0 ≤ value
  parse_print : float.parse (float.print value) = .ok (.finite value)

/-- A text that is a rate. -/
def rateOf (name text : String) : EnvSetting (Rate float) :=
  match h : float.parse text with
  | .ok (.finite value) =>
      if hneg : 0 ≤ value then pure ⟨value, hneg, float.parse_print text value h⟩
      else refuse s!"{name} must be a finite non-negative number"
  | .ok _ => refuse s!"{name} must be a finite non-negative number"
  | .error debug => refuse s!"{name} must be a number: {debug}"

def readRate (name fallback : String) : EnvSetting (Rate float) := do
  let text ← envOr name fallback
  rateOf float name text

/-- There is a limiter where the rate is positive; the burst is the rate by default,
and at least one. -/
def readLimiter : EnvSetting (Option Wrapper.RateLimitLayer) := do
  let rps ← readRate float "RATE_LIMIT_RPS" "0"
  let burst ← readRate float "RATE_LIMIT_BURST" (float.print rps.value)
  let trustedProxies ← readProxies
  let maxClients ← maxClientsVar.read
  let idleTimeoutSecs ← idleTimeoutSecsVar.read
  pure (if hpos : 0 < rps.value then
    some {
      config := {
        rps := rps.value
        burst := max burst.value 1
        maxClients := maxClients.val
        idleTimeout := Duration.fromSecs idleTimeoutSecs.val
        rps_pos := hpos
        one_le_burst := le_max_right _ _ }
      trustedProxies := trustedProxies
      rpsText := float.print rps.value }
  else none)
where
  readProxies : EnvSetting TrustedProxies := do
    let text ← envOr "RATE_LIMIT_TRUSTED_PROXIES" ""
    match TrustedProxies.parse text with
    | .ok proxies => pure proxies
    | .error message => refuse message

end Rates

/-- `kite_chain_by_name`; an unknown network is told by its name. -/
def kiteChainByName (name : String) : Except String KiteChain :=
  let trimmed := trim name.toList
  if trimmed = [] ∨ trimmed = "mainnet".toList then .ok kiteMainnet
  else if trimmed = "testnet".toList then .ok kiteTestnet
  else .error (String.ofList trimmed)

/-- `debug` is how the standard library quotes a string. -/
def readChain (debug : String → String) : EnvSetting KiteChain := do
  let name ← envOr "KITE_NETWORK" "mainnet"
  match kiteChainByName name with
  | .ok chain => pure chain
  | .error other => refuse (s!"invalid KITE_NETWORK={debug name}: " ++
      s!"unknown KITE_NETWORK {debug other} (want mainnet or testnet)")

/-- A settlement is never tried again. -/
def refuseSettleRetries (retries : ℕ) : EnvSetting Unit :=
  if retries = 0 then pure ()
  else refuse ("assertion `left == right` failed: FACILITATOR_SETTLE_RETRIES must be 0; " ++
    "reconcile unknown settlements instead of retrying them" ++
    s!"\n  left: {retries}\n right: 0")

theorem fromMillis_le {millis : ℕ} (h : millis ≤ 3000) : millis * 1000000 ≤ Duration.maximum :=
  (Nat.mul_le_mul_right _ h).trans (by decide)

def readRetries : EnvSetting RetryConfig := do
  let settleRetries ← settleRetriesVar.parse
  let backoffMs ← verifyBackoffMsVar.read
  refuseSettleRetries settleRetries
  let retries ← verifyRetriesVar.read
  pure {
    maxRetries := UInt32.ofNat retries.val
    initialBackoff := backoffMs.val * 1000000
    maxBackoff := Duration.fromSecs 3
    initialBackoff_le := fromMillis_le backoffMs.property.2
    maxBackoff_le := by decide }

/-- `ExpirationGuardConfig::new(drift, 5)`, where the variable is a number. -/
def readExpirationGuard : EnvSetting (Option ExpirationGuardConfig) := do
  let drift ← var "PAYMENT_CLOCK_DRIFT_SECS"
  pure ((drift.bind fun text => parseU64 (trim text.toList)).map fun secs => ⟨secs, 5⟩)

/-- There is a guard where the variable is not blank. -/
def readNonceGuard : EnvSetting (Option PaymentNonceReplayGuard) := do
  let text ← readText
  match text with
  | none => pure none
  | some text =>
      let value ← expect replayCacheSizeVar.unread (parseUnsigned replayCacheSizeVar.limit text)
      let capacity ← replayCacheSizeVar.check value
      pure (some (.new capacity.val 3600))
where
  readText : EnvSetting (Option (List Char)) := fun env =>
    match env replayCacheSizeVar.name with
    | .unset => .ok none
    | .notUnicode _ => .error replayCacheSizeVar.unfit
    | .text value => .ok (if trim value.toList = [] then none else some (trim value.toList))

def readSecurity : EnvSetting Wrapper.SecurityHeadersConfig := do
  let flag ← var "SECURITY_HEADERS_ENABLED"
  let csp ← envOr "SECURITY_CSP" "default-src 'none'; frame-ancestors 'none'"
  let referrerPolicy ← envOr "SECURITY_REFERRER_POLICY" "strict-origin-when-cross-origin"
  pure {
    enabled := match flag with
      | some text => trim text.toList ≠ ['0'] &&
          toAsciiLowercase (String.ofList (trim text.toList)) ≠ "false"
      | none => true
    csp := csp
    referrerPolicy := referrerPolicy }

/-- What `main` starts the service with. -/
structure ServiceConfig where
  port : ℕ
  payment : PaymentConfig
  facilitator : FacilitatorClient
  facilitatorTimeoutMs : facilitatorTimeoutMsVar.Value
  upstream : UpstreamConfig
  upstreamTimeoutMs : upstreamTimeoutMsVar.Value
  limiter : Option Wrapper.RateLimitLayer
  maxConcurrent : maxConcurrentVar.Value
  cors : CorsConfig
  security : Wrapper.SecurityHeadersConfig

/-- `FACILITATOR_URL`. -/
def facilitatorUrlDefault : String := "https://facilitator.pieverse.io/v2"

def startup (float : FloatText) (debug : String → String) : EnvSetting ServiceConfig := do
  let port ← portVar.parse
  let payTo ← expectVar "PAY_TO" "PAY_TO is required (the wallet that receives payment)"
  let upstreamUrl ← expectVar "UPSTREAM_URL" "UPSTREAM_URL is required (the API being wrapped)"
  let priceUsd ← envOr "PRICE_USD" "0.001"
  let chain ← readChain debug
  let facilitatorUrl ← envOr "FACILITATOR_URL" facilitatorUrlDefault
  let description ← envOr "SERVICE_DESCRIPTION" "Paid API access via Kite x402"
  let authHeader ← envOr "UPSTREAM_AUTH_HEADER" "Authorization"
  let authValue ← envOr "UPSTREAM_AUTH_VALUE" ""
  let limiter ← readLimiter float
  let upstreamTimeoutMs ← upstreamTimeoutMsVar.read
  let facilitatorTimeoutMs ← facilitatorTimeoutMsVar.read
  let maxConcurrent ← maxConcurrentVar.read
  let retryConfig ← readRetries
  let corsOrigin ← envOr "CORS_ORIGIN" ""
  let expirationGuard ← readExpirationGuard
  let nonceGuard ← readNonceGuard
  let security ← readSecurity
  pure {
    port := port
    payment := ⟨payTo, chain, priceUsd, description, expirationGuard, true, nonceGuard⟩
    facilitator := (FacilitatorClient.new facilitatorUrl).withRetryConfig retryConfig
    facilitatorTimeoutMs := facilitatorTimeoutMs
    upstream := ⟨String.ofList (trimEndSlashes upstreamUrl.toList), authHeader, authValue⟩
    upstreamTimeoutMs := upstreamTimeoutMs
    limiter := limiter
    maxConcurrent := maxConcurrent
    cors := .fromEnv (some corsOrigin)
    security := security }

/-- The service that runs then. -/
def ServiceConfig.wrapper (cfg : ServiceConfig) (rt : Runtime) : Wrapper.Config where
  rt := rt
  payment := cfg.payment
  limiter := cfg.limiter
  maxConcurrent := cfg.maxConcurrent.val
  security := cfg.security
  cors := cfg.cors

namespace StartupSample

/-- Numbers of which only zero can be read. -/
def zeroFloat : FloatText where
  parse text := if text = "0" then .ok (.finite 0) else .error "ParseFloatError"
  print _ := "0"
  parse_print text value h := by
    split at h
    · rw [← F64.finite.inj (Except.ok.inj h)]
      rfl
    · contradiction

/-- The least that has to be set, and some retries. -/
def env : String → EnvValue := fun key =>
  if key = "PAY_TO" then .text "0xabc"
  else if key = "UPSTREAM_URL" then .text "http://localhost:9000/"
  else if key = "FACILITATOR_VERIFY_RETRIES" then .text " 3 "
  else .unset

example : (((startup zeroFloat id).run env).toOption.map fun cfg =>
    (cfg.port, cfg.maxConcurrent.val, cfg.facilitator.retryConfig.maxRetries,
      cfg.upstream.baseUrl)) = some (8402, 64, 3, "http://localhost:9000") := by
  decide +kernel

end StartupSample

end KiteX402
