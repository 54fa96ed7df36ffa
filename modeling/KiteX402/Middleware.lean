/-
The payment gate.  A request advances from one await to the next; each such
step enters the critical section of the replay guard at most once, so steps of
different requests interleave as whole steps.
-/
import KiteX402.AuthorizationKey
import KiteX402.NonceGuardMachine
import KiteX402.PaymentConfig

namespace KiteX402

/-- What the gate uses of its platform; `debug` is how the standard library
quotes a string. -/
structure Runtime where
  codec : Codec
  clock : MonotonicClock
  debug : String → String

/-- What requests share. -/
structure GateWorld where
  store : NonceStore
  metrics : PaymentMetrics

/-- A payment that has been read and matched, with its reservation. -/
structure PaymentAttempt where
  payload : PaymentPayload
  requirements : PaymentRequirements
  reservation : Option PaymentNonceReservation

/-- Where a request stands: not polled yet, at one of the three awaits, or
over. -/
inductive GatePhase where
  | arrived
  | verifying (attempt : PaymentAttempt)
  | handling (attempt : PaymentAttempt)
  | settling (attempt : PaymentAttempt) (response : Response)
  | ended

/-- What completes the await of a request, or its future being dropped, by
unwinding or from outside.  The first poll reads the system clock, and the
monotonic clock before it takes the lock.  The facilitator's errors are known
by their text. -/
inductive GateInput where
  | poll (wallClock : Option UInt64) (reserveAt : Instant)
  | verified (result : Except String VerifyResponse)
  | handled (response : Response)
  | settled (result : Except String SettleResponse) (elapsed : Duration)
  | cancel

inductive GateEvent where
  | guard (event : GuardEvent)
  | verifyCalled (payload : PaymentPayload) (requirements : PaymentRequirements)
  | verifyReturned (result : Except String VerifyResponse)
  | handlerEntered
  | handlerReturned (response : Response)
  | settleCalled (payload : PaymentPayload) (requirements : PaymentRequirements)
  | settleReturned (result : Except String SettleResponse)
  | replied (response : Response)
  | cancelled
  | panicked

def Request.resourceUrl (req : Request) : String := req.originalUri.getD req.uri

/-- The second header is looked at only when the first is missing. -/
def Request.paymentHeader (req : Request) : Option String :=
  ((req.headers.get "payment-signature").or (req.headers.get "x-payment")).bind
    HeaderValue.toStr

/-- A time in an authorization: a decimal string or a number. -/
def unixSeconds (auth : Value) (name : String) : Option UInt64 :=
  (auth.get name).bind fun value =>
    (value.asStr.bind fun text => parseU64 text.toList).or value.asU64

/-- The window is checked only where both of its ends can be read. -/
def checkExpiration (cfg : PaymentConfig) (payload : PaymentPayload)
    (wallClock : Option UInt64) : Except ExpirationError Unit :=
  match cfg.expirationGuard, payload.payload.get "authorization" with
  | some guard, some auth =>
      match unixSeconds auth "validAfter", unixSeconds auth "validBefore" with
      | some validAfter, some validBefore =>
          guard.validateNow validAfter validBefore wallClock
      | _, _ => .ok ()
  | _, _ => .ok ()

/-- What the gate decides before it reserves; `challenged` tells whether the
refusal counts as a challenge. -/
inductive Screening where
  | panicked
  | refused (response : Response) (challenged : Bool)
  | passed (payload : PaymentPayload) (requirements : PaymentRequirements)

namespace GateWorld

def record (world : GateWorld) (cfg : PaymentConfig)
    (update : PaymentMetrics → PaymentMetrics) : GateWorld :=
  if cfg.metrics then { world with metrics := update world.metrics } else world

@[simp] theorem record_store (world : GateWorld) (cfg : PaymentConfig)
    (update : PaymentMetrics → PaymentMetrics) :
    (world.record cfg update).store = world.store := by
  unfold record
  split <;> rfl

end GateWorld

section Gate

variable (rt : Runtime) (cfg : PaymentConfig) (req : Request)

def screenRequest (wallClock : Option UInt64) : Screening :=
  match cfg.requirements rt.debug with
  | none => .panicked
  | some (.error msg) => .refused (configErrorResponse rt.codec msg) false
  | some (.ok requirements) =>
      let refuse := paymentRequiredResponse rt.codec requirements
        req.resourceUrl cfg.description
      match req.paymentHeader with
      | none => .refused (refuse none) true
      | some headerValue =>
          match rt.codec.decodePaymentPayload headerValue with
          | none => .refused (refuse (some "Invalid payment signature")) true
          | some payload =>
              if payload.accepted ≠ requirements then
                .refused (refuse (some "No matching payment requirements")) true
              else
                match checkExpiration cfg payload wallClock with
                | .error error => .refused (refuse (some error.message)) false
                | .ok () => .passed payload requirements

/-- The request is over: its reservation is dropped, then `last` happens. -/
def finish (world : GateWorld) (reservation : Option PaymentNonceReservation)
    (now : Instant) (last : GateEvent) : (GateWorld × GatePhase) × List GateEvent :=
  match cfg.nonceGuard, reservation with
  | some guard, some handle =>
      (({ world with store := guard.drop rt.clock world.store handle now }, .ended),
        [.guard (.dropped handle now), last])
  | _, _ => ((world, .ended), [last])

/-- From the first poll to the call of `/verify`. -/
def arrive (world : GateWorld) (wallClock : Option UInt64) (reserveAt : Instant) :
    (GateWorld × GatePhase) × List GateEvent :=
  let world := world.record cfg .recordRequest
  match screenRequest rt cfg req wallClock with
  | .panicked => ((world, .ended), [.panicked])
  | .refused response challenged =>
      ((if challenged then world.record cfg .recordChallenge else world, .ended),
        [.replied response])
  | .passed payload requirements =>
      match cfg.nonceGuard with
      | none =>
          ((world, .verifying ⟨payload, requirements, none⟩),
            [.verifyCalled payload requirements])
      | some guard =>
          let key := authorizationKey rt.codec payload
          match guard.reserve rt.codec world.store payload reserveAt with
          | (.ok handle, store) =>
              (({ world with store := store },
                  .verifying ⟨payload, requirements, some handle⟩),
                [.guard (.reserved handle.key reserveAt handle.generation),
                  .verifyCalled payload requirements])
          | (.error .capacityExceeded, store) =>
              (({ world with store := store }, .ended),
                [.guard (.refused key reserveAt .capacityExceeded),
                  .replied (capacityResponse rt.codec)])
          | (.error error, store) =>
              ((GateWorld.record { world with store := store } cfg .recordChallenge,
                  .ended),
                [.guard (.refused key reserveAt (.replayDetected key)),
                  .replied (paymentRequiredResponse rt.codec requirements
                    req.resourceUrl cfg.description (some error.message))])

/-- From the answer of `/verify` to the handler, which must not be entered
twice once its outcome may be unknown. -/
def afterVerify (world : GateWorld) (attempt : PaymentAttempt) (now : Instant)
    (result : Except String VerifyResponse) :
    (GateWorld × GatePhase) × List GateEvent :=
  let refuse := fun reason =>
    let refused := (world.record cfg (·.recordVerification false)).record cfg
      .recordChallenge
    let ending := finish rt cfg refused attempt.reservation now
      (.replied (paymentRequiredResponse rt.codec attempt.requirements
        req.resourceUrl cfg.description (some reason)))
    (ending.1, .verifyReturned result :: ending.2)
  match result with
  | .error error => refuse ("facilitator verify unavailable: " ++ error)
  | .ok verify =>
      if verify.isValid then
        ((world.record cfg (·.recordVerification true),
            .handling { attempt with
              reservation := attempt.reservation.map .retainOnDrop }),
          [.verifyReturned result, .handlerEntered])
      else refuse (verify.invalidReason.getD "Payment invalid")

/-- From the handler's response to the call of `/settle`.  A response that is
not charged releases the reservation. -/
def afterHandler (world : GateWorld) (attempt : PaymentAttempt) (now : Instant)
    (response : Response) : (GateWorld × GatePhase) × List GateEvent :=
  if 400 ≤ response.status then
    let released := attempt.reservation.map fun handle =>
      { handle with retain := false }
    let ending := finish rt cfg world released now (.replied response)
    (ending.1, .handlerReturned response :: ending.2)
  else
    ((world, .settling attempt response),
      [.handlerReturned response,
        .settleCalled attempt.payload attempt.requirements])

/-- The receipt of a settlement whose outcome the facilitator did not tell. -/
def settleUnavailable (error : String) : SettleResponse where
  success := false
  errorReason := some ("facilitator settle unavailable: " ++ error)
  errorMessage := none
  payer := none
  transaction := ""
  network := cfg.chain.network
  amount := none

/-- From the answer of `/settle` to the reply. -/
def afterSettle (world : GateWorld) (attempt : PaymentAttempt)
    (response : Response) (now : Instant) (result : Except String SettleResponse)
    (elapsed : Duration) : (GateWorld × GatePhase) × List GateEvent :=
  let conclude := fun settle =>
    let reply :=
      if settle.success then settledResponse rt.codec response settle
      else settlementFailureResponse rt.codec settle
    let ending := finish rt cfg
      (world.record cfg (·.recordSettlement settle.success elapsed))
      attempt.reservation now (.replied reply)
    (ending.1, .settleReturned result :: ending.2)
  match result with
  | .ok settle => conclude settle
  | .error error => conclude (settleUnavailable cfg error)

/-- One step of a request; an input that its await does not wait for changes
nothing. -/
def gateStep (world : GateWorld) (phase : GatePhase) (now : Instant)
    (input : GateInput) : (GateWorld × GatePhase) × List GateEvent :=
  match phase, input with
  | .arrived, .poll wallClock reserveAt =>
      arrive rt cfg req world wallClock reserveAt
  | .verifying attempt, .verified result =>
      afterVerify rt cfg req world attempt now result
  | .handling attempt, .handled response =>
      afterHandler rt cfg world attempt now response
  | .settling attempt response, .settled result elapsed =>
      afterSettle rt cfg world attempt response now result elapsed
  | .arrived, .cancel => ((world, .ended), [.cancelled])
  | .verifying attempt, .cancel | .handling attempt, .cancel
  | .settling attempt _, .cancel =>
      finish rt cfg world attempt.reservation now .cancelled
  | phase, _ => ((world, phase), [])

end Gate

end KiteX402
