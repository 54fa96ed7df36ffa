/-
The webhook dispatcher: deliveries waiting for an attempt, and those that are
over.
-/
import KiteX402.BoundedQueue
import KiteX402.Machine
import Mathlib.Data.String.Basic

namespace KiteX402

inductive WebhookEventType where
  | paymentPrompted
  | paymentVerified
  | paymentSettled
  | paymentFailed
deriving DecidableEq

structure WebhookPayload where
  eventId : String
  eventType : WebhookEventType
  timestampMs : UInt64
  payer : Option String
  network : Option String
  amountAtomic : Option String
  txHash : Option String
  requestPath : Option String
deriving DecidableEq

inductive DeliveryStatus where
  | pending
  | delivered
  | failed
  | abandoned
deriving DecidableEq

structure WebhookDeliveryRecord where
  deliveryId : UInt64
  targetUrl : String
  payload : WebhookPayload
  attempts : UInt32
  maxRetries : UInt32
  status : DeliveryStatus
  lastStatusCode : Option UInt16
  lastError : Option String
  lastAttemptMs : Option UInt64
deriving DecidableEq

structure WebhookConfig where
  targetUrls : List String
  maxRetries : UInt32
  maxQueueSize : ℕ

structure WebhookState where
  nextDeliveryId : UInt64
  queue : List WebhookDeliveryRecord
  history : List WebhookDeliveryRecord

/-- A reading of the system clock, in nanoseconds from the Unix epoch. -/
abbrev SystemTime := ℤ

/-- Milliseconds since the epoch, none before it, in 64 bits. -/
def SystemTime.millis (now : SystemTime) : UInt64 := UInt64.ofNat (now.toNat / 1000000)

/-- `format!("{val:016x}")`. -/
def hexDigits (val : UInt64) : String :=
  String.ofList ((List.range 16).map fun i =>
    Nat.digitChar (val.toNat / 16 ^ (15 - i) % 16))

/-- `fastrand_hex` of a reading of the clock; `hash` is the default hasher. -/
def fastrandHex (hash : SystemTime → UInt64) (len : ℕ) (now : SystemTime) : String :=
  String.ofList ((hexDigits (hash now)).toList.take (min len 16))

/-- What `enqueue_event` is told of an event. -/
structure WebhookEvent where
  eventType : WebhookEventType
  payer : Option String
  network : Option String
  amountAtomic : Option String
  txHash : Option String
  requestPath : Option String

namespace WebhookDispatcher

/-- `WebhookDispatcher::new`. -/
def initial : WebhookState := ⟨1, [], []⟩

variable (config : WebhookConfig) (hash : SystemTime → UInt64)

/-- The payload of an event; the clock is read once for its time and once for
its id. -/
def eventPayload (event : WebhookEvent) (now idNow : SystemTime) : WebhookPayload where
  eventId := s!"evt_{SystemTime.millis now}_{fastrandHex hash 8 idNow}"
  eventType := event.eventType
  timestampMs := SystemTime.millis now
  payer := event.payer
  network := event.network
  amountAtomic := event.amountAtomic
  txHash := event.txHash
  requestPath := event.requestPath

/-- A delivery before its first attempt. -/
def newDelivery (payload : WebhookPayload) (deliveryId : UInt64) (target : String) :
    WebhookDeliveryRecord where
  deliveryId := deliveryId
  targetUrl := target
  payload := payload
  attempts := 0
  maxRetries := config.maxRetries
  status := .pending
  lastStatusCode := none
  lastError := none
  lastAttemptMs := none

/-- Queue a payload for one target. -/
def enqueueFor (payload : WebhookPayload) (state : WebhookState) (target : String) :
    WebhookState where
  nextDeliveryId := state.nextDeliveryId + 1
  queue := pushBounded config.maxQueueSize state.queue
    (newDelivery config payload state.nextDeliveryId target)
  history := state.history

/-- Queue a payload for each target; the ids in the order of the targets. -/
def enqueueAll (payload : WebhookPayload) (state : WebhookState) :
    List String → WebhookState × List UInt64
  | [] => (state, [])
  | target :: targets =>
      let rest := enqueueAll payload (enqueueFor config payload state target) targets
      (rest.1, state.nextDeliveryId :: rest.2)

/-- `WebhookDispatcher::enqueue_event`. -/
def enqueueEvent (state : WebhookState) (event : WebhookEvent)
    (now idNow : SystemTime) : WebhookState × List UInt64 :=
  enqueueAll config (eventPayload hash event now idNow) state config.targetUrls

/-- A record with one more attempt. -/
def countAttempt (record : WebhookDeliveryRecord) (statusCode : Option UInt16)
    (errorMsg : Option String) (now : SystemTime) : WebhookDeliveryRecord :=
  { record with
    attempts := record.attempts + 1
    lastAttemptMs := some (SystemTime.millis now)
    lastStatusCode := statusCode
    lastError := errorMsg }

/-- `WebhookDispatcher::record_attempt_result`. -/
def recordAttemptResult (state : WebhookState) (deliveryId : UInt64) (success : Bool)
    (statusCode : Option UInt16) (errorMsg : Option String) (now : SystemTime) :
    WebhookState × Option WebhookDeliveryRecord :=
  match state.queue.find? fun record => record.deliveryId = deliveryId with
  | none => (state, none)
  | some record =>
      let queue := state.queue.eraseP fun record => record.deliveryId = deliveryId
      let record := countAttempt record statusCode errorMsg now
      if success then
        let record := { record with status := .delivered }
        ({ state with
          queue := queue
          history := pushBounded config.maxQueueSize state.history record }, some record)
      else if record.maxRetries < record.attempts then
        let record := { record with status := .abandoned }
        ({ state with
          queue := queue
          history := pushBounded config.maxQueueSize state.history record }, some record)
      else
        let record := { record with status := .failed }
        ({ state with queue := queue ++ [record] }, some record)

inductive Call where
  | enqueueEvent (event : WebhookEvent) (now idNow : SystemTime)
  | recordAttemptResult (deliveryId : UInt64) (success : Bool)
      (statusCode : Option UInt16) (errorMsg : Option String) (now : SystemTime)

/-- A call as it was answered. -/
inductive Reply where
  | enqueued (deliveryIds : List UInt64)
  | attempted (deliveryId : UInt64) (success : Bool)
      (record : Option WebhookDeliveryRecord)
deriving DecidableEq

def step (state : WebhookState) : Call → WebhookState × List Reply
  | .enqueueEvent event now idNow =>
      let enqueued := enqueueEvent config hash state event now idNow
      (enqueued.1, [.enqueued enqueued.2])
  | .recordAttemptResult deliveryId success statusCode errorMsg now =>
      let attempted :=
        recordAttemptResult config state deliveryId success statusCode errorMsg now
      (attempted.1, [.attempted deliveryId success attempted.2])

/-- The dispatcher under any sequence of calls. -/
def machine : Machine WebhookState Call Reply := ⟨step config hash⟩

def run (calls : List Call) : WebhookState × List Reply :=
  (machine config hash).run initial calls

end WebhookDispatcher

end KiteX402
