/-
The facilitator client on the wire: the documents it posts, what it reads of the
answers, and its retry loop taken one answer at a time.
-/
import KiteX402.Cors
import KiteX402.Facilitator
import KiteX402.Wire

namespace KiteX402

structure FacilitatorRequest where
  x402Version : UInt32
  paymentPayload : PaymentPayload
  paymentRequirements : PaymentRequirements
deriving DecidableEq

namespace FacilitatorRequest

def fields (request : FacilitatorRequest) : List (String × Option Json) :=
  [("x402Version", some (encodeU32 request.x402Version)),
    ("paymentPayload", some request.paymentPayload.encode),
    ("paymentRequirements", some request.paymentRequirements.encode)]

def encode (request : FacilitatorRequest) : Json := encodeStruct request.fields

/-- How the facilitator reads a request. -/
def decode (doc : Json) : Option FacilitatorRequest := do
  match ← structFields ["x402Version", "paymentPayload", "paymentRequirements"] doc with
  | [x402Version, paymentPayload, paymentRequirements] =>
      some {
        x402Version := ← required decodeU32 x402Version
        paymentPayload := ← required PaymentPayload.decode paymentPayload
        paymentRequirements := ← required PaymentRequirements.decode paymentRequirements }
  | _ => none

theorem decode_encode {request : FacilitatorRequest}
    (hpayload : request.paymentPayload.Faithful)
    (hrequirements : request.paymentRequirements.Faithful) :
    decode request.encode = some request := by
  have hnodup : (request.fields.map Prod.fst).Nodup := by simp [fields]
  have hfields : structFields ["x402Version", "paymentPayload", "paymentRequirements"]
      request.encode = some (request.fields.map Prod.snd) :=
    structFields_encodeStruct hnodup
  have hread := PaymentPayload.decode_encode hpayload
  have hread' := PaymentRequirements.decode_encode hrequirements
  simp [decode, hfields, fields, hread, hread']

end FacilitatorRequest

def decodeBool : Json → Option Bool
  | .bool value => some value
  | _ => none

namespace VerifyResponse

/-- A message and a payer must be texts where they are present, but the gate does
not use them. -/
def decode (doc : Json) : Option VerifyResponse := do
  match ← structFields ["isValid", "invalidReason", "invalidMessage", "payer"] doc with
  | [isValid, invalidReason, invalidMessage, payer] =>
      let verify : VerifyResponse := {
        isValid := ← required decodeBool isValid
        invalidReason := ← optional decodeString invalidReason }
      let _ ← optional decodeString invalidMessage
      let _ ← optional decodeString payer
      some verify
  | _ => none

end VerifyResponse

namespace SettleResponse

def decode (doc : Json) : Option SettleResponse := do
  match ← structFields ["success", "errorReason", "errorMessage", "payer", "transaction",
      "network", "amount"] doc with
  | [success, errorReason, errorMessage, payer, transaction, network, amount] =>
      some {
        success := ← required decodeBool success
        errorReason := ← optional decodeString errorReason
        errorMessage := ← optional decodeString errorMessage
        payer := ← optional decodeString payer
        transaction := ← required decodeString transaction
        network := ← required decodeString network
        amount := ← optional decodeString amount }
  | _ => none

theorem decode_encode (settle : SettleResponse) : decode settle.encode = some settle := by
  have hnodup : (settle.fields.map Prod.fst).Nodup := by simp [fields]
  have hfields : structFields ["success", "errorReason", "errorMessage", "payer",
      "transaction", "network", "amount"] settle.encode =
      some (settle.fields.map Prod.snd) := structFields_encodeStruct hnodup
  simp [decode, hfields, fields, optional_string, decodeBool]

end SettleResponse

/-- The documents of the answers, with the text of the parser's error. -/
structure AnswerReader where
  codec : Codec
  describe : FacilitatorOp → String → String

namespace AnswerReader

variable (reader : AnswerReader)

/-- `serde_json::from_str`. -/
def fromStr {A : Type} (op : FacilitatorOp) (decode : Json → Option A) (text : String) :
    Except String A :=
  match (reader.codec.fromSlice (utf8 text)).bind decode with
  | some answer => .ok answer
  | none => .error (reader.describe op text)

def readVerify (reply : Except RequestError (ℕ × String)) :
    Except FacilitatorError VerifyResponse :=
  sendSingle .verify (reader.fromStr .verify VerifyResponse.decode) reply

def readSettle (reply : Except RequestError (ℕ × String)) :
    Except FacilitatorError SettleResponse :=
  sendSingle .settle (reader.fromStr .settle SettleResponse.decode) reply

end AnswerReader

/-- A request to an endpoint of the facilitator. -/
structure Post where
  url : String
  body : Json

structure FacilitatorClient where
  baseUrl : String
  retryConfig : RetryConfig

namespace FacilitatorClient

def new (baseUrl : String) : FacilitatorClient where
  baseUrl := String.ofList (trimEndSlashes baseUrl.toList)
  retryConfig := .default

def withRetryConfig (client : FacilitatorClient) (config : RetryConfig) : FacilitatorClient :=
  { client with retryConfig := config }

def post (client : FacilitatorClient) (op : FacilitatorOp) (payload : PaymentPayload)
    (requirements : PaymentRequirements) : Post where
  url := s!"{client.baseUrl}/{op.name}"
  body := FacilitatorRequest.encode ⟨payload.x402Version, payload, requirements⟩

/-- The retries of an operation. -/
def maxRetries (client : FacilitatorClient) (op : FacilitatorOp) : UInt32 :=
  if op = .verify then client.retryConfig.maxRetries else 0

end FacilitatorClient

/-- What the loop does about one outcome: sleep and try again, or return. -/
inductive Verdict (A : Type) where
  | retry (backoff : Duration)
  | conclude (result : Except FacilitatorError A)

def FacilitatorClient.judge {A : Type} (client : FacilitatorClient) (op : FacilitatorOp)
    (attempt : UInt32) (outcome : Except FacilitatorError A) : Verdict A :=
  match outcome with
  | .ok response => .conclude (.ok response)
  | .error error =>
      if attempt < client.maxRetries op ∧ error.isTransient = true then
        .retry (client.retryConfig.calculateBackoff attempt)
      else .conclude (.error error)

section Judge

variable {A : Type} {client : FacilitatorClient} {op : FacilitatorOp} {attempt : UInt32}
  {outcome : Except FacilitatorError A}

/-- One turn of the loop. -/
theorem callLoop_judge (client : FacilitatorClient) (op : FacilitatorOp) (attempt : UInt32)
    (outcomes : ℕ → Except FacilitatorError A) :
    callLoop client.retryConfig (client.maxRetries op) attempt outcomes =
      match client.judge op attempt (outcomes 0) with
      | .retry backoff =>
          let rest := callLoop client.retryConfig (client.maxRetries op) (attempt + 1)
            fun n => outcomes (n + 1)
          (.sent :: .slept backoff :: rest.1, rest.2)
      | .conclude result => ([.sent], result) := by
  rw [callLoop]
  cases outcomes 0 with
  | ok response => rfl
  | error error =>
      simp only [FacilitatorClient.judge]
      split <;> rfl

theorem judge_retry {backoff : Duration}
    (h : client.judge op attempt outcome = .retry backoff) :
    op = .verify ∧ attempt < client.maxRetries op ∧ ¬Conclusive outcome := by
  unfold FacilitatorClient.judge at h
  cases outcome with
  | ok response => contradiction
  | error error =>
      dsimp only at h
      split at h
      next hretry =>
        refine ⟨?_, hretry.1, fun hconclusive => ?_⟩
        · cases op with
          | verify => rfl
          | settle => exact absurd hretry.1 (by simp [FacilitatorClient.maxRetries])
        · rw [(conclusive_error_iff error).mp hconclusive] at hretry
          exact Bool.false_ne_true hretry.2
      next => contradiction

theorem judge_conclude {result : Except FacilitatorError A}
    (h : client.judge op attempt outcome = .conclude result) : result = outcome := by
  unfold FacilitatorClient.judge at h
  cases outcome with
  | ok response =>
      cases h
      rfl
  | error error =>
      dsimp only at h
      split at h
      next => contradiction
      next =>
        cases h
        rfl

end Judge

/-- An answer that was understood came with a status of success. -/
theorem sendSingle_ok {A : Type*} {op : FacilitatorOp} {decode : String → Except String A}
    {reply : Except RequestError (ℕ × String)} {answer : A}
    (h : sendSingle op decode reply = .ok answer) :
    ∃ status text, reply = .ok (status, text) ∧ 200 ≤ status ∧ status < 300 ∧
      decode text = .ok answer := by
  unfold sendSingle at h
  cases reply with
  | error error => contradiction
  | ok reply =>
      obtain ⟨status, text⟩ := reply
      dsimp only at h
      split at h
      next => contradiction
      next hstatus =>
        obtain ⟨hlow, hhigh⟩ := not_not.mp hstatus
        refine ⟨status, text, rfl, hlow, hhigh, ?_⟩
        split at h
        next hdecode =>
          obtain rfl := Except.ok.inj h
          exact hdecode
        next => contradiction

end KiteX402
