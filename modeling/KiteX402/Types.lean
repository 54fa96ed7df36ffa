/-
The wire types of x402 v2 with their derived serialisers and deserialisers.
-/
import KiteX402.Serde

namespace KiteX402

/-- The protected resource in a 402 response. -/
structure ResourceInfo where
  url : String
  description : Option String
  mimeType : Option String
deriving DecidableEq

/-- One way to pay: `accepts[i]` in a 402 response, `accepted` in a payment. -/
structure PaymentRequirements where
  scheme : String
  network : String
  amount : String
  asset : String
  payTo : String
  maxTimeoutSeconds : UInt64
  extra : Option Value
deriving DecidableEq

/-- The 402 body. -/
structure PaymentRequired where
  x402Version : UInt32
  error : Option String
  resource : ResourceInfo
  accepts : List PaymentRequirements
deriving DecidableEq

/-- The payment a client sends. -/
structure PaymentPayload where
  x402Version : UInt32
  resource : Option ResourceInfo
  accepted : PaymentRequirements
  payload : Value
  extensions : Option Value
deriving DecidableEq

/-- What the gate reads of the facilitator's answer to `/verify`. -/
structure VerifyResponse where
  isValid : Bool
  invalidReason : Option String
deriving DecidableEq

/-- The facilitator's answer to `/settle`, also the payment receipt. -/
structure SettleResponse where
  success : Bool
  errorReason : Option String
  errorMessage : Option String
  payer : Option String
  transaction : String
  network : String
  amount : Option String
deriving DecidableEq

namespace ResourceInfo

def fields (info : ResourceInfo) : List (String × Option Json) :=
  [("url", some (.string info.url)),
    ("description", info.description.map .string),
    ("mimeType", info.mimeType.map .string)]

def encode (info : ResourceInfo) : Json := encodeStruct info.fields

def decode (doc : Json) : Option ResourceInfo := do
  match ← structFields ["url", "description", "mimeType"] doc with
  | [url, description, mimeType] =>
      some {
        url := ← required decodeString url
        description := ← optional decodeString description
        mimeType := ← optional decodeString mimeType }
  | _ => none

theorem decode_encode (info : ResourceInfo) : decode info.encode = some info := by
  have hnodup : (info.fields.map Prod.fst).Nodup := by simp [fields]
  have hfields : structFields ["url", "description", "mimeType"] info.encode =
      some (info.fields.map Prod.snd) := structFields_encodeStruct hnodup
  simp [decode, hfields, fields, optional_string]

theorem encode_ne_null (info : ResourceInfo) : info.encode ≠ .null := by
  simp [encode, encodeStruct]

theorem decode_normalize {doc : Json} (hdistinct : doc.DistinctKeys) :
    decode doc.normalize = decode doc := by
  rw [decode, decode, structFields_normalize _ hdistinct]
  cases structFields ["url", "description", "mimeType"] doc with
  | none => rfl
  | some fields =>
      simp only [Option.map_some, Option.bind_eq_bind, Option.bind_some]
      match fields with
      | [url, description, mimeType] =>
          simp only [List.map_cons, List.map_nil, decodeString_readsValue.required,
            decodeString_readsValue.optional]
      | [] | [_] | [_, _] | _ :: _ :: _ :: _ :: _ => rfl

/-- A copy of what was written is read like the original. -/
theorem decode_copy {info : ResourceInfo} {copy : Json}
    (hcopy : info.encode.IsCopy copy) : decode copy = some info := by
  have hdistinct : info.encode.DistinctKeys :=
    distinctKeys_encodeStruct (by simp [fields])
  rw [← decode_normalize hcopy.distinct, hcopy.same, decode_normalize hdistinct,
    decode_encode]

end ResourceInfo

namespace PaymentRequirements

def fields (requirements : PaymentRequirements) : List (String × Option Json) :=
  [("scheme", some (.string requirements.scheme)),
    ("network", some (.string requirements.network)),
    ("amount", some (.string requirements.amount)),
    ("asset", some (.string requirements.asset)),
    ("payTo", some (.string requirements.payTo)),
    ("maxTimeoutSeconds", some (encodeU64 requirements.maxTimeoutSeconds)),
    ("extra", requirements.extra.map Value.json)]

def encode (requirements : PaymentRequirements) : Json :=
  encodeStruct requirements.fields

def decode (doc : Json) : Option PaymentRequirements := do
  match ← structFields ["scheme", "network", "amount", "asset", "payTo",
      "maxTimeoutSeconds", "extra"] doc with
  | [scheme, network, amount, asset, payTo, maxTimeoutSeconds, extra] =>
      some {
        scheme := ← required decodeString scheme
        network := ← required decodeString network
        amount := ← required decodeString amount
        asset := ← required decodeString asset
        payTo := ← required decodeString payTo
        maxTimeoutSeconds := ← required decodeU64 maxTimeoutSeconds
        extra := ← optional decodeValue extra }
  | _ => none

/-- An `extra` of `null` is the one value that does not survive the wire. -/
def Faithful (requirements : PaymentRequirements) : Prop :=
  requirements.extra ≠ some Value.null

theorem structFields_encode (requirements : PaymentRequirements) :
    structFields ["scheme", "network", "amount", "asset", "payTo",
      "maxTimeoutSeconds", "extra"] requirements.encode =
      some (requirements.fields.map Prod.snd) := by
  have hnodup : (requirements.fields.map Prod.fst).Nodup := by simp [fields]
  exact structFields_encodeStruct hnodup

/-- Different requirements are written differently, `extra` of `null` too. -/
theorem encode_injective : Function.Injective encode := by
  intro first second heq
  have hfields : first.fields.map Prod.snd = second.fields.map Prod.snd := by
    apply Option.some.inj
    rw [← structFields_encode, heq, structFields_encode]
  simp only [fields, List.map_cons, List.map_nil, List.cons.injEq, Option.some.injEq,
    Json.string.injEq, encodeU64, Json.number.injEq, JsonNumber.posInt.injEq,
    and_true] at hfields
  obtain ⟨hscheme, hnetwork, hamount, hasset, hpayTo, htimeout, hextra⟩ := hfields
  have hvalue := Option.map_injective Value.json_injective hextra
  cases first
  cases second
  rw [PaymentRequirements.mk.injEq]
  exact ⟨hscheme, hnetwork, hamount, hasset, hpayTo, htimeout, hvalue⟩

theorem decode_encode {requirements : PaymentRequirements}
    (hfaithful : requirements.Faithful) :
    decode requirements.encode = some requirements := by
  have hfields := structFields_encode requirements
  have hextra := optional_value hfaithful
  simp [decode, hfields, fields, hextra]

theorem decode_normalize {doc : Json} (hdistinct : doc.DistinctKeys) :
    decode doc.normalize = decode doc := by
  rw [decode, decode, structFields_normalize _ hdistinct]
  cases structFields ["scheme", "network", "amount", "asset", "payTo",
      "maxTimeoutSeconds", "extra"] doc with
  | none => rfl
  | some fields =>
      simp only [Option.map_some, Option.bind_eq_bind, Option.bind_some]
      match fields with
      | [scheme, network, amount, asset, payTo, maxTimeoutSeconds, extra] =>
          simp only [List.map_cons, List.map_nil, decodeString_readsValue.required,
            decodeU64_readsValue.required, decodeValue_readsValue.optional]
      | [] | [_] | [_, _] | [_, _, _] | [_, _, _, _] | [_, _, _, _, _]
      | [_, _, _, _, _, _] | _ :: _ :: _ :: _ :: _ :: _ :: _ :: _ :: _ => rfl

/-- A copy of what was written is read like the original. -/
theorem decode_copy {requirements : PaymentRequirements}
    (hfaithful : requirements.Faithful) {copy : Json}
    (hcopy : requirements.encode.IsCopy copy) : decode copy = some requirements := by
  have hdistinct : requirements.encode.DistinctKeys :=
    distinctKeys_encodeStruct (by simp [fields])
  rw [← decode_normalize hcopy.distinct, hcopy.same, decode_normalize hdistinct,
    decode_encode hfaithful]

/-- What has come over the wire has no such `extra`. -/
theorem faithful_of_decode {doc : Json} {requirements : PaymentRequirements}
    (h : decode doc = some requirements) : requirements.Faithful := by
  simp only [decode, Option.bind_eq_bind, Option.bind_eq_some_iff] at h
  obtain ⟨fields, _, h⟩ := h
  split at h
  next =>
    simp only [Option.bind_eq_some_iff, Option.some_inj] at h
    obtain ⟨_, _, _, _, _, _, _, _, _, _, _, _, extra, hextra, rfl⟩ := h
    exact optional_value_ne_null hextra
  next => contradiction

end PaymentRequirements

namespace PaymentRequired

def fields (challenge : PaymentRequired) : List (String × Option Json) :=
  [("x402Version", some (encodeU32 challenge.x402Version)),
    ("error", challenge.error.map .string),
    ("resource", some challenge.resource.encode),
    ("accepts", some (.array (challenge.accepts.map PaymentRequirements.encode)))]

def encode (challenge : PaymentRequired) : Json := encodeStruct challenge.fields

def decode (doc : Json) : Option PaymentRequired := do
  match ← structFields ["x402Version", "error", "resource", "accepts"] doc with
  | [x402Version, error, resource, accepts] =>
      some {
        x402Version := ← required decodeU32 x402Version
        error := ← optional decodeString error
        resource := ← required ResourceInfo.decode resource
        accepts := ← required (decodeList PaymentRequirements.decode) accepts }
  | _ => none

theorem decode_encode {challenge : PaymentRequired}
    (hfaithful : ∀ requirements ∈ challenge.accepts, requirements.Faithful) :
    decode challenge.encode = some challenge := by
  have hnodup : (challenge.fields.map Prod.fst).Nodup := by simp [fields]
  have hfields : structFields ["x402Version", "error", "resource", "accepts"]
      challenge.encode = some (challenge.fields.map Prod.snd) :=
    structFields_encodeStruct hnodup
  have haccepts : decodeList PaymentRequirements.decode
      (.array (challenge.accepts.map PaymentRequirements.encode)) =
      some challenge.accepts :=
    decodeList_map fun requirements hmem =>
      PaymentRequirements.decode_encode (hfaithful requirements hmem)
  simp [decode, hfields, fields, optional_string, ResourceInfo.decode_encode,
    haccepts]

end PaymentRequired

namespace PaymentPayload

def fields (payment : PaymentPayload) : List (String × Option Json) :=
  [("x402Version", some (encodeU32 payment.x402Version)),
    ("resource", payment.resource.map ResourceInfo.encode),
    ("accepted", some payment.accepted.encode),
    ("payload", some payment.payload.json),
    ("extensions", payment.extensions.map Value.json)]

def encode (payment : PaymentPayload) : Json := encodeStruct payment.fields

def decode (doc : Json) : Option PaymentPayload := do
  match ← structFields ["x402Version", "resource", "accepted", "payload",
      "extensions"] doc with
  | [x402Version, resource, accepted, payload, extensions] =>
      some {
        x402Version := ← required decodeU32 x402Version
        resource := ← optional ResourceInfo.decode resource
        accepted := ← required PaymentRequirements.decode accepted
        payload := ← required decodeValue payload
        extensions := ← optional decodeValue extensions }
  | _ => none

/-- Neither of its optional values is `null`. -/
def Faithful (payment : PaymentPayload) : Prop :=
  payment.accepted.Faithful ∧ payment.extensions ≠ some Value.null

theorem decode_encode {payment : PaymentPayload} (hfaithful : payment.Faithful) :
    decode payment.encode = some payment := by
  obtain ⟨haccepted, hextensions⟩ := hfaithful
  have hnodup : (payment.fields.map Prod.fst).Nodup := by simp [fields]
  have hfields : structFields ["x402Version", "resource", "accepted", "payload",
      "extensions"] payment.encode = some (payment.fields.map Prod.snd) :=
    structFields_encodeStruct hnodup
  have hresource : optional ResourceInfo.decode
      (payment.resource.map ResourceInfo.encode) = some payment.resource :=
    optional_map ResourceInfo.encode_ne_null ResourceInfo.decode_encode
      payment.resource
  have hvalue := optional_value hextensions
  have haccept := PaymentRequirements.decode_encode haccepted
  simp [decode, hfields, fields, hresource, hvalue, haccept]

theorem faithful_of_decode {doc : Json} {payment : PaymentPayload}
    (h : decode doc = some payment) : payment.Faithful := by
  simp only [decode, Option.bind_eq_bind, Option.bind_eq_some_iff] at h
  obtain ⟨fields, _, h⟩ := h
  split at h
  next =>
    simp only [Option.bind_eq_some_iff, Option.some_inj] at h
    obtain ⟨_, _, _, _, _, haccepted, _, _, _, hextensions, rfl⟩ := h
    obtain ⟨_, _, haccepted⟩ := Option.bind_eq_some_iff.mp haccepted
    exact ⟨PaymentRequirements.faithful_of_decode haccepted,
      optional_value_ne_null hextensions⟩
  next => contradiction

end PaymentPayload

namespace SettleResponse

def fields (settle : SettleResponse) : List (String × Option Json) :=
  [("success", some (.bool settle.success)),
    ("errorReason", settle.errorReason.map .string),
    ("errorMessage", settle.errorMessage.map .string),
    ("payer", settle.payer.map .string),
    ("transaction", some (.string settle.transaction)),
    ("network", some (.string settle.network)),
    ("amount", settle.amount.map .string)]

def encode (settle : SettleResponse) : Json := encodeStruct settle.fields

end SettleResponse

end KiteX402
