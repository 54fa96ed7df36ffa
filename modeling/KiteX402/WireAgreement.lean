/-
The challenge and the gate agree: a client that copies the offer of a challenge
into a payment of version 2 passes the match check, and what the gate reads of
a payment survives being written and read again.
-/
import KiteX402.Base64
import KiteX402.Middleware

namespace KiteX402

/-- The first way to pay that a challenge lists, as a client reads it. -/
def Codec.firstOffer (codec : Codec) (headerValue : String) : Option Json :=
  match codec.decodeJson headerValue with
  | some (.object members) =>
      match members.lookup "accepts" with
      | some (.array (offer :: _)) => some offer
      | _ => none
  | _ => none

/-- The members of a payment that a client writes for an offer: the payload, the
resource and whatever it adds are its own. -/
structure Answers (offer payload : Json) (members : List (String × Json)) :
    Prop where
  distinct : (members.map Prod.fst).Nodup
  version : members.lookup "x402Version" = some (.number (.posInt 2))
  accepted : ∃ copy, members.lookup "accepted" = some copy ∧ offer.IsCopy copy
  payload : members.lookup "payload" = some payload
  resource : ∀ doc, members.lookup "resource" = some doc →
    doc = .null ∨ ∃ info : ResourceInfo, info.encode.IsCopy doc

theorem PaymentRequired.accepts_of_encode (challenge : PaymentRequired) :
    ∃ members, challenge.encode = .object members ∧ members.lookup "accepts" =
      some (.array (challenge.accepts.map PaymentRequirements.encode)) := by
  have hnodup : (challenge.fields.map Prod.fst).Nodup := by simp [fields]
  have hmem : ("accepts", some (.array
      (challenge.accepts.map PaymentRequirements.encode))) ∈ challenge.fields := by
    simp [fields]
  exact ⟨_, rfl, lookup_presentMembers hnodup _ hmem⟩

theorem Codec.Carries.firstOffer {codec : Codec} {requirements : PaymentRequirements}
    {resourceUrl description : String} {error : Option String}
    (hcarries : codec.Carries
      (challenge requirements resourceUrl description error).encode) :
    codec.firstOffer (codec.encodePaymentRequired
      (challenge requirements resourceUrl description error)) =
        some requirements.encode := by
  obtain ⟨members, hdoc, haccepts⟩ := PaymentRequired.accepts_of_encode
    (challenge requirements resourceUrl description error)
  have hdecoded := hcarries.decodeJson
  rw [Codec.firstOffer, Codec.encodePaymentRequired, hdecoded, hdoc]
  simp only [haccepts, challenge, List.map_cons]

theorem exists_optional_value (field : Option Json) :
    ∃ value, optional decodeValue field = some value := by
  cases field with
  | none => exact ⟨none, rfl⟩
  | some doc =>
      by_cases hnull : doc = .null
      · subst hnull
        exact ⟨none, rfl⟩
      · rw [optional_of_ne_null _ hnull]
        exact ⟨_, rfl⟩

namespace Answers

variable {requirements : PaymentRequirements} {payload : Json}
  {members : List (String × Json)}

theorem optional_resource
    (hanswers : Answers requirements.encode payload members) :
    ∃ resource, optional ResourceInfo.decode (members.lookup "resource") =
      some resource := by
  cases hfield : members.lookup "resource" with
  | none => exact ⟨none, rfl⟩
  | some doc =>
      rcases hanswers.resource doc hfield with rfl | ⟨info, hcopy⟩
      · exact ⟨none, rfl⟩
      · have hdecoded := ResourceInfo.decode_copy hcopy
        have hnull : doc ≠ .null := by
          rintro rfl
          contradiction
        rw [optional_of_ne_null _ hnull, hdecoded]
        exact ⟨_, rfl⟩

/-- The gate reads the answer as a payment of what it offered. -/
theorem decode (hanswers : Answers requirements.encode payload members)
    (hfaithful : requirements.Faithful) :
    ∃ payment, PaymentPayload.decode (.object members) = some payment ∧
      payment.x402Version = 2 ∧ payment.accepted = requirements ∧
      payment.payload = Value.ofJson payload := by
  obtain ⟨copy, haccepted, hcopy⟩ := hanswers.accepted
  obtain ⟨resource, hresource⟩ := hanswers.optional_resource
  obtain ⟨extensions, hextensions⟩ :=
    exists_optional_value (members.lookup "extensions")
  have hfields : structFields ["x402Version", "resource", "accepted", "payload",
      "extensions"] (.object members) = some [members.lookup "x402Version",
        members.lookup "resource", members.lookup "accepted",
        members.lookup "payload", members.lookup "extensions"] :=
    structFields_of_distinct _ hanswers.distinct
  have hdecoded := PaymentRequirements.decode_copy hfaithful hcopy
  refine ⟨⟨2, resource, requirements, Value.ofJson payload, extensions⟩, ?_, rfl,
    rfl, rfl⟩
  simp [PaymentPayload.decode, hfields, hanswers.version, hanswers.payload,
    haccepted, hresource, hextensions, hdecoded, decodeU32, decodeValue]

end Answers

/-- The gate takes a header for a payment of the requirements. -/
def Accepted (rt : Runtime) (cfg : PaymentConfig) (requirements : PaymentRequirements)
    (payload : Json) (headerValue : String) : Prop :=
  ∃ payment, rt.codec.decodePaymentPayload headerValue = some payment ∧
    payment.accepted = requirements ∧ payment.payload = Value.ofJson payload ∧
    ∀ req wallClock, req.paymentHeader = some headerValue →
      checkExpiration cfg payment wallClock = .ok () →
      screenRequest rt cfg req wallClock = .passed payment requirements

/-- What a client can do with a challenge: `text` is what it finds in the header,
and it may put white space around its own. -/
structure Answerable (rt : Runtime) (cfg : PaymentConfig)
    (requirements : PaymentRequirements) (response : Response) (text : String) :
    Prop where
  header : (response.headers.get "payment-required").bind HeaderValue.toStr =
    some text
  offered : ∃ offer, rt.codec.firstOffer text = some offer
  answered : ∀ offer payload members, rt.codec.firstOffer text = some offer →
    Answers offer payload members → rt.codec.Carries (.object members) →
    ∀ before after, (∀ c ∈ before, isWhitespace c = true) →
      (∀ c ∈ after, isWhitespace c = true) →
      Accepted rt cfg requirements payload (String.ofList
        (before ++ (rt.codec.encodeJson (.object members)).toList ++ after))

/-- Challenge and gate agree, and reading is stable. -/
structure WireAgreement (rt : Runtime) : Prop where
  challenged : ∀ cfg requirements resourceUrl description error,
    cfg.requirements rt.debug = some (.ok requirements) →
    let body := challenge requirements resourceUrl description error
    rt.codec.Carries body.encode →
    Answerable rt cfg requirements (paymentRequiredResponse rt.codec requirements
      resourceUrl description error) (rt.codec.encodePaymentRequired body)
  reread : ∀ headerValue payment,
    rt.codec.decodePaymentPayload headerValue = some payment →
    payment.x402Version = 2 ∧
      (rt.codec.Carries payment.encode →
        rt.codec.decodePaymentPayload (rt.codec.encodeJson payment.encode) =
          some payment)

theorem accepted_of_decode {rt : Runtime} {cfg : PaymentConfig}
    {requirements : PaymentRequirements} {payload : Json} {headerValue : String}
    (hrequired : cfg.requirements rt.debug = some (.ok requirements))
    {payment : PaymentPayload}
    (hdecoded : rt.codec.decodePaymentPayload headerValue = some payment)
    (haccepted : payment.accepted = requirements)
    (hpayload : payment.payload = Value.ofJson payload) :
    Accepted rt cfg requirements payload headerValue := by
  refine ⟨payment, hdecoded, haccepted, hpayload, ?_⟩
  intro req wallClock hheader hvalid
  simp [screenRequest, hrequired, hheader, hdecoded, haccepted, hvalid]

theorem answerable_of_carries {rt : Runtime} {cfg : PaymentConfig}
    {requirements : PaymentRequirements}
    (hrequired : cfg.requirements rt.debug = some (.ok requirements))
    {resourceUrl description : String} {error : Option String}
    (hcarries : rt.codec.Carries
      (challenge requirements resourceUrl description error).encode) :
    Answerable rt cfg requirements
      (paymentRequiredResponse rt.codec requirements resourceUrl description error)
      (rt.codec.encodePaymentRequired
        (challenge requirements resourceUrl description error)) where
  header := by
    have hne : "payment-required" ≠ "cache-control" := by decide
    rw [paymentRequiredResponse, paymentReply, HeaderMap.get_insert_of_ne _ hne,
      HeaderMap.get_insert_self, Option.bind_some, Codec.encodePaymentRequired,
      hcarries.toStr_headerValue]
  offered := ⟨_, hcarries.firstOffer⟩
  answered offer payload members hoffer hanswers hpayment before after hbefore
      hafter := by
    rw [hcarries.firstOffer, Option.some_inj] at hoffer
    subst hoffer
    have hfaithful := PaymentConfig.requirements_faithful hrequired
    obtain ⟨payment, hdecoded, hversion, haccepted, hpayload⟩ :=
      hanswers.decode hfaithful
    have hheader := hpayment.decodePaymentPayload hbefore hafter
    rw [hdecoded, Option.bind_some, if_pos hversion] at hheader
    exact accepted_of_decode hrequired hheader haccepted hpayload

theorem Codec.decodePaymentPayload_spec {codec : Codec} {headerValue : String}
    {payment : PaymentPayload}
    (h : codec.decodePaymentPayload headerValue = some payment) :
    payment.x402Version = 2 ∧ payment.Faithful := by
  simp only [Codec.decodePaymentPayload, Option.bind_eq_bind,
    Option.bind_eq_some_iff] at h
  obtain ⟨bytes, _, doc, _, read, hread, h⟩ := h
  split at h
  next hversion =>
    cases h
    exact ⟨hversion, PaymentPayload.faithful_of_decode hread⟩
  next => contradiction

theorem decodePaymentPayload_encode {codec : Codec} {payment : PaymentPayload}
    (hversion : payment.x402Version = 2) (hfaithful : payment.Faithful)
    (hcarries : codec.Carries payment.encode) :
    codec.decodePaymentPayload (codec.encodeJson payment.encode) = some payment := by
  have hheader := hcarries.decodePaymentPayload
    (List.forall_mem_nil _) (List.forall_mem_nil _)
  rw [List.nil_append, List.append_nil, String.ofList_toList,
    PaymentPayload.decode_encode hfaithful, Option.bind_some, if_pos hversion] at hheader
  exact hheader

/-- On documents that the JSON and base64 crates carry, a payment that copies
the offer of a challenge matches, and a payment that was read is read again. -/
theorem wire_agreement (rt : Runtime) : WireAgreement rt where
  challenged _ _ _ _ _ hrequired hcarries := answerable_of_carries hrequired hcarries
  reread _ _ hdecoded := by
    obtain ⟨hversion, hfaithful⟩ := Codec.decodePaymentPayload_spec hdecoded
    exact ⟨hversion, decodePaymentPayload_encode hversion hfaithful⟩

namespace WireWitness

mutual

/-- Compact JSON, as far as the documents below need it. -/
def printJson : Json → List Char
  | .null => "null".toList
  | .bool value => (toString value).toList
  | .number (.posInt value) => (toString value).toList
  | .number (.negInt value _) => (toString value).toList
  | .number (.float bits _) => (toString bits).toList
  | .string text => '"' :: text.toList ++ ['"']
  | .array items => '[' :: [','].intercalate (printItems items) ++ [']']
  | .object members => '\x7b' :: [','].intercalate (printMembers members) ++ ['\x7d']

def printItems : List Json → List (List Char)
  | [] => []
  | item :: rest => printJson item :: printItems rest

def printMembers : List (String × Json) → List (List Char)
  | [] => []
  | (key, value) :: rest =>
      ('"' :: key.toList ++ ['"', ':'] ++ printJson value) :: printMembers rest

end

/-- Standard base64, and JSON that is parsed for two documents. -/
def codec (first second : Json) : Codec where
  toString doc := String.ofList (printJson doc)
  fromSlice bytes := [first, second].find? fun doc =>
    utf8 (String.ofList (printJson doc)) = bytes
  encode64 bytes := String.ofList (Base64.encode bytes)
  decode64 text := Base64.decode text.toList

theorem carries_of_fromSlice {first second doc : Json}
    (hjson : (codec first second).fromSlice ((codec first second).toVec doc) =
      some doc) : (codec first second).Carries doc where
  json := hjson
  base64 := by simp [codec, Base64.decode_encode]
  alphabet := by
    have hall : ('=' :: Base64.alphabet).all isBase64 = true := by decide +kernel
    intro c hc
    simp only [codec, String.toList_ofList] at hc
    exact List.all_eq_true.mp hall c (Base64.mem_of_mem_encode _ c hc)

theorem carries_first (first second : Json) : (codec first second).Carries first := by
  apply carries_of_fromSlice
  simp [codec, Codec.toVec]

theorem carries_second {first second : Json}
    (hne : printJson first ≠ printJson second) :
    (codec first second).Carries second := by
  apply carries_of_fromSlice
  have hbytes : utf8 (String.ofList (printJson first)) ≠
      utf8 (String.ofList (printJson second)) :=
    fun heq => hne (String.ofList_injective (utf8_injective heq))
  simp [codec, Codec.toVec, hbytes]

def route : PaymentConfig := .new "0xdef" kiteTestnet "$0.01" "A forecast"

def required : PaymentRequirements where
  scheme := "exact"
  network := "eip155:2368"
  amount := "10000000000000000"
  asset := "0x38129cf4CE5E183eFF248F42A7D345Bb1B47621A"
  payTo := "0xdef"
  maxTimeoutSeconds := 60
  extra := some kiteTestnet.extra

/-- The offer with its members in another order. -/
def accepted : Json :=
  .object [("asset", .string required.asset), ("amount", .string required.amount),
    ("extra", .object [("version", .string "1"), ("name", .string "pieUSD")]),
    ("network", .string required.network), ("payTo", .string required.payTo),
    ("scheme", .string required.scheme),
    ("maxTimeoutSeconds", .number (.posInt 60))]

def signature : Json := .object [("signature", .string "0xfeed")]

def payment : List (String × Json) :=
  [("payload", signature), ("accepted", accepted), ("resource", .null),
    ("x402Version", .number (.posInt 2)), ("future", .bool true)]

def offer : PaymentRequired := challenge required "/v1/forecast" "A forecast" none

def runtime : Runtime where
  codec := codec offer.encode (.object payment)
  clock := ⟨0⟩
  debug text := text

theorem answers_offer : Answers required.encode signature payment where
  distinct := by decide
  version := rfl
  accepted := ⟨accepted, rfl, by decide, by simp [accepted, Json.DistinctKeys]⟩
  payload := rfl
  resource := by
    intro doc hdoc
    exact Or.inl (Option.some.inj hdoc).symm

/-- The offer for a cent on the test network, answered in a header with white
space around it. -/
theorem payment_accepted :
    Accepted runtime route required signature (String.ofList
      ([' '] ++ (runtime.codec.encodeJson (.object payment)).toList ++ ['\n'])) := by
  have hoffer : runtime.codec.Carries offer.encode := carries_first _ _
  have hpayment : runtime.codec.Carries (.object payment) :=
    carries_second (by decide +kernel)
  have hrequired : route.requirements runtime.debug = some (.ok required) := by
    decide +kernel
  have hanswerable := (wire_agreement runtime).challenged route required
    "/v1/forecast" "A forecast" none hrequired hoffer
  exact hanswerable.answered required.encode signature payment hoffer.firstOffer
    answers_offer hpayment [' '] ['\n'] (by simp [isWhitespace]) (by simp [isWhitespace])

end WireWitness

end KiteX402
