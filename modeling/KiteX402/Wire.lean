/-
The base64 JSON of the payment headers.
-/
import KiteX402.Http
import KiteX402.Types

namespace KiteX402

/-- The JSON and base64 crates. -/
structure Codec where
  toString : Json → String
  fromSlice : List UInt8 → Option Json
  encode64 : List UInt8 → String
  decode64 : String → Option (List UInt8)

namespace Codec

variable (codec : Codec)

def toVec (doc : Json) : List UInt8 := utf8 (codec.toString doc)

/-- The header value that spells a document. -/
def encodeJson (doc : Json) : String := codec.encode64 (codec.toVec doc)

/-- The document a header value spells. -/
def decodeJson (text : String) : Option Json :=
  (codec.decode64 text).bind codec.fromSlice

def encodePaymentRequired (challenge : PaymentRequired) : String :=
  codec.encodeJson challenge.encode

/-- Only payments of version 2 are read. -/
def decodePaymentPayload (headerValue : String) : Option PaymentPayload := do
  let bytes ← codec.decode64 (String.ofList (trim headerValue.toList))
  let doc ← codec.fromSlice bytes
  let payment ← PaymentPayload.decode doc
  if payment.x402Version = 2 then some payment else none

def encodeSettleResponse (settle : SettleResponse) : String :=
  codec.encodeJson settle.encode

/-- A text sent as a header value, or nothing where it cannot be one. -/
def headerValue (text : String) : HeaderValue :=
  (HeaderValue.fromStr text).getD (.fromStatic "")

/-- The crates are faithful on a document: what was printed is parsed, what was
encoded is decoded, and the encoding keeps to the standard alphabet. -/
structure Carries (doc : Json) : Prop where
  json : codec.fromSlice (codec.toVec doc) = some doc
  base64 : codec.decode64 (codec.encode64 (codec.toVec doc)) = some (codec.toVec doc)
  alphabet : ∀ c ∈ (codec.encode64 (codec.toVec doc)).toList,
    isBase64 c = true

variable {codec} {doc : Json}

theorem Carries.decodeJson (hcarries : codec.Carries doc) :
    codec.decodeJson (codec.encodeJson doc) = some doc := by
  rw [Codec.decodeJson, encodeJson, hcarries.base64, Option.bind_some, hcarries.json]

/-- White space around a header value does not change what it spells. -/
theorem Carries.decodePaymentPayload (hcarries : codec.Carries doc)
    {before after : List Char} (hbefore : ∀ c ∈ before, isWhitespace c = true)
    (hafter : ∀ c ∈ after, isWhitespace c = true) :
    codec.decodePaymentPayload
        (String.ofList (before ++ (codec.encodeJson doc).toList ++ after)) =
      (PaymentPayload.decode doc).bind fun payment =>
        if payment.x402Version = 2 then some payment else none := by
  have htext : ∀ c ∈ (codec.encodeJson doc).toList, isWhitespace c = false :=
    fun c hc => isWhitespace_of_isBase64 (hcarries.alphabet c hc)
  have htrim : String.ofList (trim (String.ofList
      (before ++ (codec.encodeJson doc).toList ++ after)).toList) =
      codec.encodeJson doc := by
    rw [String.toList_ofList, trim_around hbefore hafter htext, String.ofList_toList]
  rw [Codec.decodePaymentPayload, htrim, encodeJson, hcarries.base64]
  simp only [Option.bind_eq_bind, Option.bind_some, hcarries.json]

/-- A document that is carried can be sent and read as a header. -/
theorem Carries.toStr_headerValue (hcarries : codec.Carries doc) :
    (headerValue (codec.encodeJson doc)).toStr = some (codec.encodeJson doc) := by
  have hvisible : HeaderValue.IsText (codec.encodeJson doc) := by
    intro c hc
    obtain ⟨hlow, hhigh⟩ := visible_of_isBase64 (hcarries.alphabet c hc)
    exact Or.inl ⟨hlow.le, hhigh⟩
  obtain ⟨hfrom, hto⟩ := HeaderValue.toStr_fromStr hvisible
  rw [headerValue, hfrom, Option.getD_some, hto]

variable (codec)

/-- A reply with a JSON body. -/
def jsonResponse (status : ℕ) (doc : Json) : Response where
  status := status
  headers := [("content-type", .fromStatic "application/json")]
  body := codec.toVec doc

end Codec

end KiteX402
