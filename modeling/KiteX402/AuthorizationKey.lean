/-
The identity of a payment authorization, and its reservation in the guard.
-/
import KiteX402.NonceGuard
import KiteX402.Text
import KiteX402.Wire

namespace KiteX402

/-- `Display` for an error of the guard. -/
def NonceReplayError.message : NonceReplayError → String
  | .replayDetected nonce =>
      s!"payment signature/nonce has already been used: {nonce}"
  | .capacityExceeded => "payment replay protection cache is full"

/-- The key is not shown to callers. -/
def NonceReplayError.redact : NonceReplayError → NonceReplayError
  | .replayDetected _ => .replayDetected "[redacted]"
  | .capacityExceeded => .capacityExceeded

/-- Payer and nonce of an EIP-3009 authorization. -/
def eip3009Identity (payload : PaymentPayload) : Option (String × String) :=
  if payload.accepted.scheme = "exact" ∧
      "eip155:".toList.isPrefixOf payload.accepted.network.toList then do
    let auth ← payload.payload.get "authorization"
    let payer ← ((auth.get "from").bind Value.asStr).filter (· ≠ "")
    let nonce ← ((auth.get "nonce").bind Value.asStr).filter (· ≠ "")
    some (payer, nonce)
  else none

/-- The key of a payment.  Any other payment is its own identity, together
with the requirements it accepts. -/
def authorizationKey (codec : Codec) (payload : PaymentPayload) : String :=
  let requirements := payload.accepted
  match eip3009Identity payload with
  | some (payer, nonce) =>
      codec.toString (.array [.string "eip3009", encodeU32 payload.x402Version,
        .string requirements.scheme, .string requirements.network,
        .string (toAsciiLowercase requirements.asset),
        .string (toAsciiLowercase payer), .string (toAsciiLowercase nonce)])
  | none =>
      codec.toString (.array [.string "opaque", encodeU32 payload.x402Version,
        requirements.encode, payload.payload.json])

namespace PaymentNonceReplayGuard

def reserve (guard : PaymentNonceReplayGuard) (codec : Codec) (store : NonceStore)
    (payload : PaymentPayload) (now : Instant) :
    Except NonceReplayError PaymentNonceReservation × NonceStore :=
  match guard.reserveKey store (authorizationKey codec payload) now with
  | (.ok reservation, store) => (.ok reservation, store)
  | (.error error, store) => (.error error.redact, store)

/-- What `reserve` can do, after its sweep. -/
theorem reserve_cases (guard : PaymentNonceReplayGuard) (codec : Codec)
    (store : NonceStore) (payload : PaymentPayload) (now : Instant) :
    (authorizationKey codec payload ∈ (store.expire now).entries ∧
      guard.reserve codec store payload now =
        (.error (.replayDetected "[redacted]"), store.expire now)) ∨
    (authorizationKey codec payload ∉ (store.expire now).entries ∧
      guard.maxCapacity ≤ (store.expire now).size ∧
      guard.reserve codec store payload now =
        (.error .capacityExceeded, store.expire now)) ∨
    (authorizationKey codec payload ∉ (store.expire now).entries ∧
      (store.expire now).size < guard.maxCapacity ∧
      guard.reserve codec store payload now =
        (.ok ⟨authorizationKey codec payload, store.allocated, false⟩,
          (store.expire now).occupy (authorizationKey codec payload))) := by
  rcases guard.reserveKey_cases store (authorizationKey codec payload) now with
    ⟨hmem, heq⟩ | ⟨hmem, hfull, heq⟩ | ⟨hmem, hroom, heq⟩
  · exact Or.inl ⟨hmem, by simp [reserve, heq, NonceReplayError.redact]⟩
  · exact Or.inr (Or.inl ⟨hmem, hfull, by
      simp [reserve, heq, NonceReplayError.redact]⟩)
  · exact Or.inr (Or.inr ⟨hmem, hroom, by simp [reserve, heq]⟩)

end PaymentNonceReplayGuard

end KiteX402
