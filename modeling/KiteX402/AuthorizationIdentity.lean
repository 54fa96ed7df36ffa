/-
Which payments share a key in the replay guard.
-/
import KiteX402.AuthorizationKey
import KiteX402.WireAgreement

namespace KiteX402

/-- A payment by an EIP-3009 authorization, with its payer and nonce. -/
structure Structured (payload : PaymentPayload) (payer nonce : String) : Prop where
  scheme : payload.accepted.scheme = "exact"
  network : "eip155:".toList <+: payload.accepted.network.toList
  authorization : ∃ auth, payload.payload.get "authorization" = some auth ∧
    (auth.get "from").bind Value.asStr = some payer ∧
    (auth.get "nonce").bind Value.asStr = some nonce
  payer_ne : payer ≠ ""
  nonce_ne : nonce ≠ ""

theorem eip3009Identity_eq_some {payload : PaymentPayload} {payer nonce : String} :
    eip3009Identity payload = some (payer, nonce) ↔ Structured payload payer nonce := by
  constructor
  · intro hidentity
    unfold eip3009Identity at hidentity
    split at hidentity
    next happlies =>
      simp only [Option.bind_eq_bind, Option.bind_eq_some_iff, Option.filter_eq_some_iff,
        decide_eq_true_eq, Option.some.injEq, Prod.mk.injEq] at hidentity
      obtain ⟨auth, hauth, _, ⟨hpayer, hpayer_ne⟩, _, ⟨hnonce, hnonce_ne⟩, rfl, rfl⟩ :=
        hidentity
      exact ⟨happlies.1, List.isPrefixOf_iff_prefix.mp happlies.2,
        ⟨auth, hauth, Option.bind_eq_some_iff.mpr hpayer,
          Option.bind_eq_some_iff.mpr hnonce⟩, hpayer_ne, hnonce_ne⟩
    next => contradiction
  · rintro ⟨hscheme, hnetwork, ⟨auth, hauth, hpayer, hnonce⟩, hpayer_ne, hnonce_ne⟩
    rw [eip3009Identity, if_pos ⟨hscheme, List.isPrefixOf_iff_prefix.mpr hnetwork⟩]
    simp [hauth, hpayer, hnonce, hpayer_ne, hnonce_ne, Option.filter]

/-- Equal but for the case of ASCII letters. -/
def EqIgnoreCase (first second : String) : Prop :=
  toAsciiLowercase first = toAsciiLowercase second

/-- What two payments that share a key agree on. -/
inductive SameAuthorization (first second : PaymentPayload) : Prop where
  | structured {payer nonce payer' nonce'} (hfirst : Structured first payer nonce)
      (hsecond : Structured second payer' nonce')
      (version : first.x402Version = second.x402Version)
      (scheme : first.accepted.scheme = second.accepted.scheme)
      (network : first.accepted.network = second.accepted.network)
      (asset : EqIgnoreCase first.accepted.asset second.accepted.asset)
      (payer : EqIgnoreCase payer payer') (nonce : EqIgnoreCase nonce nonce')
  | unstructured (hfirst : ∀ payer nonce, ¬ Structured first payer nonce)
      (hsecond : ∀ payer nonce, ¬ Structured second payer nonce)
      (version : first.x402Version = second.x402Version)
      (accepted : first.accepted = second.accepted)
      (payload : first.payload = second.payload)

/-- The document that a key prints. -/
def authorizationIdentity (payload : PaymentPayload) : Json :=
  match eip3009Identity payload with
  | some (payer, nonce) =>
      .array [.string "eip3009", encodeU32 payload.x402Version,
        .string payload.accepted.scheme, .string payload.accepted.network,
        .string (toAsciiLowercase payload.accepted.asset),
        .string (toAsciiLowercase payer), .string (toAsciiLowercase nonce)]
  | none =>
      .array [.string "opaque", encodeU32 payload.x402Version, payload.accepted.encode,
        payload.payload.json]

theorem authorizationKey_eq (codec : Codec) (payload : PaymentPayload) :
    authorizationKey codec payload = codec.toString (authorizationIdentity payload) := by
  unfold authorizationKey authorizationIdentity
  cases eip3009Identity payload <;> rfl

theorem encodeU32_injective : Function.Injective encodeU32 := by
  intro first second heq
  apply Option.some.inj
  rw [← decodeU32_encodeU32, heq, decodeU32_encodeU32]

section Identity

variable {first second : PaymentPayload} {payer nonce payer' nonce' : String}

theorem identity_of_structured (hfirst : Structured first payer nonce) :
    authorizationIdentity first =
      .array [.string "eip3009", encodeU32 first.x402Version,
        .string first.accepted.scheme, .string first.accepted.network,
        .string (toAsciiLowercase first.accepted.asset),
        .string (toAsciiLowercase payer), .string (toAsciiLowercase nonce)] := by
  rw [authorizationIdentity, eip3009Identity_eq_some.mpr hfirst]

theorem identity_of_unstructured (hfirst : ∀ payer nonce, ¬ Structured first payer nonce) :
    authorizationIdentity first =
      .array [.string "opaque", encodeU32 first.x402Version, first.accepted.encode,
        first.payload.json] := by
  have hnone : eip3009Identity first = none := by
    rw [Option.eq_none_iff_forall_ne_some]
    rintro ⟨payer, nonce⟩ hsome
    exact hfirst payer nonce (eip3009Identity_eq_some.mp hsome)
  rw [authorizationIdentity, hnone]

/-- The one that is structured has a longer identity. -/
theorem identity_ne_of_structured (hfirst : Structured first payer nonce)
    (hsecond : ∀ payer nonce, ¬ Structured second payer nonce) :
    authorizationIdentity first ≠ authorizationIdentity second := by
  rw [identity_of_structured hfirst, identity_of_unstructured hsecond]
  intro heq
  have hlength := congrArg List.length (Json.array.inj heq)
  simp at hlength

theorem identity_eq_of_structured (hfirst : Structured first payer nonce)
    (hsecond : Structured second payer' nonce') :
    authorizationIdentity first = authorizationIdentity second ↔
      first.x402Version = second.x402Version ∧
      first.accepted.scheme = second.accepted.scheme ∧
      first.accepted.network = second.accepted.network ∧
      EqIgnoreCase first.accepted.asset second.accepted.asset ∧
      EqIgnoreCase payer payer' ∧ EqIgnoreCase nonce nonce' := by
  rw [identity_of_structured hfirst, identity_of_structured hsecond]
  simp only [Json.array.injEq, List.cons.injEq, Json.string.injEq, true_and, and_true,
    encodeU32_injective.eq_iff, EqIgnoreCase]

theorem identity_eq_of_unstructured
    (hfirst : ∀ payer nonce, ¬ Structured first payer nonce)
    (hsecond : ∀ payer nonce, ¬ Structured second payer nonce) :
    authorizationIdentity first = authorizationIdentity second ↔
      first.x402Version = second.x402Version ∧ first.accepted = second.accepted ∧
        first.payload = second.payload := by
  rw [identity_of_unstructured hfirst, identity_of_unstructured hsecond]
  simp only [Json.array.injEq, List.cons.injEq, true_and, and_true,
    encodeU32_injective.eq_iff, PaymentRequirements.encode_injective.eq_iff,
    Value.json_injective.eq_iff]

/-- The identities of two payments are one exactly when the payments agree. -/
theorem identity_eq_iff :
    authorizationIdentity first = authorizationIdentity second ↔
      SameAuthorization first second := by
  constructor
  · intro heq
    by_cases hfirst : ∃ payer nonce, Structured first payer nonce
    · obtain ⟨payer, nonce, hfirst⟩ := hfirst
      by_cases hsecond : ∃ payer nonce, Structured second payer nonce
      · obtain ⟨payer', nonce', hsecond⟩ := hsecond
        obtain ⟨hversion, hscheme, hnetwork, hasset, hpayer, hnonce⟩ :=
          (identity_eq_of_structured hfirst hsecond).mp heq
        exact .structured hfirst hsecond hversion hscheme hnetwork hasset hpayer hnonce
      · exact absurd heq (identity_ne_of_structured hfirst
          fun payer nonce h => hsecond ⟨payer, nonce, h⟩)
    · have hfirst : ∀ payer nonce, ¬ Structured first payer nonce :=
        fun payer nonce h => hfirst ⟨payer, nonce, h⟩
      by_cases hsecond : ∃ payer nonce, Structured second payer nonce
      · obtain ⟨payer', nonce', hsecond⟩ := hsecond
        exact absurd heq.symm (identity_ne_of_structured hsecond hfirst)
      · have hsecond : ∀ payer nonce, ¬ Structured second payer nonce :=
          fun payer nonce h => hsecond ⟨payer, nonce, h⟩
        obtain ⟨hversion, haccepted, hpayload⟩ :=
          (identity_eq_of_unstructured hfirst hsecond).mp heq
        exact .unstructured hfirst hsecond hversion haccepted hpayload
  · intro hsame
    cases hsame with
    | structured hfirst hsecond hversion hscheme hnetwork hasset hpayer hnonce =>
        exact (identity_eq_of_structured hfirst hsecond).mpr
          ⟨hversion, hscheme, hnetwork, hasset, hpayer, hnonce⟩
    | unstructured hfirst hsecond hversion haccepted hpayload =>
        exact (identity_eq_of_unstructured hfirst hsecond).mpr
          ⟨hversion, haccepted, hpayload⟩

end Identity

/-- Two documents are printed alike only when they are one. -/
def Codec.PrintsApart (codec : Codec) (first second : Json) : Prop :=
  codec.toString first = codec.toString second → first = second

/-- Which payments share a key. -/
structure KeyLaws (codec : Codec) (first second : PaymentPayload) : Prop where
  shared : authorizationKey codec first = authorizationKey codec second ↔
    SameAuthorization first second
  /-- What else stands in a structured payment has no influence. -/
  unaffected : ∀ payer nonce, Structured first payer nonce →
    Structured second payer nonce → first.x402Version = second.x402Version →
    first.accepted.network = second.accepted.network →
    first.accepted.asset = second.accepted.asset →
    authorizationKey codec first = authorizationKey codec second
  separate : ∀ payer nonce, Structured first payer nonce →
    (∀ payer nonce, ¬ Structured second payer nonce) →
    authorizationKey codec first ≠ authorizationKey codec second

/-- The keys of two payments are equal exactly when the payments agree on what
identifies them, whatever stands in their fields. -/
theorem authorizationKey_laws {codec : Codec} {first second : PaymentPayload}
    (hprints : codec.PrintsApart (authorizationIdentity first)
      (authorizationIdentity second)) : KeyLaws codec first second := by
  have hshared : authorizationKey codec first = authorizationKey codec second ↔
      SameAuthorization first second := by
    rw [authorizationKey_eq, authorizationKey_eq, ← identity_eq_iff]
    exact ⟨hprints, congrArg codec.toString⟩
  constructor
  · exact hshared
  · intro payer nonce hfirst hsecond hversion hnetwork hasset
    exact hshared.mpr (.structured hfirst hsecond hversion
      (hfirst.scheme.trans hsecond.scheme.symm) hnetwork
      (congrArg toAsciiLowercase hasset) rfl rfl)
  · intro payer nonce hfirst hsecond heq
    rw [authorizationKey_eq, authorizationKey_eq] at heq
    exact identity_ne_of_structured hfirst hsecond (hprints heq)

namespace IdentityWitness

open WireWitness

/-- A signed transfer. -/
def transfer (payer nonce signature : String) : PaymentPayload where
  x402Version := 2
  resource := none
  accepted := WireWitness.required
  payload := .ofJson (.object [("signature", .string signature),
    ("authorization", .object [("from", .string payer), ("nonce", .string nonce)])])
  extensions := none

/-- The same authorization in other letters, and one that differs. -/
theorem transfers_laws :
    KeyLaws (codec .null .null) (transfer "0xAbC1" "0xDEAD" "0x01")
        (transfer "0xabc1" "0xdead" "0x02") ∧
      KeyLaws (codec .null .null) (transfer "0xAbC1" "0xDEAD" "0x01")
        (transfer "0xAbC1" "0xBEEF" "0x01") := by
  refine ⟨authorizationKey_laws fun _ => ?_, authorizationKey_laws fun hsame => ?_⟩
  · have hfirst : Structured (transfer "0xAbC1" "0xDEAD" "0x01") "0xAbC1" "0xDEAD" :=
      eip3009Identity_eq_some.mp (by decide +kernel)
    have hsecond : Structured (transfer "0xabc1" "0xdead" "0x02") "0xabc1" "0xdead" :=
      eip3009Identity_eq_some.mp (by decide +kernel)
    have hpayer : EqIgnoreCase "0xAbC1" "0xabc1" := by
      rw [EqIgnoreCase, toAsciiLowercase_eq, toAsciiLowercase_eq]
      decide +kernel
    have hnonce : EqIgnoreCase "0xDEAD" "0xdead" := by
      rw [EqIgnoreCase, toAsciiLowercase_eq, toAsciiLowercase_eq]
      decide +kernel
    exact identity_eq_iff.mpr (.structured hfirst hsecond rfl rfl rfl rfl hpayer hnonce)
  · have hfirst : Structured (transfer "0xAbC1" "0xDEAD" "0x01") "0xAbC1" "0xDEAD" :=
      eip3009Identity_eq_some.mp (by decide +kernel)
    have hsecond : Structured (transfer "0xAbC1" "0xBEEF" "0x01") "0xAbC1" "0xBEEF" :=
      eip3009Identity_eq_some.mp (by decide +kernel)
    rw [identity_of_structured hfirst, identity_of_structured hsecond] at hsame
    simp only [toAsciiLowercase_eq] at hsame
    exact absurd hsame (by decide +kernel)

end IdentityWitness

end KiteX402
