/-
What the expiration guard of the gate refuses, and how the gate then answers.
-/
import KiteX402.GateTrace
import KiteX402.WireAgreement

namespace KiteX402

section Window

variable {cfg : PaymentConfig} {payload : PaymentPayload} {wallClock : Option UInt64}

/-- Both ends of the window of a payment can be read, and the guard rejects
them. -/
def WindowRefused (cfg : PaymentConfig) (payload : PaymentPayload)
    (wallClock : Option UInt64) (error : ExpirationError) : Prop :=
  ∃ guard auth validAfter validBefore,
    cfg.expirationGuard = some guard ∧
    payload.payload.get "authorization" = some auth ∧
    unixSeconds auth "validAfter" = some validAfter ∧
    unixSeconds auth "validBefore" = some validBefore ∧
    guard.validateNow validAfter validBefore wallClock = .error error

theorem checkExpiration_eq_error {error : ExpirationError} :
    checkExpiration cfg payload wallClock = .error error ↔
      WindowRefused cfg payload wallClock error := by
  constructor
  · intro herror
    simp only [checkExpiration] at herror
    split at herror
    next guard auth hguard hauth =>
      split at herror
      next validAfter validBefore hafter hbefore =>
        exact ⟨guard, auth, validAfter, validBefore, hguard, hauth, hafter, hbefore, herror⟩
      next => contradiction
    next => contradiction
  · rintro ⟨guard, auth, validAfter, validBefore, hguard, hauth, hafter, hbefore, herror⟩
    simp only [checkExpiration, hguard, hauth, hafter, hbefore, herror]

end Window

section Screening

variable {rt : Runtime} {cfg : PaymentConfig} {req : Request} {wallClock : Option UInt64}

/-- The expiration guard rejects the payment of a request. -/
def ExpirationRefuses (rt : Runtime) (cfg : PaymentConfig) (req : Request)
    (wallClock : Option UInt64) : Prop :=
  ∃ payload requirements error, Matches rt cfg req payload requirements ∧
    WindowRefused cfg payload wallClock error

/-- A payment that matches is screened by its window alone. -/
theorem screenRequest_of_matches {payload : PaymentPayload}
    {requirements : PaymentRequirements}
    (hmatch : Matches rt cfg req payload requirements) (wallClock : Option UInt64) :
    screenRequest rt cfg req wallClock =
      match checkExpiration cfg payload wallClock with
      | .error error => .refused (paymentRequiredResponse rt.codec requirements
          req.resourceUrl cfg.description (some error.message)) false
      | .ok () => .passed payload requirements := by
  obtain ⟨headerValue, hheader, hdecoded⟩ := Option.bind_eq_some_iff.mp hmatch.decoded
  cases hcheck : checkExpiration cfg payload wallClock with
  | error error =>
      simp only [screenRequest, hmatch.required, hheader, hdecoded, hmatch.accepted, hcheck,
        ne_eq, not_true, if_false]
  | ok _ =>
      simp only [screenRequest, hmatch.required, hheader, hdecoded, hmatch.accepted, hcheck,
        ne_eq, not_true, if_false]

theorem screenRequest_of_refuses (hrefuses : ExpirationRefuses rt cfg req wallClock) :
    ∃ requirements error, screenRequest rt cfg req wallClock =
      .refused (paymentRequiredResponse rt.codec requirements req.resourceUrl
        cfg.description error) false := by
  obtain ⟨payload, requirements, error, hmatch, hwindow⟩ := hrefuses
  refine ⟨requirements, some error.message, ?_⟩
  rw [screenRequest_of_matches hmatch, checkExpiration_eq_error.mpr hwindow]

/-- What the screening of a request comes to; only the expiration guard rejects
it with a challenge that is not counted. -/
theorem screenRequest_cases (hpasses : ¬ ExpirationRefuses rt cfg req wallClock) :
    screenRequest rt cfg req wallClock = .panicked ∨
    (∃ msg, screenRequest rt cfg req wallClock =
      .refused (configErrorResponse rt.codec msg) false) ∨
    (∃ requirements error, screenRequest rt cfg req wallClock =
      .refused (paymentRequiredResponse rt.codec requirements req.resourceUrl
        cfg.description error) true) ∨
    ∃ payload requirements, screenRequest rt cfg req wallClock =
      .passed payload requirements := by
  cases hrequired : cfg.requirements rt.debug with
  | none => exact Or.inl (by simp only [screenRequest, hrequired])
  | some result =>
      cases result with
      | error msg =>
          exact Or.inr (Or.inl ⟨msg, by simp only [screenRequest, hrequired]⟩)
      | ok requirements =>
          right
          right
          cases hheader : req.paymentHeader with
          | none =>
              exact Or.inl ⟨requirements, none, by
                simp only [screenRequest, hrequired, hheader]⟩
          | some headerValue =>
              cases hdecoded : rt.codec.decodePaymentPayload headerValue with
              | none =>
                  exact Or.inl ⟨requirements, some "Invalid payment signature", by
                    simp only [screenRequest, hrequired, hheader, hdecoded]⟩
              | some payload =>
                  by_cases haccepted : payload.accepted = requirements
                  · have hmatch : Matches rt cfg req payload requirements :=
                      ⟨by rw [hheader]; exact hdecoded, hrequired, haccepted⟩
                    cases hcheck : checkExpiration cfg payload wallClock with
                    | error error =>
                        exact absurd ⟨payload, requirements, error, hmatch,
                          checkExpiration_eq_error.mp hcheck⟩ hpasses
                    | ok _ =>
                        exact Or.inr ⟨payload, requirements, by
                          rw [screenRequest_of_matches hmatch, hcheck]⟩
                  · exact Or.inl ⟨requirements, some "No matching payment requirements", by
                      simp only [screenRequest, hrequired, hheader, hdecoded, haccepted,
                        ne_eq, not_false_eq_true, if_true]⟩

end Screening

namespace ExpirationGuardConfig

variable {guard : ExpirationGuardConfig} {validAfter validBefore now : UInt64}

/-- Only an authorization that is active and has not expired gets past the
guard. -/
theorem of_validate_eq_ok (hvalid : guard.validate validAfter validBefore now = .ok ()) :
    validAfter.toNat ≤ now.toNat + guard.maxDriftSeconds.toNat ∧ now ≤ validBefore := by
  unfold validate at hvalid
  split at hvalid
  · contradiction
  · split at hvalid
    · contradiction
    next hactive =>
      split at hvalid
      · contradiction
      · split at hvalid
        · contradiction
        next hunexpired =>
          have hle := UInt64.le_iff_toNat_le.mp (UInt64.not_lt.mp hactive)
          rw [toNat_saturatingAdd] at hle
          exact ⟨hle.trans (Nat.min_le_left _ _), UInt64.not_lt.mp hunexpired⟩

end ExpirationGuardConfig

/-- One end of the window alone tells that the authorization has expired or is
not active yet. -/
inductive OutsideWindow (guard : ExpirationGuardConfig) (payload : PaymentPayload)
    (now : UInt64) : Prop where
  | expired (auth validBefore) (hauth : payload.payload.get "authorization" = some auth)
      (hbefore : unixSeconds auth "validBefore" = some validBefore)
      (hlt : validBefore < now)
  | premature (auth validAfter) (hauth : payload.payload.get "authorization" = some auth)
      (hafter : unixSeconds auth "validAfter" = some validAfter)
      (hlt : now.toNat + guard.maxDriftSeconds.toNat < validAfter.toNat)

/-- Both ends of the window can be read. -/
def WindowReadable (payload : PaymentPayload) : Prop :=
  ∃ auth validAfter validBefore, payload.payload.get "authorization" = some auth ∧
    unixSeconds auth "validAfter" = some validAfter ∧
    unixSeconds auth "validBefore" = some validBefore

/-- The replay guard holds the authorization already. -/
def AlreadyReserved (rt : Runtime) (cfg : PaymentConfig) (world : GateWorld)
    (payload : PaymentPayload) (reserveAt : Instant) : Prop :=
  cfg.nonceGuard.isSome = true ∧
    authorizationKey rt.codec payload ∈ (world.store.expire reserveAt).entries

/-- The request is over with a reply of status 402; neither the facilitator nor
the handler was called. -/
structure Rejects (next : (GateWorld × GatePhase) × List GateEvent) : Prop where
  ended : next.1.2 = .ended
  replied : ∃ response, .replied response ∈ next.2 ∧ response.status = 402
  unverified : ∀ payload requirements, .verifyCalled payload requirements ∉ next.2
  unhandled : .handlerEntered ∉ next.2

section Rejection

variable {rt : Runtime} {cfg : PaymentConfig} {req : Request} {payload : PaymentPayload}
  {requirements : PaymentRequirements} {guard : ExpirationGuardConfig}
  {wallClock : Option UInt64}

theorem OutsideWindow.refused (hguard : cfg.expirationGuard = some guard)
    (houtside : OutsideWindow guard payload (wallClock.getD 0))
    (hreadable : WindowReadable payload) :
    ∃ error, WindowRefused cfg payload wallClock error := by
  obtain ⟨auth, validAfter, validBefore, hauth, hafter, hbefore⟩ := hreadable
  cases hvalidate : guard.validateNow validAfter validBefore wallClock with
  | error error =>
      exact ⟨error, guard, auth, validAfter, validBefore, hguard, hauth, hafter, hbefore,
        hvalidate⟩
  | ok _ =>
      obtain ⟨hactive, hunexpired⟩ := ExpirationGuardConfig.of_validate_eq_ok hvalidate
      cases houtside with
      | expired auth' validBefore' hauth' hbefore' hlt =>
          obtain rfl := Option.some.inj (hauth.symm.trans hauth')
          obtain rfl := Option.some.inj (hbefore.symm.trans hbefore')
          exact absurd hlt (UInt64.not_lt.mpr hunexpired)
      | premature auth' validAfter' hauth' hafter' hlt =>
          obtain rfl := Option.some.inj (hauth.symm.trans hauth')
          obtain rfl := Option.some.inj (hafter.symm.trans hafter')
          exact absurd hlt (Nat.not_lt.mpr hactive)

theorem checkExpiration_of_not_readable (hreadable : ¬ WindowReadable payload) :
    checkExpiration cfg payload wallClock = .ok () := by
  cases hcheck : checkExpiration cfg payload wallClock with
  | ok _ => rfl
  | error error =>
      obtain ⟨_, auth, validAfter, validBefore, _, hauth, hafter, hbefore, _⟩ :=
        checkExpiration_eq_error.mp hcheck
      exact absurd ⟨auth, validAfter, validBefore, hauth, hafter, hbefore⟩ hreadable

theorem rejects_of_refuses (world : GateWorld) (reserveAt : Instant)
    (hrefuses : ExpirationRefuses rt cfg req wallClock) :
    Rejects (arrive rt cfg req world wallClock reserveAt) := by
  obtain ⟨requirements, error, hscreen⟩ := screenRequest_of_refuses hrefuses
  simp only [arrive, hscreen]
  exact ⟨rfl, ⟨_, List.mem_singleton_self _, rfl⟩, by simp, by simp⟩

/-- A payment that passes the screening is rejected at once only as a replay. -/
theorem rejects_of_passed (world : GateWorld) (reserveAt : Instant)
    (hscreen : screenRequest rt cfg req wallClock = .passed payload requirements) :
    Rejects (arrive rt cfg req world wallClock reserveAt) ↔
      AlreadyReserved rt cfg world payload reserveAt := by
  simp only [arrive, hscreen, AlreadyReserved]
  cases hnonce : cfg.nonceGuard with
  | none =>
      constructor
      · intro hrejects
        exact absurd (List.mem_singleton_self _) (hrejects.unverified payload requirements)
      · rintro ⟨hsome, _⟩
        contradiction
  | some nonceGuard =>
      rcases nonceGuard.reserve_cases rt.codec (world.record cfg .recordRequest).store
        payload reserveAt with ⟨hmem, heq⟩ | ⟨hmem, _, heq⟩ | ⟨hmem, _, heq⟩
      · rw [GateWorld.record_store] at hmem
        simp only [heq]
        refine ⟨fun _ => ⟨rfl, hmem⟩, fun _ => ?_⟩
        exact ⟨rfl, ⟨_, List.mem_cons_of_mem _ (List.mem_singleton_self _), rfl⟩, by simp,
          by simp⟩
      · rw [GateWorld.record_store] at hmem
        simp only [heq]
        constructor
        · rintro ⟨_, ⟨response, hreply, hstatus⟩, _, _⟩
          obtain rfl : response = capacityResponse rt.codec := by simpa using hreply
          exact absurd hstatus (show (503 : ℕ) ≠ 402 by decide)
        · exact fun hreserved => absurd hreserved.2 hmem
      · rw [GateWorld.record_store] at hmem
        simp only [heq]
        constructor
        · intro hrejects
          exact absurd (List.mem_cons_of_mem _ (List.mem_singleton_self _))
            (hrejects.unverified payload requirements)
        · exact fun hreserved => absurd hreserved.2 hmem

/-- An authorization outside its window is rejected exactly when both ends of
the window can be read, or it is a replay. -/
theorem rejects_iff_readable (hguard : cfg.expirationGuard = some guard)
    (hmatch : Matches rt cfg req payload requirements)
    (houtside : OutsideWindow guard payload (wallClock.getD 0)) (world : GateWorld)
    (reserveAt : Instant) :
    Rejects (arrive rt cfg req world wallClock reserveAt) ↔
      WindowReadable payload ∨ AlreadyReserved rt cfg world payload reserveAt := by
  by_cases hreadable : WindowReadable payload
  · obtain ⟨error, hwindow⟩ := houtside.refused hguard hreadable
    exact iff_of_true
      (rejects_of_refuses world reserveAt ⟨payload, requirements, error, hmatch, hwindow⟩)
      (Or.inl hreadable)
  · have hscreen : screenRequest rt cfg req wallClock = .passed payload requirements := by
      rw [screenRequest_of_matches hmatch, checkExpiration_of_not_readable hreadable]
    rw [rejects_of_passed world reserveAt hscreen, or_iff_right hreadable]

end Rejection

namespace ExpirationWitness

open WireWitness

/-- A transfer of the payer `0xabc`, with the ends of its window. -/
def authorization (validAfter validBefore : Json) : Json :=
  .object [("from", .string "0xabc"), ("nonce", .string "0x01"),
    ("validAfter", validAfter), ("validBefore", validBefore)]

def payment (validAfter validBefore : Json) : PaymentPayload where
  x402Version := 2
  resource := none
  accepted := WireWitness.required
  payload := Value.ofJson (.object [("authorization", authorization validAfter validBefore)])
  extensions := none

def runtime (validAfter validBefore : Json) : Runtime where
  codec := codec (payment validAfter validBefore).encode .null
  clock := ⟨0⟩
  debug text := text

def request (validAfter validBefore : Json) : Request where
  uri := "/v1/forecast"
  originalUri := none
  headers := [("payment-signature", Codec.headerValue
    ((runtime validAfter validBefore).codec.encodeJson
      (payment validAfter validBefore).encode))]

/-- The gate of a route with the default guard. -/
def guarded : PaymentConfig := { route with expirationGuard := some .default }

theorem guarded_requirements (debug : String → String) :
    guarded.requirements debug = some (.ok WireWitness.required) := by
  have hprice : kiteTestnet.parsePrice "$0.01" =
      some (.ok ⟨WireWitness.required.asset, WireWitness.required.amount, kiteTestnet.extra⟩) := by
    decide +kernel
  simp only [PaymentConfig.requirements, guarded, route, PaymentConfig.new, hprice]
  rfl

/-- The payment in the header of the request is read and matches. -/
theorem request_matches (validAfter validBefore : Json) :
    Matches (runtime validAfter validBefore) guarded (request validAfter validBefore)
      (payment validAfter validBefore) WireWitness.required := by
  have hcarries : (runtime validAfter validBefore).codec.Carries
      (payment validAfter validBefore).encode := carries_first _ _
  have hfaithful : (payment validAfter validBefore).Faithful :=
    ⟨PaymentConfig.requirements_faithful (guarded_requirements id), by simp [payment]⟩
  have hheader : (request validAfter validBefore).paymentHeader =
      some ((runtime validAfter validBefore).codec.encodeJson
        (payment validAfter validBefore).encode) := by
    rw [Request.paymentHeader, request, HeaderMap.get, List.lookup_cons_self, Option.some_or,
      Option.bind_some, hcarries.toStr_headerValue]
  refine ⟨?_, guarded_requirements _, rfl⟩
  rw [hheader, Option.bind_some]
  exact decodePaymentPayload_encode rfl hfaithful hcarries

/-- The window closed at second 1; it is now second 100. -/
theorem outside (validAfter : Json)
    (hread : unixSeconds (.ofJson (authorization validAfter (.string "1"))) "validBefore" =
      some 1) (hauth : (payment validAfter (.string "1")).payload.get "authorization" =
        some (.ofJson (authorization validAfter (.string "1")))) :
    OutsideWindow .default (payment validAfter (.string "1")) 100 :=
  .expired _ 1 hauth hread (by decide)

def world : GateWorld := ⟨.empty, .new⟩

theorem expired_rejects : Rejects (arrive (runtime (.string "0") (.string "1")) guarded
    (request (.string "0") (.string "1")) world (some 100) 0) :=
  (rejects_iff_readable rfl (request_matches _ _)
    (outside _ (by decide +kernel) (by decide +kernel)) world 0).mpr
    (Or.inl ⟨.ofJson (authorization (.string "0") (.string "1")), 0, 1,
      by decide +kernel, by decide +kernel, by decide +kernel⟩)

/-- With `validAfter` in hexadecimal the expired payment goes to the
facilitator. -/
theorem hexadecimal_not_rejects :
    guarded.expirationGuard = some .default ∧
    Matches (runtime (.string "0x0") (.string "1")) guarded
      (request (.string "0x0") (.string "1")) (payment (.string "0x0") (.string "1"))
      WireWitness.required ∧
    OutsideWindow .default (payment (.string "0x0") (.string "1")) 100 ∧
    ¬ Rejects (arrive (runtime (.string "0x0") (.string "1")) guarded
      (request (.string "0x0") (.string "1")) world (some 100) 0) := by
  have hmatch := request_matches (.string "0x0") (.string "1")
  refine ⟨rfl, hmatch, outside _ (by decide +kernel) (by decide +kernel), ?_⟩
  have hscreen : screenRequest (runtime (.string "0x0") (.string "1")) guarded
      (request (.string "0x0") (.string "1")) (some 100) =
        .passed (payment (.string "0x0") (.string "1")) WireWitness.required := by
    have hcheck : checkExpiration guarded (payment (.string "0x0") (.string "1"))
        (some 100) = .ok () := by decide +kernel
    rw [screenRequest_of_matches hmatch, hcheck]
  intro hrejects
  have hreserved := (rejects_of_passed world 0 hscreen).mp hrejects
  exact Bool.false_ne_true hreserved.1

end ExpirationWitness

end KiteX402
