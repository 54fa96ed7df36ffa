/-
What a step of a request does to the replay guard: one critical section of the
guard or none, on the handle the request holds.
-/
import KiteX402.GateTrace
import KiteX402.NonceGuardReplay

namespace KiteX402

/-- The reservation a request holds. -/
def GatePhase.reservation : GatePhase → Option PaymentNonceReservation
  | .arrived | .ended => none
  | .verifying attempt | .handling attempt | .settling attempt _ =>
      attempt.reservation

/-- The reading of the clock a reserve is made with. -/
def GateInput.reserveAt : GateInput → Instant
  | .poll _ reserveAt => reserveAt
  | _ => 0

def GateEvent.guardEvent : GateEvent → Option GuardEvent
  | .guard event => some event
  | _ => none

def guardEvents (events : List GateEvent) : List GuardEvent :=
  events.filterMap GateEvent.guardEvent

@[simp] theorem guardEvents_nil : guardEvents [] = [] := rfl

@[simp] theorem guardEvents_guard (event : GuardEvent) (rest : List GateEvent) :
    guardEvents (.guard event :: rest) = event :: guardEvents rest := rfl

theorem guardEvents_of_none {event : GateEvent} (hevent : event.guardEvent = none)
    (rest : List GateEvent) : guardEvents (event :: rest) = guardEvents rest := by
  simp [guardEvents, hevent]

/-- The key of the authorization that a request carries. -/
def paymentKey (rt : Runtime) (req : Request) : Option String :=
  (req.paymentHeader.bind rt.codec.decodePaymentPayload).map
    (authorizationKey rt.codec)

theorem Matches.key {rt : Runtime} {cfg : PaymentConfig} {req : Request}
    {payload : PaymentPayload} {requirements : PaymentRequirements}
    (hmatch : Matches rt cfg req payload requirements) :
    paymentKey rt req = some (authorizationKey rt.codec payload) := by
  rw [paymentKey, hmatch.decoded, Option.map_some]

/-- From the reservation held before to the one held after a step, with the
store it leaves and the events of the guard. -/
inductive GuardEffect (guard : PaymentNonceReplayGuard) (clock : MonotonicClock)
    (key : Option String) (store : NonceStore) (now reserveAt : Instant) :
    Option PaymentNonceReservation → Option PaymentNonceReservation →
    NonceStore → List GuardEvent → Prop where
  | idle (held) : GuardEffect guard clock key store now reserveAt held held store []
  | retained (handle) :
      GuardEffect guard clock key store now reserveAt (some handle)
        (some handle.retainOnDrop) store []
  | reserved (own) (hkey : key = some own)
      (hown : own ∉ (store.expire reserveAt).entries)
      (hroom : (store.expire reserveAt).size < guard.maxCapacity) :
      GuardEffect guard clock key store now reserveAt none
        (some ⟨own, store.allocated, false⟩) ((store.expire reserveAt).occupy own)
        [.reserved own reserveAt store.allocated]
  | refused (own error) (hkey : key = some own)
      (hrefused : guard.reserveKey store own reserveAt =
        (.error error, store.expire reserveAt)) :
      GuardEffect guard clock key store now reserveAt none none
        (store.expire reserveAt) [.refused own reserveAt error]
  | letGo (handle flag) (hflag : flag = false ∨ flag = handle.retain) :
      GuardEffect guard clock key store now reserveAt (some handle) none
        (guard.drop clock store { handle with retain := flag } now)
        [.dropped { handle with retain := flag } now]

section Effects

variable {rt : Runtime} {cfg : PaymentConfig} {req : Request}
  {guard : PaymentNonceReplayGuard}

theorem finish_effect (rt : Runtime) (hguard : cfg.nonceGuard = some guard) (key : Option String)
    (world : GateWorld) (held : Option PaymentNonceReservation)
    (now reserveAt : Instant) {last : GateEvent} (hlast : last.guardEvent = none) :
    GuardEffect guard rt.clock key world.store now reserveAt held
      (finish rt cfg world held now last).1.2.reservation
      (finish rt cfg world held now last).1.1.store
      (guardEvents (finish rt cfg world held now last).2) := by
  cases held with
  | none =>
      simp only [finish, hguard, guardEvents_of_none hlast]
      exact .idle none
  | some handle =>
      simp only [finish, hguard, guardEvents_guard, guardEvents_of_none hlast]
      exact .letGo handle handle.retain (Or.inr rfl)

theorem finish_released_effect (hguard : cfg.nonceGuard = some guard)
    (key : Option String) (world : GateWorld)
    (held : Option PaymentNonceReservation) (now reserveAt : Instant)
    {last : GateEvent} (hlast : last.guardEvent = none) :
    let released := held.map fun handle => { handle with retain := false }
    GuardEffect guard rt.clock key world.store now reserveAt held
      (finish rt cfg world released now last).1.2.reservation
      (finish rt cfg world released now last).1.1.store
      (guardEvents (finish rt cfg world released now last).2) := by
  cases held with
  | none => exact finish_effect rt hguard key world none now reserveAt hlast
  | some handle =>
      simp only [Option.map_some, finish, hguard, guardEvents_guard,
        guardEvents_of_none hlast]
      exact .letGo handle false (Or.inl rfl)

theorem arrive_effect (hguard : cfg.nonceGuard = some guard) (world : GateWorld)
    (wallClock : Option UInt64) (now reserveAt : Instant) :
    let next := arrive rt cfg req world wallClock reserveAt
    GuardEffect guard rt.clock (paymentKey rt req) world.store now reserveAt none
      next.1.2.reservation next.1.1.store (guardEvents next.2) := by
  unfold arrive
  dsimp only
  split
  · simp only [GateWorld.record_store]
    exact .idle none
  next response challenged _ =>
    have hstore : (if challenged then (world.record cfg .recordRequest).record cfg
        .recordChallenge else world.record cfg .recordRequest).store =
        world.store := by
      split <;> simp
    simp only [hstore]
    exact .idle none
  next payload requirements hpassed =>
    have hkey := (matches_of_screenRequest hpassed).key
    simp only [hguard, GateWorld.record_store]
    rcases guard.reserveKey_cases world.store (authorizationKey rt.codec payload)
      reserveAt with ⟨_, heq⟩ | ⟨_, _, heq⟩ | ⟨hown, hroom, heq⟩ <;>
      simp only [PaymentNonceReplayGuard.reserve, heq, NonceReplayError.redact]
    · simp only [GateWorld.record_store]
      exact .refused _ _ hkey heq
    · exact .refused _ _ hkey heq
    · exact .reserved _ hkey hown hroom

theorem afterVerify_effect (hguard : cfg.nonceGuard = some guard)
    (key : Option String) (world : GateWorld) (attempt : PaymentAttempt)
    (now reserveAt : Instant) (result : Except String VerifyResponse) :
    let next := afterVerify rt cfg req world attempt now result
    GuardEffect guard rt.clock key world.store now reserveAt attempt.reservation
      next.1.2.reservation next.1.1.store (guardEvents next.2) := by
  have hrefused : ((world.record cfg (·.recordVerification false)).record cfg
      .recordChallenge).store = world.store := by simp
  have hrefuse := fun reply => finish_effect rt hguard key
    ((world.record cfg (·.recordVerification false)).record cfg .recordChallenge)
    attempt.reservation now reserveAt (rfl : (GateEvent.replied reply).guardEvent = none)
  simp only [hrefused] at hrefuse
  cases result with
  | error error => exact hrefuse _
  | ok verify =>
      by_cases hvalid : verify.isValid = true
      · simp only [afterVerify, if_pos hvalid, GatePhase.reservation,
          GateWorld.record_store]
        cases attempt.reservation with
        | none => exact .idle none
        | some handle => exact .retained handle
      · simp only [afterVerify, if_neg hvalid]
        exact hrefuse _

theorem afterHandler_effect (hguard : cfg.nonceGuard = some guard)
    (key : Option String) (world : GateWorld) (attempt : PaymentAttempt)
    (now reserveAt : Instant) (response : Response) :
    let next := afterHandler rt cfg world attempt now response
    GuardEffect guard rt.clock key world.store now reserveAt attempt.reservation
      next.1.2.reservation next.1.1.store (guardEvents next.2) := by
  by_cases hstatus : 400 ≤ response.status
  · simp only [afterHandler, if_pos hstatus]
    exact finish_released_effect hguard key world attempt.reservation now reserveAt rfl
  · simp only [afterHandler, if_neg hstatus]
    exact .idle attempt.reservation

theorem afterSettle_effect (hguard : cfg.nonceGuard = some guard)
    (key : Option String) (world : GateWorld) (attempt : PaymentAttempt)
    (response : Response) (now reserveAt : Instant)
    (result : Except String SettleResponse) (elapsed : Duration) :
    let next := afterSettle rt cfg world attempt response now result elapsed
    GuardEffect guard rt.clock key world.store now reserveAt attempt.reservation
      next.1.2.reservation next.1.1.store (guardEvents next.2) := by
  have hend := fun success reply => finish_effect rt hguard key
    (world.record cfg (·.recordSettlement success elapsed))
    attempt.reservation now reserveAt (rfl : (GateEvent.replied reply).guardEvent = none)
  simp only [GateWorld.record_store] at hend
  cases result <;> exact hend _ _

/-- A step is at most one critical section of the guard. -/
theorem gateStep_effect (hguard : cfg.nonceGuard = some guard) (world : GateWorld)
    (phase : GatePhase) (now : Instant) (input : GateInput) :
    let next := gateStep rt cfg req world phase now input
    GuardEffect guard rt.clock (paymentKey rt req) world.store now input.reserveAt
      phase.reservation next.1.2.reservation next.1.1.store
      (guardEvents next.2) := by
  cases phase with
  | arrived =>
      cases input with
      | poll wallClock reserveAt =>
          exact arrive_effect hguard world wallClock now reserveAt
      | _ => exact .idle none
  | verifying attempt =>
      cases input with
      | verified result => exact afterVerify_effect hguard _ world attempt now _ result
      | cancel => exact finish_effect rt hguard _ world attempt.reservation now _ rfl
      | _ => exact .idle _
  | handling attempt =>
      cases input with
      | handled response => exact afterHandler_effect hguard _ world attempt now _ response
      | cancel => exact finish_effect rt hguard _ world attempt.reservation now _ rfl
      | _ => exact .idle _
  | settling attempt response =>
      cases input with
      | settled result elapsed =>
          exact afterSettle_effect hguard _ world attempt response now _ result elapsed
      | cancel => exact finish_effect rt hguard _ world attempt.reservation now _ rfl
      | _ => exact .idle _
  | ended => cases input <;> exact .idle none

end Effects

end KiteX402
