/-
The counters of the gate against what its requests did, under every
interleaving of their steps.
-/
import KiteX402.GateExpiration
import Mathlib.Logic.Function.Basic

namespace KiteX402

/-- `PaymentConfig::with_metrics`. -/
def PaymentConfig.withMetrics (cfg : PaymentConfig) : PaymentConfig :=
  { cfg with metrics := true }

/-- The shared state of a gate, and where each request stands. -/
structure GateState where
  world : GateWorld
  phases : ℕ → GatePhase

structure GateAction where
  request : ℕ
  now : Instant
  input : GateInput

/-- A step of a request, with where it stood and what it then did. -/
structure GateRound where
  request : ℕ
  phase : GatePhase
  input : GateInput
  events : List GateEvent

section Machine

variable (rt : Runtime) (cfg : PaymentConfig) (requests : ℕ → Request)

/-- All requests to a gate. -/
def gateMachine : Machine GateState GateAction GateRound :=
  ⟨fun state action =>
    let phase := state.phases action.request
    let next := gateStep rt cfg (requests action.request) state.world phase action.now
      action.input
    (⟨next.1.1, Function.update state.phases action.request next.1.2⟩,
      [⟨action.request, phase, action.input, next.2⟩])⟩

/-- The gate before its first request, its counters at zero. -/
def GateState.start (store : NonceStore) : GateState :=
  ⟨⟨store, .new⟩, fun _ => .arrived⟩

end Machine

namespace GateEvent

/-- A reply with status 402 and a `PAYMENT-REQUIRED` header. -/
def isChallenge : GateEvent → Bool
  | .replied response =>
      response.status = 402 && (response.headers.get "payment-required").isSome
  | _ => false

def isVerifyReturned : GateEvent → Bool
  | .verifyReturned _ => true
  | _ => false

def isSettleReturned : GateEvent → Bool
  | .settleReturned _ => true
  | _ => false

end GateEvent

namespace GateRound

/-- The gate itself answers with a challenge: the handler was not entered. -/
def challenges (round : GateRound) : Bool :=
  match round.phase with
  | .arrived | .verifying _ => round.events.any GateEvent.isChallenge
  | _ => false

def verifyReturns (round : GateRound) : ℕ := round.events.countP GateEvent.isVerifyReturned

def settleReturns (round : GateRound) : ℕ := round.events.countP GateEvent.isSettleReturned

/-- The receipt that the gate attaches to its reply. -/
def receipt (cfg : PaymentConfig) (round : GateRound) : Option SettleResponse :=
  match round.phase, round.input with
  | .settling _ _, .settled result _ => some (settleReceipt cfg result)
  | _, _ => none

/-- The gate attaches a receipt of success. -/
def confirms (cfg : PaymentConfig) (round : GateRound) : Bool :=
  (round.receipt cfg).any SettleResponse.success

end GateRound

section Replies

variable (codec : Codec)

/-- What `payment_required_response` builds is a challenge. -/
theorem isChallenge_paymentRequired (requirements : PaymentRequirements)
    (resourceUrl description : String) (error : Option String) :
    GateEvent.isChallenge (.replied (paymentRequiredResponse codec requirements
      resourceUrl description error)) = true := by
  have hget : ((paymentRequiredResponse codec requirements resourceUrl description
      error).headers.get "payment-required").isSome = true := by
    unfold paymentRequiredResponse paymentReply
    rw [HeaderMap.get_insert_of_ne _ (by decide), HeaderMap.get_insert_self]
    rfl
  simp only [GateEvent.isChallenge, hget, Bool.and_true]
  rfl

end Replies

/-- The receipt stands in the reply that carries it. -/
theorem receipt_of_settleReply (rt : Runtime) (cfg : PaymentConfig) (response : Response)
    (result : Except String SettleResponse) :
    (settleReply rt cfg response result).headers.get "payment-response" =
      some (Codec.headerValue
        (rt.codec.encodeSettleResponse (settleReceipt cfg result))) := by
  unfold settleReply
  dsimp only
  split
  · unfold settledResponse
    dsimp only
    rw [HeaderMap.get_insert_of_ne _ (by decide), HeaderMap.get_insert_self]
  · unfold settlementFailureResponse paymentReply
    rw [HeaderMap.get_insert_of_ne _ (by decide), HeaderMap.get_insert_self]

section Step

variable {rt : Runtime} {cfg : PaymentConfig} {req : Request}

theorem record_metrics (hmetrics : cfg.metrics = true) (world : GateWorld)
    (update : PaymentMetrics → PaymentMetrics) :
    (world.record cfg update).metrics = update world.metrics := by
  rw [GateWorld.record, if_pos hmetrics]

theorem finish_metrics (world : GateWorld) (reservation : Option PaymentNonceReservation)
    (now : Instant) (last : GateEvent) :
    (finish rt cfg world reservation now last).1.1.metrics = world.metrics := by
  unfold finish
  split <;> rfl

theorem countP_finish {p : GateEvent → Bool} (hguard : ∀ event, p (.guard event) = false)
    (world : GateWorld) (reservation : Option PaymentNonceReservation) (now : Instant)
    (last : GateEvent) :
    (finish rt cfg world reservation now last).2.countP p = if p last then 1 else 0 := by
  unfold finish
  split <;> simp [List.countP_cons, hguard]

theorem mem_finish (world : GateWorld) (reservation : Option PaymentNonceReservation)
    (now : Instant) (last : GateEvent) :
    last ∈ (finish rt cfg world reservation now last).2 := by
  unfold finish
  split <;> simp

/-- How many calls to the facilitator have returned. -/
structure Returned (events : List GateEvent) (verifies settles : ℕ) : Prop where
  verifyReturns : events.countP GateEvent.isVerifyReturned = verifies
  settleReturns : events.countP GateEvent.isSettleReturned = settles

theorem returned_finish (world : GateWorld) (reservation : Option PaymentNonceReservation)
    (now : Instant) {last : GateEvent} (hverify : last.isVerifyReturned = false)
    (hsettle : last.isSettleReturned = false) :
    Returned (finish rt cfg world reservation now last).2 0 0 := by
  constructor
  · rw [countP_finish (fun _ => rfl), hverify]
    rfl
  · rw [countP_finish (fun _ => rfl), hsettle]
    rfl

theorem Returned.cons {events : List GateEvent} {verifies settles : ℕ} (event : GateEvent)
    (hreturned : Returned events verifies settles) :
    Returned (event :: events)
      (verifies + if event.isVerifyReturned then 1 else 0)
      (settles + if event.isSettleReturned then 1 else 0) :=
  ⟨by rw [List.countP_cons, hreturned.verifyReturns],
    by rw [List.countP_cons, hreturned.settleReturns]⟩

/-- A request that the expiration guard lets pass counts what it answers. -/
theorem arrive_counts (hmetrics : cfg.metrics = true) (world : GateWorld)
    {wallClock : Option UInt64} (reserveAt : Instant)
    (hpasses : ¬ ExpirationRefuses rt cfg req wallClock) :
    let next := arrive rt cfg req world wallClock reserveAt
    next.1.1.metrics =
        (if next.2.any GateEvent.isChallenge then
          world.metrics.recordRequest.recordChallenge else world.metrics.recordRequest) ∧
      Returned next.2 0 0 := by
  have hrecord := record_metrics hmetrics world .recordRequest
  rcases screenRequest_cases hpasses with hscreen | ⟨msg, hscreen⟩ |
    ⟨requirements, error, hscreen⟩ | ⟨payload, requirements, hscreen⟩
  · simp only [arrive, hscreen]
    exact ⟨hrecord, rfl, rfl⟩
  · simp only [arrive, hscreen]
    exact ⟨hrecord, rfl, rfl⟩
  · simp only [arrive, hscreen, List.any_cons, isChallenge_paymentRequired, Bool.true_or,
      if_true, record_metrics hmetrics]
    exact ⟨trivial, rfl, rfl⟩
  · simp only [arrive, hscreen]
    cases hguard : cfg.nonceGuard with
    | none => exact ⟨hrecord, rfl, rfl⟩
    | some guard =>
        rcases guard.reserve_cases rt.codec (world.record cfg .recordRequest).store
          payload reserveAt with ⟨_, heq⟩ | ⟨_, _, heq⟩ | ⟨_, _, heq⟩
        · simp only [heq, List.any_cons, isChallenge_paymentRequired, Bool.true_or,
            Bool.or_true, if_true, record_metrics hmetrics]
          exact ⟨trivial, rfl, rfl⟩
        · simp only [heq]
          exact ⟨hrecord, rfl, rfl⟩
        · simp only [heq]
          exact ⟨hrecord, rfl, rfl⟩

/-- A challenge of the expiration guard is not counted. -/
theorem arrive_of_refuses (hmetrics : cfg.metrics = true) (world : GateWorld)
    {wallClock : Option UInt64} (reserveAt : Instant)
    (hrefuses : ExpirationRefuses rt cfg req wallClock) :
    let next := arrive rt cfg req world wallClock reserveAt
    next.1.1.metrics = world.metrics.recordRequest ∧
      next.2.any GateEvent.isChallenge = true ∧
      Returned next.2 0 0 := by
  obtain ⟨requirements, error, hscreen⟩ := screenRequest_of_refuses hrefuses
  simp only [arrive, hscreen, List.any_cons, isChallenge_paymentRequired, Bool.true_or]
  exact ⟨record_metrics hmetrics _ _, trivial, rfl, rfl⟩

theorem any_finish (world : GateWorld) (reservation : Option PaymentNonceReservation)
    (now : Instant) (last : GateEvent) :
    (finish rt cfg world reservation now last).2.any GateEvent.isChallenge =
      last.isChallenge := by
  unfold finish
  split <;> simp [GateEvent.isChallenge]

variable (rt req) in
theorem afterVerify_counts (hmetrics : cfg.metrics = true) (world : GateWorld)
    (attempt : PaymentAttempt) (now : Instant) (result : Except String VerifyResponse) :
    let next := afterVerify rt cfg req world attempt now result
    next.1.1.metrics =
        (if next.2.any GateEvent.isChallenge then
          (world.metrics.recordVerification false).recordChallenge
        else world.metrics.recordVerification true) ∧
      Returned next.2 1 0 := by
  have hrefused : ∀ reason,
      let ending := finish rt cfg ((world.record cfg (·.recordVerification false)).record cfg
        .recordChallenge) attempt.reservation now
        (.replied (paymentRequiredResponse rt.codec attempt.requirements req.resourceUrl
          cfg.description (some reason)))
      let next := (ending.1, .verifyReturned result :: ending.2)
      next.1.1.metrics =
          (if next.2.any GateEvent.isChallenge then
            (world.metrics.recordVerification false).recordChallenge
          else world.metrics.recordVerification true) ∧
        Returned next.2 1 0 := by
    intro reason ending next
    refine ⟨?_, (returned_finish _ _ _ rfl rfl).cons _⟩
    simp only [next, ending, List.any_cons, any_finish, isChallenge_paymentRequired,
      Bool.or_true, if_true, finish_metrics, record_metrics hmetrics]
  cases result with
  | error error => exact hrefused _
  | ok verify =>
      by_cases hvalid : verify.isValid = true
      · simp only [afterVerify, hvalid, if_true]
        exact ⟨record_metrics hmetrics _ _, rfl, rfl⟩
      · simp only [afterVerify, hvalid, Bool.false_eq_true, if_false]
        exact hrefused _

variable (rt cfg) in
theorem afterHandler_counts (world : GateWorld) (attempt : PaymentAttempt) (now : Instant)
    (response : Response) :
    let next := afterHandler rt cfg world attempt now response
    next.1.1.metrics = world.metrics ∧ Returned next.2 0 0 := by
  by_cases hstatus : 400 ≤ response.status
  · simp only [afterHandler, if_pos hstatus]
    exact ⟨finish_metrics _ _ _ _, (returned_finish _ _ _ rfl rfl).cons _⟩
  · simp only [afterHandler, if_neg hstatus]
    exact ⟨trivial, rfl, rfl⟩

variable (rt) in
theorem afterSettle_counts (hmetrics : cfg.metrics = true) (world : GateWorld)
    (attempt : PaymentAttempt) (response : Response) (now : Instant)
    (result : Except String SettleResponse) (elapsed : Duration) :
    let next := afterSettle rt cfg world attempt response now result elapsed
    next.1.1.metrics =
        world.metrics.recordSettlement (settleReceipt cfg result).success elapsed ∧
      Returned next.2 0 1 := by
  cases result with
  | ok settle =>
      refine ⟨?_, (returned_finish _ _ _ rfl rfl).cons _⟩
      simp only [afterSettle, finish_metrics, record_metrics hmetrics, settleReceipt]
  | error error =>
      refine ⟨?_, (returned_finish _ _ _ rfl rfl).cons _⟩
      simp only [afterSettle, finish_metrics, record_metrics hmetrics, settleReceipt]

/-- What a round adds to the counters of outcomes. -/
structure Accounts (cfg : PaymentConfig) (before after : PaymentMetrics)
    (round : GateRound) : Prop where
  verifications : after.verificationsSuccess + after.verificationsFailed =
    before.verificationsSuccess + before.verificationsFailed +
      UInt64.ofNat round.verifyReturns
  settlements : after.settlementsSuccess + after.settlementsFailed =
    before.settlementsSuccess + before.settlementsFailed +
      UInt64.ofNat round.settleReturns
  confirmations : after.settlementsSuccess =
    before.settlementsSuccess + if round.confirms cfg then 1 else 0

/-- A round in which no call to the facilitator returns. -/
theorem Accounts.of_returned_none {before after : PaymentMetrics} {round : GateRound}
    (hreturned : Returned round.events 0 0) (hreceipt : round.receipt cfg = none)
    (hverified : after.verificationsSuccess = before.verificationsSuccess)
    (hrejected : after.verificationsFailed = before.verificationsFailed)
    (hsettled : after.settlementsSuccess = before.settlementsSuccess)
    (hfailed : after.settlementsFailed = before.settlementsFailed) :
    Accounts cfg before after round where
  verifications := by
    rw [hverified, hrejected, GateRound.verifyReturns, hreturned.verifyReturns]
    exact (UInt64.add_zero _).symm
  settlements := by
    rw [hsettled, hfailed, GateRound.settleReturns, hreturned.settleReturns]
    exact (UInt64.add_zero _).symm
  confirmations := by
    rw [hsettled, GateRound.confirms, hreceipt]
    exact (UInt64.add_zero _).symm

theorem arrive_accounts (hmetrics : cfg.metrics = true) (i : ℕ) (world : GateWorld)
    (wallClock : Option UInt64) (reserveAt : Instant) :
    let next := arrive rt cfg req world wallClock reserveAt
    Accounts cfg world.metrics next.1.1.metrics
      ⟨i, .arrived, .poll wallClock reserveAt, next.2⟩ := by
  intro next
  by_cases hrefuses : ExpirationRefuses rt cfg req wallClock
  · obtain ⟨hafter, _, hreturned⟩ :=
      arrive_of_refuses hmetrics world reserveAt hrefuses
    apply Accounts.of_returned_none hreturned rfl <;> rw [hafter] <;> rfl
  · obtain ⟨hafter, hreturned⟩ := arrive_counts hmetrics world reserveAt hrefuses
    apply Accounts.of_returned_none hreturned rfl <;> rw [hafter] <;> split <;> rfl

theorem afterVerify_accounts (hmetrics : cfg.metrics = true) (i : ℕ) (world : GateWorld)
    (attempt : PaymentAttempt) (now : Instant) (result : Except String VerifyResponse) :
    let next := afterVerify rt cfg req world attempt now result
    Accounts cfg world.metrics next.1.1.metrics
      ⟨i, .verifying attempt, .verified result, next.2⟩ := by
  intro next
  obtain ⟨hafter, hreturned⟩ := afterVerify_counts rt req hmetrics world attempt now result
  have hconfirms : GateRound.confirms cfg
      ⟨i, .verifying attempt, .verified result, next.2⟩ = false := rfl
  constructor
  · rw [hafter, GateRound.verifyReturns, hreturned.verifyReturns]
    split
    · exact (UInt64.add_assoc _ _ 1).symm
    · change world.metrics.verificationsSuccess + 1 + world.metrics.verificationsFailed =
        world.metrics.verificationsSuccess + world.metrics.verificationsFailed + 1
      ac_rfl
  · rw [hafter, GateRound.settleReturns, hreturned.settleReturns]
    split <;> exact (UInt64.add_zero _).symm
  · rw [hafter, hconfirms]
    split <;> exact (UInt64.add_zero _).symm

theorem afterSettle_accounts (hmetrics : cfg.metrics = true) (i : ℕ) (world : GateWorld)
    (attempt : PaymentAttempt) (response : Response) (now : Instant)
    (result : Except String SettleResponse) (elapsed : Duration) :
    let next := afterSettle rt cfg world attempt response now result elapsed
    Accounts cfg world.metrics next.1.1.metrics
      ⟨i, .settling attempt response, .settled result elapsed, next.2⟩ := by
  intro next
  obtain ⟨hafter, hreturned⟩ :=
    afterSettle_counts rt hmetrics world attempt response now result elapsed
  have hconfirms : GateRound.confirms cfg
      ⟨i, .settling attempt response, .settled result elapsed, next.2⟩ =
        (settleReceipt cfg result).success := rfl
  constructor
  · rw [hafter, GateRound.verifyReturns, hreturned.verifyReturns]
    cases (settleReceipt cfg result).success <;> exact (UInt64.add_zero _).symm
  · rw [hafter, GateRound.settleReturns, hreturned.settleReturns]
    cases (settleReceipt cfg result).success with
    | true =>
        change world.metrics.settlementsSuccess + 1 + world.metrics.settlementsFailed =
          world.metrics.settlementsSuccess + world.metrics.settlementsFailed + 1
        ac_rfl
    | false => exact (UInt64.add_assoc _ _ 1).symm
  · rw [hafter, hconfirms]
    cases (settleReceipt cfg result).success with
    | true => rfl
    | false => exact (UInt64.add_zero _).symm

theorem cancel_accounts (i : ℕ) (world : GateWorld) (phase : GatePhase)
    (reservation : Option PaymentNonceReservation) (now : Instant) :
    let next := finish rt cfg world reservation now .cancelled
    Accounts cfg world.metrics next.1.1.metrics ⟨i, phase, .cancel, next.2⟩ := by
  intro next
  have hreceipt : GateRound.receipt cfg ⟨i, phase, .cancel, next.2⟩ = none := by
    cases phase <;> rfl
  apply Accounts.of_returned_none (returned_finish _ _ _ rfl rfl) hreceipt <;>
    rw [finish_metrics]

variable (rt req) in
/-- A step of a request accounts for the calls that returned in it. -/
theorem gateStep_accounts (hmetrics : cfg.metrics = true) (i : ℕ) (world : GateWorld)
    (phase : GatePhase) (now : Instant) (input : GateInput) :
    let next := gateStep rt cfg req world phase now input
    Accounts cfg world.metrics next.1.1.metrics ⟨i, phase, input, next.2⟩ := by
  intro next
  have hidle : GateRound.receipt cfg ⟨i, phase, input, []⟩ = none →
      Accounts cfg world.metrics world.metrics ⟨i, phase, input, []⟩ :=
    fun hreceipt => Accounts.of_returned_none ⟨rfl, rfl⟩ hreceipt rfl rfl rfl rfl
  cases phase with
  | arrived =>
      cases input with
      | poll wallClock reserveAt => exact arrive_accounts hmetrics i world wallClock reserveAt
      | cancel => exact Accounts.of_returned_none ⟨rfl, rfl⟩ rfl rfl rfl rfl rfl
      | _ => exact hidle rfl
  | verifying attempt =>
      cases input with
      | verified result => exact afterVerify_accounts hmetrics i world attempt now result
      | cancel => exact cancel_accounts i world _ _ now
      | _ => exact hidle rfl
  | handling attempt =>
      cases input with
      | handled response =>
          obtain ⟨hafter, hreturned⟩ :=
            afterHandler_counts rt cfg world attempt now response
          apply Accounts.of_returned_none hreturned rfl <;>
            simp only [next, gateStep, hafter]
      | cancel => exact cancel_accounts i world _ _ now
      | _ => exact hidle rfl
  | settling attempt response =>
      cases input with
      | settled result elapsed =>
          exact afterSettle_accounts hmetrics i world attempt response now result elapsed
      | cancel => exact cancel_accounts i world _ _ now
      | _ => exact hidle rfl
  | ended => cases input <;> exact hidle rfl

/-- The request is polled, and the expiration guard rejects its payment. -/
def Lapses (rt : Runtime) (cfg : PaymentConfig) (req : Request) (phase : GatePhase)
    (input : GateInput) : Prop :=
  phase = .arrived ∧ ∃ wallClock reserveAt, input = .poll wallClock reserveAt ∧
    ExpirationRefuses rt cfg req wallClock

/-- The counter of challenges follows a round. -/
def CountsChallenge (before after : PaymentMetrics) (round : GateRound) : Prop :=
  after.challengesTotal = before.challengesTotal + if round.challenges then 1 else 0

theorem CountsChallenge.of_none {before after : PaymentMetrics} {round : GateRound}
    (hsame : after.challengesTotal = before.challengesTotal)
    (hnone : round.challenges = false) : CountsChallenge before after round := by
  rw [CountsChallenge, hsame, hnone]
  exact (UInt64.add_zero _).symm

theorem arrive_countsChallenge (hmetrics : cfg.metrics = true) (i : ℕ) (world : GateWorld)
    {wallClock : Option UInt64} (reserveAt : Instant)
    (hpasses : ¬ ExpirationRefuses rt cfg req wallClock) :
    let next := arrive rt cfg req world wallClock reserveAt
    CountsChallenge world.metrics next.1.1.metrics
      ⟨i, .arrived, .poll wallClock reserveAt, next.2⟩ := by
  intro next
  obtain ⟨hafter, _⟩ := arrive_counts hmetrics world reserveAt hpasses
  rw [CountsChallenge, hafter, GateRound.challenges]
  split
  · rfl
  · exact (UInt64.add_zero _).symm

theorem afterVerify_countsChallenge (hmetrics : cfg.metrics = true) (i : ℕ)
    (world : GateWorld) (attempt : PaymentAttempt) (now : Instant)
    (result : Except String VerifyResponse) :
    let next := afterVerify rt cfg req world attempt now result
    CountsChallenge world.metrics next.1.1.metrics
      ⟨i, .verifying attempt, .verified result, next.2⟩ := by
  intro next
  obtain ⟨hafter, _⟩ := afterVerify_counts rt req hmetrics world attempt now result
  rw [CountsChallenge, hafter, GateRound.challenges]
  split
  · rfl
  · exact (UInt64.add_zero _).symm

/-- A step counts its challenge, if it is not one of these. -/
theorem gateStep_countsChallenge (hmetrics : cfg.metrics = true) (i : ℕ)
    (world : GateWorld) {phase : GatePhase} (now : Instant) {input : GateInput}
    (hpasses : ¬ Lapses rt cfg req phase input) :
    let next := gateStep rt cfg req world phase now input
    CountsChallenge world.metrics next.1.1.metrics ⟨i, phase, input, next.2⟩ := by
  intro next
  have hcancel : ∀ reservation, (finish rt cfg world reservation now
      .cancelled).1.1.metrics.challengesTotal = world.metrics.challengesTotal :=
    fun reservation => by rw [finish_metrics]
  cases phase with
  | arrived =>
      cases input with
      | poll wallClock reserveAt =>
          exact arrive_countsChallenge hmetrics i world reserveAt
            fun hrefuses => hpasses ⟨rfl, wallClock, reserveAt, rfl, hrefuses⟩
      | _ => exact .of_none rfl rfl
  | verifying attempt =>
      cases input with
      | verified result =>
          exact afterVerify_countsChallenge hmetrics i world attempt now result
      | cancel => exact .of_none (hcancel _) (any_finish _ _ _ _)
      | _ => exact .of_none rfl rfl
  | handling attempt =>
      cases input with
      | handled response =>
          obtain ⟨hafter, _⟩ := afterHandler_counts rt cfg world attempt now response
          exact .of_none (congrArg PaymentMetrics.challengesTotal hafter) rfl
      | cancel => exact .of_none (hcancel _) rfl
      | _ => exact .of_none rfl rfl
  | settling attempt response =>
      cases input with
      | settled result elapsed =>
          obtain ⟨hafter, _⟩ :=
            afterSettle_counts rt hmetrics world attempt response now result elapsed
          refine .of_none ?_ rfl
          simp only [next, gateStep, hafter, PaymentMetrics.recordSettlement]
          split <;> rfl
      | cancel => exact .of_none (hcancel _) rfl
      | _ => exact .of_none rfl rfl
  | ended => cases input <;> exact .of_none rfl rfl

theorem gateStep_of_lapses (hmetrics : cfg.metrics = true) (i : ℕ) (world : GateWorld)
    {phase : GatePhase} (now : Instant) {input : GateInput}
    (hlapses : Lapses rt cfg req phase input) :
    let next := gateStep rt cfg req world phase now input
    next.1.1.metrics.challengesTotal = world.metrics.challengesTotal ∧
      GateRound.challenges ⟨i, phase, input, next.2⟩ = true := by
  obtain ⟨rfl, wallClock, reserveAt, rfl, hrefuses⟩ := hlapses
  obtain ⟨hafter, hchallenge, _⟩ :=
    arrive_of_refuses hmetrics world reserveAt hrefuses
  refine ⟨?_, hchallenge⟩
  simp only [gateStep, hafter]
  rfl

/-- The receipt of a round stands in the header of its reply. -/
theorem gateStep_receipt (i : ℕ) (world : GateWorld) (phase : GatePhase) (now : Instant)
    (input : GateInput) {receipt : SettleResponse} :
    let next := gateStep rt cfg req world phase now input
    GateRound.receipt cfg ⟨i, phase, input, next.2⟩ = some receipt →
      ∃ response, .replied response ∈ next.2 ∧ response.headers.get "payment-response" =
        some (Codec.headerValue (rt.codec.encodeSettleResponse receipt)) := by
  intro next hreceipt
  unfold GateRound.receipt at hreceipt
  split at hreceipt
  next attempt response result elapsed hphase hinput =>
    obtain rfl : phase = .settling attempt response := hphase
    obtain rfl : input = .settled result elapsed := hinput
    obtain rfl := Option.some.inj hreceipt
    refine ⟨settleReply rt cfg response result, ?_, receipt_of_settleReply ..⟩
    cases result with
    | ok settle => exact List.mem_cons_of_mem _ (mem_finish _ _ _ _)
    | error error => exact List.mem_cons_of_mem _ (mem_finish _ _ _ _)
  next => contradiction

end Step

/-- The counters tell what the rounds did, and every receipt was delivered. -/
structure MetricsAgree (codec : Codec) (cfg : PaymentConfig) (metrics : PaymentMetrics)
    (rounds : List GateRound) : Prop where
  challenges : metrics.challengesTotal =
    UInt64.ofNat (rounds.countP GateRound.challenges)
  verifications : metrics.verificationsSuccess + metrics.verificationsFailed =
    UInt64.ofNat (rounds.map GateRound.verifyReturns).sum
  settlements : metrics.settlementsSuccess + metrics.settlementsFailed =
    UInt64.ofNat (rounds.map GateRound.settleReturns).sum
  confirmations : metrics.settlementsSuccess =
    UInt64.ofNat (rounds.countP (GateRound.confirms cfg))
  receipts : ∀ round ∈ rounds, ∀ receipt, round.receipt cfg = some receipt →
    ∃ response, .replied response ∈ round.events ∧
      response.headers.get "payment-response" =
        some (Codec.headerValue (codec.encodeSettleResponse receipt))

section Run

variable (rt : Runtime) (cfg : PaymentConfig) (requests : ℕ → Request) (store : NonceStore)

/-- The gate, its counters on, after some steps of its requests. -/
def gateRun (actions : List GateAction) : GateState × List GateRound :=
  (gateMachine rt cfg.withMetrics requests).run (.start store) actions

/-- A step whose challenge the counters miss. -/
def Misses (actions : List GateAction) (action : GateAction) : Prop :=
  Lapses rt cfg.withMetrics (requests action.request)
    ((gateRun rt cfg requests store actions).1.phases action.request) action.input

variable {rt cfg requests store}

theorem gateRun_concat (actions : List GateAction) (action : GateAction) :
    let before := gateRun rt cfg requests store actions
    let phase := before.1.phases action.request
    let next := gateStep rt cfg.withMetrics (requests action.request) before.1.world phase
      action.now action.input
    gateRun rt cfg requests store (actions ++ [action]) =
      (⟨next.1.1, Function.update before.1.phases action.request next.1.2⟩,
        before.2 ++ [⟨action.request, phase, action.input, next.2⟩]) :=
  Machine.run_concat _ _ _ _

theorem metricsAgree_nil (codec : Codec) :
    MetricsAgree codec cfg.withMetrics .new [] where
  challenges := rfl
  verifications := UInt64.add_zero 0
  settlements := UInt64.add_zero 0
  confirmations := rfl
  receipts _ hround := absurd hround List.not_mem_nil

/-- A step that is not missed keeps the counters right. -/
theorem MetricsAgree.step {actions : List GateAction} {action : GateAction}
    (hagree : MetricsAgree rt.codec cfg.withMetrics
      (gateRun rt cfg requests store actions).1.world.metrics
      (gateRun rt cfg requests store actions).2)
    (hcounted : ¬ Misses rt cfg requests store actions action) :
    MetricsAgree rt.codec cfg.withMetrics
      (gateRun rt cfg requests store (actions ++ [action])).1.world.metrics
      (gateRun rt cfg requests store (actions ++ [action])).2 := by
  have haccounts := gateStep_accounts rt (requests action.request)
    (show cfg.withMetrics.metrics = true from rfl) action.request
    (gateRun rt cfg requests store actions).1.world
    ((gateRun rt cfg requests store actions).1.phases action.request) action.now action.input
  have hchallenges := gateStep_countsChallenge rfl action.request
    (gateRun rt cfg requests store actions).1.world action.now hcounted
  rw [gateRun_concat]
  constructor
  · rw [CountsChallenge] at hchallenges
    rw [hchallenges, hagree.challenges, List.countP_append, List.countP_singleton,
      UInt64.ofNat_add]
    split <;> rfl
  · rw [haccounts.verifications, hagree.verifications, List.map_append, List.sum_append,
      UInt64.ofNat_add]
    rfl
  · rw [haccounts.settlements, hagree.settlements, List.map_append, List.sum_append,
      UInt64.ofNat_add]
    rfl
  · rw [haccounts.confirmations, hagree.confirmations, List.countP_append,
      List.countP_singleton, UInt64.ofNat_add]
    split <;> rfl
  · intro round hround receipt hreceipt
    rcases List.mem_append.mp hround with hold | hnew
    · exact hagree.receipts round hold receipt hreceipt
    · obtain rfl := List.mem_singleton.mp hnew
      exact gateStep_receipt action.request _ _ action.now _ hreceipt

/-- A missed step leaves the counters behind. -/
theorem Misses.not_agree {actions : List GateAction} {action : GateAction}
    (hmisses : Misses rt cfg requests store actions action)
    (hagree : MetricsAgree rt.codec cfg.withMetrics
      (gateRun rt cfg requests store actions).1.world.metrics
      (gateRun rt cfg requests store actions).2) :
    ¬ MetricsAgree rt.codec cfg.withMetrics
      (gateRun rt cfg requests store (actions ++ [action])).1.world.metrics
      (gateRun rt cfg requests store (actions ++ [action])).2 := by
  intro hafter
  obtain ⟨hsame, hchallenge⟩ := gateStep_of_lapses rfl action.request
    (gateRun rt cfg requests store actions).1.world action.now hmisses
  have hcount := hafter.challenges
  rw [gateRun_concat, hsame, hagree.challenges, List.countP_append, List.countP_singleton,
    hchallenge, if_pos rfl, UInt64.ofNat_add] at hcount
  have hzero : (0 : UInt64) = 1 :=
    (UInt64.add_right_inj _).mp ((UInt64.add_zero _).trans hcount)
  contradiction

/-- The counters agree all along a run exactly when the expiration guard
rejects none of its payments. -/
theorem metrics_agree_iff (actions : List GateAction) :
    (∀ before after, actions = before ++ after →
      MetricsAgree rt.codec cfg.withMetrics
        (gateRun rt cfg requests store before).1.world.metrics
        (gateRun rt cfg requests store before).2) ↔
    ∀ before action after, actions = before ++ action :: after →
      ¬ Misses rt cfg requests store before action := by
  constructor
  · rintro hagree before action after rfl hmisses
    apply hmisses.not_agree (hagree before (action :: after) rfl)
    exact hagree (before ++ [action]) after (by simp)
  · rintro hcounted before after rfl
    induction before using List.reverseRecOn generalizing after with
    | nil => exact metricsAgree_nil rt.codec
    | append_singleton before action ih =>
        have hbefore := ih (action :: after) (by simpa using hcounted)
        exact hbefore.step (hcounted before action after (by simp))

end Run

namespace MetricsWitness

open ExpirationWitness

def rt : Runtime := runtime (.string "0") (.string "1")

def requests : ℕ → Request := fun _ => request (.string "0") (.string "1")

/-- The window closed at second 1, and the request is polled at second 100. -/
def poll : GateAction := ⟨0, 0, .poll (some 100) 0⟩

theorem poll_misses : Misses rt guarded requests .empty [] poll := by
  have hmatches := request_matches (.string "0") (.string "1")
  refine ⟨rfl, some 100, 0, rfl, payment (.string "0") (.string "1"), WireWitness.required,
    .expired 1 100, ⟨hmatches.decoded, hmatches.required, hmatches.accepted⟩, .default,
    .ofJson (authorization (.string "0") (.string "1")), 0, 1, rfl, ?_, ?_, ?_, ?_⟩ <;>
    decide +kernel

/-- An expired payment is answered with a challenge that is not counted. -/
theorem refused_not_counted :
    ¬ ∀ before after, [poll] = before ++ after →
      MetricsAgree rt.codec guarded.withMetrics
        (gateRun rt guarded requests .empty before).1.world.metrics
        (gateRun rt guarded requests .empty before).2 :=
  fun hagree => poll_misses.not_agree (hagree [] [poll] rfl) (hagree [poll] [] rfl)

end MetricsWitness

end KiteX402
