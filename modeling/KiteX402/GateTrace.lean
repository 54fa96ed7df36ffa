/-
What one request does, in which order: no handler before a verified payment, no
charge before a handler that succeeded, and no paid response without a charge.
-/
import KiteX402.Middleware

namespace KiteX402

section Trace

variable (rt : Runtime) (cfg : PaymentConfig) (req : Request)

/-- The payment was read from the request's header, and accepts exactly what
the gate requires. -/
structure Matches (payload : PaymentPayload) (requirements : PaymentRequirements) :
    Prop where
  decoded : req.paymentHeader.bind rt.codec.decodePaymentPayload = some payload
  required : cfg.requirements rt.debug = some (.ok requirements)
  accepted : payload.accepted = requirements

/-- How a trace starts that gets as far as `/verify`, and which reservation the
request then holds. -/
def Opens (attempt : PaymentAttempt) (retain : Bool) (opening : List GateEvent) :
    Prop :=
  match cfg.nonceGuard with
  | none => attempt.reservation = none ∧ opening = []
  | some _ => ∃ generation reservedAt,
      attempt.reservation =
        some ⟨authorizationKey rt.codec attempt.payload, generation, retain⟩ ∧
      opening = [.guard (.reserved (authorizationKey rt.codec attempt.payload)
        reservedAt generation)]

/-- What a trace reports of the end of a reservation. -/
def closing (reservation : Option PaymentNonceReservation) (retain : Bool)
    (now : Instant) : List GateEvent :=
  match reservation with
  | some handle => [.guard (.dropped { handle with retain := retain } now)]
  | none => []

/-- The events up to the call of `/verify`, of the handler, of `/settle`. -/
def verifyTrace (attempt : PaymentAttempt) (opening : List GateEvent) :
    List GateEvent :=
  opening ++ [.verifyCalled attempt.payload attempt.requirements]

def handlerTrace (attempt : PaymentAttempt) (opening : List GateEvent)
    (verify : VerifyResponse) : List GateEvent :=
  verifyTrace attempt opening ++ [.verifyReturned (.ok verify), .handlerEntered]

def settleTrace (attempt : PaymentAttempt) (opening : List GateEvent)
    (verify : VerifyResponse) (response : Response) : List GateEvent :=
  handlerTrace attempt opening verify ++
    [.handlerReturned response,
      .settleCalled attempt.payload attempt.requirements]

/-- The receipt that the answer of `/settle` comes to. -/
def settleReceipt : Except String SettleResponse → SettleResponse
  | .ok settle => settle
  | .error error => settleUnavailable cfg error

/-- The reply after `/settle` has answered. -/
def settleReply (response : Response) (result : Except String SettleResponse) :
    Response :=
  let settle := settleReceipt cfg result
  if settle.success then settledResponse rt.codec response settle
  else settlementFailureResponse rt.codec settle

/-- The traces that end before `/verify` is called. -/
def EndsUnverified : List GateEvent → Prop
  | [.replied _] | [.cancelled] | [.panicked] => True
  | [.guard (.refused _ _ _), .replied _] => True
  | _ => False

/-- Every trace of a request, by the phase it has reached. -/
inductive GateHistory : GatePhase → List GateEvent → Prop where
  | arrived : GateHistory .arrived []
  | unverified (events) (hends : EndsUnverified events) :
      GateHistory .ended events
  | verifying (attempt opening)
      (hmatch : Matches rt cfg req attempt.payload attempt.requirements)
      (hopens : Opens rt cfg attempt false opening) :
      GateHistory (.verifying attempt) (verifyTrace attempt opening)
  | verifyCancelled (attempt opening now)
      (hmatch : Matches rt cfg req attempt.payload attempt.requirements)
      (hopens : Opens rt cfg attempt false opening) :
      GateHistory .ended (verifyTrace attempt opening ++
        (closing attempt.reservation false now ++ [.cancelled]))
  | rejected (attempt opening now result reply)
      (hmatch : Matches rt cfg req attempt.payload attempt.requirements)
      (hopens : Opens rt cfg attempt false opening)
      (hresult : ∀ verify, result = .ok verify → verify.isValid = false) :
      GateHistory .ended (verifyTrace attempt opening ++ (.verifyReturned result ::
        (closing attempt.reservation false now ++ [.replied reply])))
  | handling (attempt opening verify)
      (hmatch : Matches rt cfg req attempt.payload attempt.requirements)
      (hopens : Opens rt cfg attempt true opening)
      (hvalid : verify.isValid = true) :
      GateHistory (.handling attempt) (handlerTrace attempt opening verify)
  | handlerCancelled (attempt opening now verify)
      (hmatch : Matches rt cfg req attempt.payload attempt.requirements)
      (hopens : Opens rt cfg attempt true opening)
      (hvalid : verify.isValid = true) :
      GateHistory .ended (handlerTrace attempt opening verify ++
        (closing attempt.reservation true now ++ [.cancelled]))
  | failed (attempt opening now verify response)
      (hmatch : Matches rt cfg req attempt.payload attempt.requirements)
      (hopens : Opens rt cfg attempt true opening)
      (hvalid : verify.isValid = true) (hstatus : 400 ≤ response.status) :
      GateHistory .ended (handlerTrace attempt opening verify ++
        (.handlerReturned response ::
          (closing attempt.reservation false now ++ [.replied response])))
  | settling (attempt opening verify response)
      (hmatch : Matches rt cfg req attempt.payload attempt.requirements)
      (hopens : Opens rt cfg attempt true opening)
      (hvalid : verify.isValid = true) (hstatus : response.status < 400) :
      GateHistory (.settling attempt response)
        (settleTrace attempt opening verify response)
  | settleCancelled (attempt opening now verify response)
      (hmatch : Matches rt cfg req attempt.payload attempt.requirements)
      (hopens : Opens rt cfg attempt true opening)
      (hvalid : verify.isValid = true) (hstatus : response.status < 400) :
      GateHistory .ended (settleTrace attempt opening verify response ++
        (closing attempt.reservation true now ++ [.cancelled]))
  | settled (attempt opening now verify response result)
      (hmatch : Matches rt cfg req attempt.payload attempt.requirements)
      (hopens : Opens rt cfg attempt true opening)
      (hvalid : verify.isValid = true) (hstatus : response.status < 400) :
      GateHistory .ended (settleTrace attempt opening verify response ++
        (.settleReturned result :: (closing attempt.reservation true now ++
          [.replied (settleReply rt cfg response result)])))

variable {rt cfg req}

theorem Opens.retainOnDrop {attempt : PaymentAttempt} {opening : List GateEvent}
    (hopens : Opens rt cfg attempt false opening) :
    Opens rt cfg
      { attempt with reservation := attempt.reservation.map .retainOnDrop }
      true opening := by
  unfold Opens at hopens ⊢
  split at hopens
  next => exact ⟨by rw [hopens.1]; rfl, hopens.2⟩
  next =>
    obtain ⟨generation, reservedAt, hreservation, hopening⟩ := hopens
    exact ⟨generation, reservedAt, by rw [hreservation]; rfl, hopening⟩

theorem Opens.map_retain {attempt : PaymentAttempt} {retain : Bool}
    {opening : List GateEvent} (hopens : Opens rt cfg attempt retain opening) :
    (attempt.reservation.map fun handle => { handle with retain := retain }) =
      attempt.reservation := by
  unfold Opens at hopens
  split at hopens
  next =>
    rw [hopens.1]
    rfl
  next =>
    obtain ⟨generation, reservedAt, hreservation, _⟩ := hopens
    rw [hreservation]
    rfl

theorem finish_phase (world : GateWorld)
    (reservation : Option PaymentNonceReservation) (now : Instant)
    (last : GateEvent) : (finish rt cfg world reservation now last).1.2 = .ended := by
  unfold finish
  split <;> rfl

/-- The end of a request reports the end of its reservation first. -/
theorem finish_events {attempt : PaymentAttempt} {retain : Bool}
    {opening : List GateEvent} (hopens : Opens rt cfg attempt retain opening)
    (flag : Bool) (world : GateWorld) (now : Instant) (last : GateEvent) :
    (finish rt cfg world
      (attempt.reservation.map fun handle => { handle with retain := flag })
      now last).2 = closing attempt.reservation flag now ++ [last] := by
  unfold Opens at hopens
  split at hopens
  next hguard =>
    rw [hopens.1]
    simp [finish, closing]
  next guard hguard =>
    obtain ⟨generation, reservedAt, hreservation, _⟩ := hopens
    rw [hreservation]
    simp [finish, closing, hguard]

theorem finish_events_self {attempt : PaymentAttempt} {retain : Bool}
    {opening : List GateEvent} (hopens : Opens rt cfg attempt retain opening)
    (world : GateWorld) (now : Instant) (last : GateEvent) :
    (finish rt cfg world attempt.reservation now last).2 =
      closing attempt.reservation retain now ++ [last] := by
  have hevents := finish_events hopens retain world now last
  rwa [hopens.map_retain] at hevents

/-- A request passes the screening with a payment that matches. -/
theorem matches_of_screenRequest {wallClock : Option UInt64}
    {payload : PaymentPayload} {requirements : PaymentRequirements}
    (h : screenRequest rt cfg req wallClock = .passed payload requirements) :
    Matches rt cfg req payload requirements := by
  unfold screenRequest at h
  split at h
  · contradiction
  · contradiction
  next hrequired =>
    dsimp only at h
    split at h
    · contradiction
    next hheader =>
      split at h
      · contradiction
      next hdecoded =>
        split at h
        · contradiction
        next haccepted =>
          split at h
          · contradiction
          · obtain ⟨rfl, rfl⟩ := Screening.passed.inj h
            refine ⟨?_, hrequired, not_not.mp haccepted⟩
            rw [hheader]
            exact hdecoded

theorem GateHistory.arrive (world : GateWorld) (wallClock : Option UInt64)
    (reserveAt : Instant) :
    GateHistory rt cfg req
      (KiteX402.arrive rt cfg req world wallClock reserveAt).1.2
      (KiteX402.arrive rt cfg req world wallClock reserveAt).2 := by
  unfold KiteX402.arrive
  dsimp only
  split
  · exact .unverified _ trivial
  · exact .unverified _ trivial
  next payload requirements hpassed =>
    have hmatch := matches_of_screenRequest hpassed
    split
    next hguard =>
      have hopens : Opens rt cfg ⟨payload, requirements, none⟩ false [] := by
        simp [Opens, hguard]
      exact .verifying ⟨payload, requirements, none⟩ [] hmatch hopens
    next guard hguard =>
      rcases guard.reserve_cases rt.codec (world.record cfg .recordRequest).store
        payload reserveAt with ⟨_, heq⟩ | ⟨_, _, heq⟩ | ⟨_, _, heq⟩ <;> rw [heq]
      · exact .unverified _ trivial
      · exact .unverified _ trivial
      · apply GateHistory.verifying ⟨payload, requirements, some _⟩ [_] hmatch
        simp [Opens, hguard]

theorem GateHistory.afterVerify {attempt : PaymentAttempt}
    {opening : List GateEvent}
    (hmatch : Matches rt cfg req attempt.payload attempt.requirements)
    (hopens : Opens rt cfg attempt false opening) (world : GateWorld)
    (now : Instant) (result : Except String VerifyResponse) :
    GateHistory rt cfg req
      (KiteX402.afterVerify rt cfg req world attempt now result).1.2
      (verifyTrace attempt opening ++
        (KiteX402.afterVerify rt cfg req world attempt now result).2) := by
  cases result with
  | error error =>
      simp only [KiteX402.afterVerify, finish_phase, finish_events_self hopens]
      apply GateHistory.rejected attempt opening now _ _ hmatch hopens
      simp
  | ok verify =>
      by_cases hvalid : verify.isValid = true
      · simp only [KiteX402.afterVerify, hvalid, if_true]
        exact .handling _ opening verify hmatch hopens.retainOnDrop hvalid
      · simp only [KiteX402.afterVerify, hvalid, if_false, finish_phase,
          finish_events_self hopens, Bool.false_eq_true]
        apply GateHistory.rejected attempt opening now _ _ hmatch hopens
        simpa using hvalid

theorem GateHistory.afterHandler {attempt : PaymentAttempt}
    {opening : List GateEvent} {verify : VerifyResponse}
    (hmatch : Matches rt cfg req attempt.payload attempt.requirements)
    (hopens : Opens rt cfg attempt true opening) (hvalid : verify.isValid = true)
    (world : GateWorld) (now : Instant) (response : Response) :
    GateHistory rt cfg req
      (KiteX402.afterHandler rt cfg world attempt now response).1.2
      (handlerTrace attempt opening verify ++
        (KiteX402.afterHandler rt cfg world attempt now response).2) := by
  by_cases hstatus : 400 ≤ response.status
  · simp only [KiteX402.afterHandler, if_pos hstatus, finish_phase,
      finish_events hopens]
    exact .failed attempt opening now verify response hmatch hopens hvalid hstatus
  · simp only [KiteX402.afterHandler, if_neg hstatus]
    exact .settling attempt opening verify response hmatch hopens hvalid
      (not_le.mp hstatus)

theorem GateHistory.afterSettle {attempt : PaymentAttempt}
    {opening : List GateEvent} {verify : VerifyResponse} {response : Response}
    (hmatch : Matches rt cfg req attempt.payload attempt.requirements)
    (hopens : Opens rt cfg attempt true opening) (hvalid : verify.isValid = true)
    (hstatus : response.status < 400) (world : GateWorld) (now : Instant)
    (result : Except String SettleResponse) (elapsed : Duration) :
    GateHistory rt cfg req
      (KiteX402.afterSettle rt cfg world attempt response now result elapsed).1.2
      (settleTrace attempt opening verify response ++
        (KiteX402.afterSettle rt cfg world attempt response now result elapsed).2) := by
  cases result <;>
    simp only [KiteX402.afterSettle, finish_phase, finish_events_self hopens] <;>
    exact .settled attempt opening now verify response _ hmatch hopens hvalid hstatus

/-- A step extends the trace as the phases allow, whatever the shared state. -/
theorem GateHistory.step {phase : GatePhase} {events : List GateEvent}
    (hhist : GateHistory rt cfg req phase events) (world : GateWorld)
    (now : Instant) (input : GateInput) :
    GateHistory rt cfg req (gateStep rt cfg req world phase now input).1.2
      (events ++ (gateStep rt cfg req world phase now input).2) := by
  have hstay : GateHistory rt cfg req phase (events ++ []) := by
    rwa [List.append_nil]
  cases hhist with
  | arrived =>
      cases input with
      | poll wallClock reserveAt => exact .arrive world wallClock reserveAt
      | cancel => exact .unverified _ trivial
      | _ => exact hstay
  | verifying attempt opening hmatch hopens =>
      cases input with
      | verified result => exact .afterVerify hmatch hopens world now result
      | cancel =>
          simp only [gateStep, finish_phase, finish_events_self hopens]
          exact .verifyCancelled attempt opening now hmatch hopens
      | _ => exact hstay
  | handling attempt opening verify hmatch hopens hvalid =>
      cases input with
      | handled response =>
          exact .afterHandler hmatch hopens hvalid world now response
      | cancel =>
          simp only [gateStep, finish_phase, finish_events_self hopens]
          exact .handlerCancelled attempt opening now verify hmatch hopens hvalid
      | _ => exact hstay
  | settling attempt opening verify response hmatch hopens hvalid hstatus =>
      cases input with
      | settled result elapsed =>
          exact .afterSettle hmatch hopens hvalid hstatus world now result elapsed
      | cancel =>
          simp only [gateStep, finish_phase, finish_events_self hopens]
          exact .settleCancelled attempt opening now verify response hmatch hopens
            hvalid hstatus
      | _ => exact hstay
  | _ => cases input <;> exact hstay

end Trace

def GateEvent.isHandlerEntered : GateEvent → Bool
  | .handlerEntered => true
  | _ => false

def GateEvent.isSettleCalled : GateEvent → Bool
  | .settleCalled _ _ => true
  | _ => false

/-- The events that report what has happened, and need nothing before them. -/
def GateEvent.isReport : GateEvent → Bool
  | .verifyCalled _ _ | .handlerEntered | .settleCalled _ _ | .replied _ => false
  | _ => true

section Safety

variable (rt : Runtime) (cfg : PaymentConfig) (req : Request)

/-- How a reply may come about once the handler has returned `response`: the
response itself where it failed, the response with a receipt where it was paid
for, and otherwise a reply that the response has no part in. -/
inductive ReplyAfter (before : List GateEvent) (response : Response) :
    Response → Prop where
  | failed (hstatus : 400 ≤ response.status) : ReplyAfter before response response
  | paid (settle) (hstatus : response.status < 400)
      (hsettled : .settleReturned (.ok settle) ∈ before)
      (hsuccess : settle.success = true) :
      ReplyAfter before response (settledResponse rt.codec response settle)
  | unpaid (result) (hstatus : response.status < 400)
      (hsettled : .settleReturned result ∈ before)
      (hfailure : (settleReceipt cfg result).success = false) :
      ReplyAfter before response
        (settlementFailureResponse rt.codec (settleReceipt cfg result))

/-- What must have come before an event. -/
def GateJustified (before : List GateEvent) : GateEvent → Prop
  | .verifyCalled payload requirements =>
      Matches rt cfg req payload requirements
  | .handlerEntered => ∃ payload requirements verify,
      Matches rt cfg req payload requirements ∧ verify.isValid = true ∧
      [.verifyCalled payload requirements,
        .verifyReturned (.ok verify)].Sublist before
  | .settleCalled payload requirements => ∃ response,
      response.status < 400 ∧
      [.verifyCalled payload requirements,
        .handlerReturned response].Sublist before
  | .replied reply => ∀ response, .handlerReturned response ∈ before →
      ReplyAfter rt cfg before response reply
  | _ => True

/-- The promises of the gate about one request. -/
structure GateSafe (events : List GateEvent) : Prop where
  handler_once : events.countP GateEvent.isHandlerEntered ≤ 1
  settle_once : events.countP GateEvent.isSettleCalled ≤ 1
  justified : Justified (GateJustified rt cfg req) events

/-- `GateJustified`, and neither handler nor charge for the second time. -/
structure GateOrdered (before : List GateEvent) (event : GateEvent) : Prop where
  justified : GateJustified rt cfg req before event
  handler_first : event.isHandlerEntered = true →
    before.countP GateEvent.isHandlerEntered = 0
  settle_first : event.isSettleCalled = true →
    before.countP GateEvent.isSettleCalled = 0

variable {rt cfg req}

theorem GateOrdered.report (before : List GateEvent) {event : GateEvent}
    (hreport : event.isReport = true) : GateOrdered rt cfg req before event := by
  cases event <;> first
    | contradiction
    | exact ⟨trivial, nofun, nofun⟩

/-- Only the guard has a part in the opening of a trace. -/
theorem Opens.of_mem {attempt : PaymentAttempt} {retain : Bool}
    {opening : List GateEvent} (hopens : Opens rt cfg attempt retain opening)
    {event : GateEvent} (hevent : event ∈ opening) :
    ∃ key reservedAt generation,
      event = .guard (.reserved key reservedAt generation) := by
  unfold Opens at hopens
  split at hopens
  next => simp [hopens.2] at hevent
  next =>
    obtain ⟨generation, reservedAt, _, rfl⟩ := hopens
    exact ⟨_, reservedAt, generation, List.mem_singleton.mp hevent⟩

theorem mem_closing {reservation : Option PaymentNonceReservation} {flag : Bool}
    {now : Instant} {event : GateEvent}
    (hevent : event ∈ closing reservation flag now) :
    ∃ handle, reservation = some handle ∧
      event = .guard (.dropped { handle with retain := flag } now) := by
  cases reservation with
  | none => simp [closing] at hevent
  | some handle => exact ⟨handle, rfl, List.mem_singleton.mp hevent⟩

theorem replyAfter_settleReply {before : List GateEvent} {response : Response}
    {result : Except String SettleResponse} (hstatus : response.status < 400)
    (hsettled : .settleReturned result ∈ before) :
    ReplyAfter rt cfg before response (settleReply rt cfg response result) := by
  by_cases hsuccess : (settleReceipt cfg result).success = true
  · rw [settleReply, if_pos hsuccess]
    cases result with
    | ok settle => exact .paid settle hstatus hsettled hsuccess
    | error error => simp [settleReceipt, settleUnavailable] at hsuccess
  · rw [settleReply, if_neg hsuccess]
    exact .unpaid result hstatus hsettled (by simpa using hsuccess)

section Traces

variable {attempt : PaymentAttempt} {retain : Bool} {opening : List GateEvent}
  {verify : VerifyResponse} {response : Response}

theorem countP_opening (hopens : Opens rt cfg attempt retain opening)
    {p : GateEvent → Bool} (hp : ∀ event, p (.guard event) = false) :
    opening.countP p = 0 := by
  rw [List.countP_eq_zero]
  intro event hevent
  obtain ⟨key, reservedAt, generation, rfl⟩ := hopens.of_mem hevent
  simp [hp]

theorem ordered_verifyTrace
    (hmatch : Matches rt cfg req attempt.payload attempt.requirements)
    (hopens : Opens rt cfg attempt retain opening) :
    Justified (GateOrdered rt cfg req) (verifyTrace attempt opening) := by
  have hopening : Justified (GateOrdered rt cfg req) opening := by
    apply justified_of_forall
    intro event hevent before
    obtain ⟨key, reservedAt, generation, rfl⟩ := hopens.of_mem hevent
    exact .report before rfl
  exact hopening.concat ⟨hmatch, nofun, nofun⟩

theorem ordered_handlerTrace
    (hmatch : Matches rt cfg req attempt.payload attempt.requirements)
    (hopens : Opens rt cfg attempt retain opening)
    (hvalid : verify.isValid = true) :
    Justified (GateOrdered rt cfg req) (handlerTrace attempt opening verify) := by
  have hverify := (ordered_verifyTrace hmatch hopens).concat
    (.report _ (rfl : (GateEvent.verifyReturned (.ok verify)).isReport = true))
  rw [handlerTrace, List.append_cons]
  apply hverify.concat
  refine ⟨⟨_, _, verify, hmatch, hvalid, ?_⟩, fun _ => ?_, nofun⟩
  · rw [verifyTrace, List.append_assoc]
    exact List.sublist_append_right _ _
  · have hopening : opening.countP GateEvent.isHandlerEntered = 0 :=
      countP_opening hopens fun _ => rfl
    simp only [verifyTrace, List.countP_append, hopening]
    rfl

theorem ordered_settleTrace
    (hmatch : Matches rt cfg req attempt.payload attempt.requirements)
    (hopens : Opens rt cfg attempt retain opening)
    (hvalid : verify.isValid = true) (hstatus : response.status < 400) :
    Justified (GateOrdered rt cfg req)
      (settleTrace attempt opening verify response) := by
  have hhandler := (ordered_handlerTrace hmatch hopens hvalid).concat
    (.report _ (rfl : (GateEvent.handlerReturned response).isReport = true))
  rw [settleTrace, List.append_cons]
  apply hhandler.concat
  refine ⟨⟨response, hstatus, ?_⟩, nofun, fun _ => ?_⟩
  · simp only [handlerTrace, verifyTrace, List.append_assoc]
    refine List.Sublist.trans ?_ (List.sublist_append_right opening _)
    exact (((List.Sublist.refl _).cons _).cons _).cons_cons _
  · have hopening : opening.countP GateEvent.isSettleCalled = 0 :=
      countP_opening hopens fun _ => rfl
    simp only [handlerTrace, verifyTrace, List.countP_append, hopening]
    rfl

/-- A trace is still in order after the end of the reservation and a last
event that is neither the handler's nor a charge. -/
theorem ordered_ending {events : List GateEvent}
    (hevents : Justified (GateOrdered rt cfg req) events)
    {reservation : Option PaymentNonceReservation} {flag : Bool} {now : Instant}
    {last : GateEvent} (hhandler : last.isHandlerEntered = false)
    (hsettle : last.isSettleCalled = false)
    (hlast : GateJustified rt cfg req
      (events ++ closing reservation flag now) last) :
    Justified (GateOrdered rt cfg req)
      (events ++ (closing reservation flag now ++ [last])) := by
  rw [← List.append_assoc]
  apply Justified.concat
  · rw [justified_append]
    refine ⟨hevents, justified_of_forall fun event hevent before => ?_⟩
    obtain ⟨handle, _, rfl⟩ := mem_closing hevent
    exact .report _ rfl
  · exact ⟨hlast, by simp [hhandler], by simp [hsettle]⟩

theorem handlerReturned_notMem_verifyTrace
    (hopens : Opens rt cfg attempt retain opening) (returned : Response) :
    .handlerReturned returned ∉ verifyTrace attempt opening := by
  intro hmem
  rcases List.mem_append.mp hmem with hmem | hmem
  · obtain ⟨_, _, _, heq⟩ := hopens.of_mem hmem
    contradiction
  · simp at hmem

/-- The handler of a trace returns once. -/
theorem eq_of_handlerReturned_mem (hopens : Opens rt cfg attempt retain opening)
    {returned : Response} {tail : List GateEvent}
    (hmem : .handlerReturned returned ∈
      handlerTrace attempt opening verify ++ .handlerReturned response :: tail)
    (htail : .handlerReturned returned ∉ tail) : returned = response := by
  rw [handlerTrace, List.append_assoc, List.mem_append] at hmem
  rcases hmem with hmem | hmem
  · exact absurd hmem (handlerReturned_notMem_verifyTrace hopens returned)
  · simpa [htail] using hmem

theorem handlerReturned_notMem_closing
    {reservation : Option PaymentNonceReservation} {flag : Bool} {now : Instant}
    (returned : Response) :
    .handlerReturned returned ∉ closing reservation flag now := by
  intro hmem
  obtain ⟨_, _, heq⟩ := mem_closing hmem
  contradiction

end Traces

theorem GateHistory.ordered {phase : GatePhase} {events : List GateEvent}
    (hhist : GateHistory rt cfg req phase events) :
    Justified (GateOrdered rt cfg req) events := by
  cases hhist with
  | arrived => exact justified_nil _
  | unverified events hends =>
      unfold EndsUnverified at hends
      split at hends
      · exact (justified_nil _).concat ⟨nofun, nofun, nofun⟩
      · exact (justified_nil _).concat (.report _ rfl)
      · exact (justified_nil _).concat (.report _ rfl)
      · refine ((justified_nil _).concat (.report _ rfl)).concat ⟨?_, nofun, nofun⟩
        intro response hmem
        simp at hmem
      · contradiction
  | verifying attempt opening hmatch hopens =>
      exact ordered_verifyTrace hmatch hopens
  | verifyCancelled attempt opening now hmatch hopens =>
      exact ordered_ending (ordered_verifyTrace hmatch hopens) rfl rfl trivial
  | rejected attempt opening now result reply hmatch hopens =>
      have hverify := (ordered_verifyTrace hmatch hopens).concat
        (.report _ (rfl : (GateEvent.verifyReturned result).isReport = true))
      rw [List.append_cons]
      apply ordered_ending hverify rfl rfl
      intro returned hmem
      simp [handlerReturned_notMem_verifyTrace hopens,
        handlerReturned_notMem_closing] at hmem
  | handling attempt opening verify hmatch hopens hvalid =>
      exact ordered_handlerTrace hmatch hopens hvalid
  | handlerCancelled attempt opening now verify hmatch hopens hvalid =>
      exact ordered_ending (ordered_handlerTrace hmatch hopens hvalid) rfl rfl trivial
  | failed attempt opening now verify response hmatch hopens hvalid hstatus =>
      have hhandler := (ordered_handlerTrace hmatch hopens hvalid).concat
        (.report _ (rfl : (GateEvent.handlerReturned response).isReport = true))
      rw [List.append_cons]
      apply ordered_ending hhandler rfl rfl
      intro returned hmem
      rw [← List.append_cons] at hmem
      rw [eq_of_handlerReturned_mem hopens hmem
        (handlerReturned_notMem_closing returned)]
      exact .failed hstatus
  | settling attempt opening verify response hmatch hopens hvalid hstatus =>
      exact ordered_settleTrace hmatch hopens hvalid hstatus
  | settleCancelled attempt opening now verify response hmatch hopens hvalid hstatus =>
      exact ordered_ending (ordered_settleTrace hmatch hopens hvalid hstatus) rfl rfl
        trivial
  | settled attempt opening now verify response result hmatch hopens hvalid hstatus =>
      have hsettle := (ordered_settleTrace hmatch hopens hvalid hstatus).concat
        (.report _ (rfl : (GateEvent.settleReturned result).isReport = true))
      rw [List.append_cons]
      apply ordered_ending hsettle rfl rfl
      intro returned hmem
      have hreturned : returned = response := by
        simp only [settleTrace, List.append_assoc, List.cons_append,
          List.nil_append] at hmem
        apply eq_of_handlerReturned_mem hopens hmem
        simp [handlerReturned_notMem_closing]
      rw [hreturned]
      exact replyAfter_settleReply hstatus (by simp)

/-- Every trace of a request keeps the promises of the gate. -/
theorem GateHistory.safe {phase : GatePhase} {events : List GateEvent}
    (hhist : GateHistory rt cfg req phase events) : GateSafe rt cfg req events where
  handler_once := (hhist.ordered.mono fun _ _ h => h.handler_first).countP_le_one
  settle_once := (hhist.ordered.mono fun _ _ h => h.settle_first).countP_le_one
  justified := hhist.ordered.mono fun _ _ h => h.justified

variable (rt cfg req)

/-- One request among whatever others do: each of its steps finds the shared
state, the time and the input it is given. -/
def requestMachine : Machine GatePhase (GateWorld × Instant × GateInput) GateEvent :=
  ⟨fun phase action =>
    let next := gateStep rt cfg req action.1 phase action.2.1 action.2.2
    (next.1.2, next.2)⟩

theorem requestMachine_run_history (actions : List (GateWorld × Instant × GateInput)) :
    GateHistory rt cfg req
      ((requestMachine rt cfg req).run .arrived actions).1
      ((requestMachine rt cfg req).run .arrived actions).2 :=
  (requestMachine rt cfg req).run_induction (P := GateHistory rt cfg req) .arrived
    (fun _ _ action hhist => hhist.step action.1 action.2.1 action.2.2) actions

/-- Whatever the facilitator and the handler answer, and wherever the request
is dropped: the handler runs at most once and only for a verified payment, the
payment is settled at most once and only for a handler that succeeded, and the
handler's response is replied only if it failed or was paid for. -/
theorem requestMachine_safe (actions : List (GateWorld × Instant × GateInput)) :
    GateSafe rt cfg req ((requestMachine rt cfg req).run .arrived actions).2 :=
  (requestMachine_run_history rt cfg req actions).safe

end Safety

end KiteX402
