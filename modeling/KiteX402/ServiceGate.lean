/-
What the layers around the payment gate leave of it: the gate's part of a run of
the service is a run of the gate, and a reply under `/v1` that is no error was
paid for.
-/
import KiteX402.GateReplies
import KiteX402.GateSystemReplay
import KiteX402.ServiceReplies

namespace KiteX402

/-- The gate reads nothing of a request but its resource and its payment. -/
theorem gateStep_congr {rt : Runtime} {cfg : PaymentConfig} {req req' : Request}
    (hurl : req'.resourceUrl = req.resourceUrl)
    (hpayment : req'.paymentHeader = req.paymentHeader) (world : GateWorld) (phase : GatePhase)
    (now : Instant) (input : GateInput) :
    gateStep rt cfg req' world phase now input = gateStep rt cfg req world phase now input := by
  have hscreen : ∀ wallClock,
      screenRequest rt cfg req' wallClock = screenRequest rt cfg req wallClock := by
    intro wallClock
    simp only [screenRequest, hurl, hpayment]
  have harrive : ∀ wallClock reserveAt,
      arrive rt cfg req' world wallClock reserveAt =
        arrive rt cfg req world wallClock reserveAt := by
    intro wallClock reserveAt
    simp only [arrive, hscreen, hurl]
  have hverify : ∀ attempt result, afterVerify rt cfg req' world attempt now result =
      afterVerify rt cfg req world attempt now result := by
    intro attempt result
    simp only [afterVerify, hurl]
  simp only [gateStep, harrive, hverify]

namespace Wrapper

variable {cfg : Config} {arrivals : ℕ → Arrival}

/-- The id that the logger sets makes no difference to the gate. -/
theorem gateStep_tagged (rt : Runtime) (payment : PaymentConfig) (arrival : Arrival)
    (id : String) (world : GateWorld) (phase : GatePhase) (now : Instant) (input : GateInput) :
    gateStep rt payment (arrival.tagged id) world phase now input =
      gateStep rt payment arrival.request world phase now input := by
  apply gateStep_congr
  · rfl
  · have hheader : ∀ name, name ≠ "x-request-id" →
        (arrival.tagged id).headers.get name = arrival.request.headers.get name :=
      fun name hne => get_tagRequest_of_ne hne id arrival.request.headers
    rw [Request.paymentHeader, Request.paymentHeader, hheader _ (by decide),
      hheader _ (by decide)]

section Projection

def Event.gateEvent : Event → Option GateEvent
  | .gate event => some event
  | _ => none

/-- The gate's part of what happened. -/
def gateRecords (records : List Record) : List SystemEvent :=
  records.filterMap fun record =>
    record.event.gateEvent.map fun event => ⟨record.request, record.time, event⟩

theorem gateRecords_append_stamp (records : List Record) (i : ℕ) (now : Instant)
    (events : List Event) :
    gateRecords (records ++ stamp i now events) =
      gateRecords records ++
        (events.filterMap Event.gateEvent).map fun event => ⟨i, now, event⟩ := by
  rw [gateRecords, List.filterMap_append, stamp, List.filterMap_map, List.map_filterMap]
  rfl

theorem traceOf_append_stamp_self (records : List Record) (i : ℕ) (now : Instant)
    (events : List Event) :
    traceOf i (gateRecords (records ++ stamp i now events)) =
      traceOf i (gateRecords records) ++ events.filterMap Event.gateEvent := by
  rw [gateRecords_append_stamp, traceOf_append, traceOf_stamp_self]

theorem traceOf_append_stamp_of_ne {i j : ℕ} (hne : i ≠ j) (records : List Record)
    (now : Instant) (events : List Event) :
    traceOf j (gateRecords (records ++ stamp i now events)) = traceOf j (gateRecords records) := by
  rw [gateRecords_append_stamp, traceOf_append, traceOf_stamp_of_ne hne, List.append_nil]

theorem filterMap_gateEvent_map (events : List GateEvent) :
    (events.map Event.gate).filterMap Event.gateEvent = events := by
  rw [List.filterMap_map]
  exact List.filterMap_some

theorem filterMap_gateEvent_limiter (calls : List LimiterEvent) :
    (calls.map Event.limiter).filterMap Event.gateEvent = [] := by
  rw [List.filterMap_map, List.filterMap_eq_nil_iff]
  exact fun call _ => rfl

/-- Where a request stands in the gate; past it the request holds nothing there. -/
def Phase.AtGate : Phase → GatePhase → Prop
  | .arrived, own | .entered _, own | .seated _, own => own = .arrived
  | .gated _ _ phase, own => own = phase
  | _, own => own.reservation = none

variable {arrival : Arrival} {world world' : World} {now reading : Instant}
  {phase phase' : Phase} {events : List Event}

/-- A move that the gate does not see. -/
structure Unseen (world : World) (phase : Phase) (world' : World) (phase' : Phase)
    (events : List Event) : Prop where
  events : events.filterMap Event.gateEvent = []
  gate : world'.gate = world.gate
  place : ∀ own, phase.AtGate own → phase'.AtGate own

/-- A move that is a step of the gate on the request as it arrived. -/
structure GateMoves (cfg : Config) (arrival : Arrival) (world : World) (now reading : Instant)
    (own : GatePhase) (world' : World) (phase' : Phase) (events : List Event)
    (input : GateInput) (next : GatePhase) : Prop where
  step : gateStep cfg.rt cfg.payment arrival.request world.gate own now
    (input.readAt reading) = ((world'.gate, next), events.filterMap Event.gateEvent)
  place : phase'.AtGate next

theorem Moves.gate_cases
    (hmoves : Moves cfg arrival world now reading phase world' phase' events) :
    Unseen world phase world' phase' events ∨
      ∃ id remaining own input next, phase = .gated id remaining own ∧
        GateMoves cfg arrival world now reading own world' phase' events input next := by
  cases hmoves with
  | gated id remaining phase input gate next events hstep hphase =>
      rw [gateStep_tagged] at hstep
      exact Or.inr ⟨id, remaining, phase, input, next, rfl,
        by rw [hstep, filterMap_gateEvent_map], rfl⟩
  | through id remaining phase input gate events hstep =>
      rw [gateStep_tagged] at hstep
      exact Or.inr ⟨id, remaining, phase, input, .ended, rfl,
        by rw [hstep, filterMap_gateEvent_map], rfl⟩
  | admitted id layer remaining buckets calls =>
      exact Or.inl ⟨filterMap_gateEvent_limiter calls, rfl, fun own hown => hown⟩
  | refused id layer response buckets calls =>
      exact Or.inl ⟨filterMap_gateEvent_limiter calls, rfl,
        fun own hown => congrArg GatePhase.reservation hown⟩
  | forgotten | preflight | freed | busy =>
      exact Or.inl ⟨rfl, rfl, fun own hown => congrArg GatePhase.reservation hown⟩
  | _ => exact Or.inl ⟨rfl, rfl, fun own hown => hown⟩

end Projection

section Refinement

/-- The requests of a service that share its replay guard. -/
def gateSystem (cfg : Config) (arrivals : ℕ → Arrival) (guard : PaymentNonceReplayGuard) :
    GateSystem :=
  ⟨cfg.rt, guard, fun i => (cfg.payment, (arrivals i).request)⟩

theorem withNonceGuard_of_nonceGuard {payment : PaymentConfig} {guard : PaymentNonceReplayGuard}
    (hguard : payment.nonceGuard = some guard) : payment.withNonceGuard guard = payment := by
  cases payment
  cases hguard
  rfl

/-- A run of the gate that has come as far as the service has. -/
structure Reflects (state : State) (records : List Record)
    (gate : SystemState × List SystemEvent) : Prop where
  world : gate.1.world = state.world.gate
  clock : gate.1.clock ≤ state.clock
  place : ∀ i, (state.phases i).AtGate (gate.1.phases i)
  records : gate.2 = gateRecords records

/-- The gate follows every move of the service by at most one step of its own. -/
theorem Reflects.step {guard : PaymentNonceReplayGuard}
    (hguard : cfg.payment.nonceGuard = some guard) {state : State} {records : List Record}
    {start : SystemState} {actions : List SystemAction}
    (hreflects : Reflects state records
      ((systemMachine (gateSystem cfg arrivals guard)).run start actions))
    {i : ℕ} {now reading : Instant} {world : World} {phase : Phase} {events : List Event}
    (hnow : state.clock ≤ now) (hreading : reading ≤ now)
    (hmoves : Moves cfg (arrivals i) state.world now reading (state.phases i) world phase
      events) :
    ∃ actions', Reflects ⟨world, now, Function.update state.phases i phase⟩
      (records ++ stamp i now events)
      ((systemMachine (gateSystem cfg arrivals guard)).run start actions') := by
  have hplace := hreflects.place
  rcases hmoves.gate_cases with hunseen | ⟨id, remaining, own, input, next, hphase, hgate⟩
  · refine ⟨actions, ?_, hreflects.clock.trans hnow, ?_, ?_⟩
    · rw [hreflects.world, hunseen.gate]
    · exact (Function.forall_update_iff state.phases fun j place => place.AtGate _).mpr
        ⟨hunseen.place _ (hplace i), fun j _ => hplace j⟩
    · rw [gateRecords_append_stamp, hunseen.events, List.map_nil, List.append_nil]
      exact hreflects.records
  · generalize hrun : (systemMachine (gateSystem cfg arrivals guard)).run start actions = gate
      at hreflects hplace
    have hown : gate.1.phases i = own := by
      have hat := hplace i
      rwa [hphase] at hat
    have hclock : gate.1.clock + (now - gate.1.clock) = now :=
      Nat.add_sub_cancel' (hreflects.clock.trans hnow)
    have hcfg : (gateSystem cfg arrivals guard).cfg i = cfg.payment :=
      withNonceGuard_of_nonceGuard hguard
    have hmove : systemMove (gateSystem cfg arrivals guard) gate.1
        ⟨i, now - gate.1.clock, now - reading, input⟩ =
          ((world.gate, next), events.filterMap Event.gateEvent) := by
      rw [← hgate.step, ← hreflects.world, ← hown, ← hcfg]
      simp only [systemMove, hclock, Nat.sub_sub_self hreading]
      rfl
    refine ⟨actions ++ [⟨i, now - gate.1.clock, now - reading, input⟩], ?_⟩
    rw [Machine.run_concat, hrun]
    refine ⟨?_, ?_, ?_, ?_⟩
    · simp only [systemMachine, hmove]
    · simp only [systemMachine, hclock, le_refl]
    · simp only [systemMachine, hmove]
      intro j
      by_cases hj : j = i
      · subst hj
        rw [Function.update_self, Function.update_self]
        exact hgate.place
      · rw [Function.update_of_ne hj, Function.update_of_ne hj]
        exact hplace j
    · simp only [systemMachine, hmove, hclock]
      rw [gateRecords_append_stamp, hreflects.records]

/-- What the gate of a service does is a run of the gate alone, from its start. -/
theorem reflects_run {guard : PaymentNonceReplayGuard}
    (hguard : cfg.payment.nonceGuard = some guard) (arrivals : ℕ → Arrival) (clock : Instant)
    (actions : List Action) :
    ∃ gateActions, Reflects (run cfg arrivals clock actions).1 (run cfg arrivals clock actions).2
      ((systemMachine (gateSystem cfg arrivals guard)).run
        (.start ⟨NonceStore.empty, PaymentMetrics.new⟩ clock) gateActions) := by
  refine run_induction (P := fun state records => ∃ gateActions, Reflects state records
    ((systemMachine (gateSystem cfg arrivals guard)).run
      (.start ⟨NonceStore.empty, PaymentMetrics.new⟩ clock) gateActions)) cfg arrivals
    ⟨[], rfl, le_refl _, fun i => rfl, rfl⟩ ?_ actions
  rintro state records i now reading world phase events ⟨gateActions, hreflects⟩ hnow hreading
    hmoves
  exact hreflects.step hguard hnow hreading hmoves

end Refinement

section Charges

/-- The limiter refuses with an error. -/
theorem status_of_check {layer : RateLimitLayer} {codec : Codec} {clock : MonotonicClock}
    {headers : HeaderMap} {peer : Option IpAddr} {buckets buckets' : BucketStore}
    {now : Instant} {response : Response} {calls : List LimiterEvent}
    (hcheck : layer.check codec clock headers peer buckets now =
      ((.error response, buckets'), calls)) : 400 ≤ response.status := by
  have hresponse : (layer.check codec clock headers peer buckets now).1.1 = .error response := by
    rw [hcheck]
  clear hcheck
  unfold RateLimitLayer.check at hresponse
  cases peer with
  | none =>
      rw [← Except.error.inj hresponse]
      exact Nat.le_of_ble_eq_true rfl
  | some peer =>
      dsimp only at hresponse
      split at hresponse
      · rw [← Except.error.inj hresponse]
        exact Nat.le_refl 400
      · split at hresponse
        · contradiction
        · rw [← Except.error.inj hresponse]
          exact Nat.le_of_ble_eq_true rfl
        · rw [← Except.error.inj hresponse]
          exact Nat.le_of_ble_eq_true rfl

/-- Before a request gets to the gate. -/
def Phase.isBeforeGate : Phase → Bool
  | .arrived | .entered _ | .free _ | .seated _ => true
  | _ => false

/-- A response is the gate's, or the gate has not seen the request; then it is an
error, unless the route is free. -/
def AnsweredBy (cfg : Config) (arrival : Arrival) (trace : List GateEvent)
    (response : Response) : Prop :=
  (trace = [] ∧ (arrival.metered = true → 400 ≤ response.status)) ∨
    ∃ remaining reply, .replied reply ∈ trace ∧ response = annotate cfg remaining reply

/-- What the gate has done about a request, from where the request stands. -/
structure Screened (cfg : Config) (arrival : Arrival) (trace : List GateEvent)
    (phase : Phase) : Prop where
  history : ∃ own, phase.AtGate own ∧
    GateHistory cfg.rt cfg.payment arrival.request own trace
  paid : RepliesPaid cfg.rt cfg.payment arrival.request trace
  before : phase.isBeforeGate = true → trace = []
  free : phase.isFree = true → arrival.metered = false
  metered : trace ≠ [] ∨ phase.holdsPermit = true → arrival.metered = true
  answered : ∀ response, phase.response = some response → AnsweredBy cfg arrival trace response

theorem Screened.start (cfg : Config) (arrival : Arrival) : Screened cfg arrival [] .arrived where
  history := ⟨.arrived, rfl, .arrived⟩
  paid := by
    intro reply hmem
    simp at hmem
  before _ := rfl
  free h := absurd h Bool.false_ne_true
  metered h := absurd h (by simp [Phase.holdsPermit])
  answered response h := by simp [Phase.response] at h

variable {arrival : Arrival} {world world' : World} {now reading : Instant}
  {phase phase' : Phase} {events : List Event}

/-- A move that the gate does not see leads on by the layers outside of it. -/
theorem Screened.unseen {trace : List GateEvent} (hscreened : Screened cfg arrival trace phase)
    (hevents : events.filterMap Event.gateEvent = [])
    (hplace : ∀ own, phase.AtGate own → phase'.AtGate own)
    (hbefore : phase'.isBeforeGate = true → phase.isBeforeGate = true)
    (hfree : phase'.isFree = true → phase.isFree = true ∨ arrival.metered = false)
    (hmetered : phase'.holdsPermit = true → phase.holdsPermit = true ∨ arrival.metered = true)
    (hanswered : ∀ response, phase'.response = some response →
      phase.response = some response ∨ phase.isBeforeGate = true ∧
        (arrival.metered = true → 400 ≤ response.status)) :
    Screened cfg arrival (trace ++ events.filterMap Event.gateEvent) phase' := by
  rw [hevents, List.append_nil]
  refine ⟨?_, hscreened.paid, fun h => hscreened.before (hbefore h), fun h => ?_, ?_, ?_⟩
  · obtain ⟨own, hown, hhist⟩ := hscreened.history
    exact ⟨own, hplace own hown, hhist⟩
  · exact (hfree h).elim hscreened.free id
  · rintro (hne | hholds)
    · exact hscreened.metered (Or.inl hne)
    · exact (hmetered hholds).elim (fun h => hscreened.metered (Or.inr h)) id
  · intro response hresponse
    rcases hanswered response hresponse with hbefore | ⟨hbefore, herror⟩
    · exact hscreened.answered response hbefore
    · exact Or.inl ⟨hscreened.before hbefore, herror⟩

/-- A step of the gate. -/
theorem Screened.gated {trace : List GateEvent} {id : String} {remaining : Option ℕ}
    {own next : GatePhase} {input : GateInput}
    (hscreened : Screened cfg arrival trace (.gated id remaining own))
    (hgate : GateMoves cfg arrival world now reading own world' phase' events input next)
    (hpast : phase'.isBeforeGate = false)
    (hanswered : ∀ response, phase'.response = some response →
      ∃ reply, .replied reply ∈ events.filterMap Event.gateEvent ∧
        response = annotate cfg remaining reply) :
    Screened cfg arrival (trace ++ events.filterMap Event.gateEvent) phase' := by
  obtain ⟨_, rfl, hhist⟩ := hscreened.history
  have hstep := hgate.step
  have hmetered : arrival.metered = true := hscreened.metered (Or.inr rfl)
  refine ⟨⟨next, hgate.place, ?_⟩, ?_, fun h => ?_, fun h => ?_, fun _ => hmetered, ?_⟩
  · have hnext := hhist.step world.gate now (input.readAt reading)
    rwa [hstep] at hnext
  · have hnext := hhist.repliesPaid hscreened.paid world.gate now (input.readAt reading)
    rwa [hstep] at hnext
  · rw [hpast] at h
    contradiction
  · cases phase' with
    | free id => exact absurd hpast (by simp [Phase.isBeforeGate])
    | _ => contradiction
  · intro response hresponse
    obtain ⟨reply, hreply, heq⟩ := hanswered response hresponse
    exact Or.inr ⟨remaining, reply, List.mem_append_right _ hreply, heq⟩

/-- Past the first poll and the two limiters, nothing outside of the gate makes a
response of a metered request that is no error. -/
theorem Moves.screened {trace : List GateEvent}
    (hmoves : Moves cfg arrival world now reading phase world' phase' events)
    (hscreened : Screened cfg arrival trace phase) :
    Screened cfg arrival (trace ++ events.filterMap Event.gateEvent) phase' := by
  have hquiet : ∀ {place : Phase}, place.response = none →
      ∀ response, place.response = some response → phase.response = some response ∨
        phase.isBeforeGate = true ∧ (arrival.metered = true → 400 ≤ response.status) := by
    intro place hnone response hresponse
    rw [hnone] at hresponse
    contradiction
  cases hmoves with
  | stayed =>
      exact hscreened.unseen rfl (fun own hown => hown) id Or.inl Or.inl
        fun response => Or.inl
  | entered =>
      exact hscreened.unseen rfl (fun own hown => hown) (fun _ => rfl) Or.inl Or.inl
        (hquiet rfl)
  | forgotten | preflight =>
      exact hscreened.unseen rfl (fun own hown => congrArg GatePhase.reservation hown)
        (fun _ => rfl) Or.inl Or.inl (hquiet rfl)
  | freed id hfree =>
      exact hscreened.unseen rfl (fun own hown => congrArg GatePhase.reservation hown)
        (fun _ => rfl) (fun _ => Or.inr hfree) Or.inl (hquiet rfl)
  | seated id hmetered =>
      exact hscreened.unseen rfl (fun own hown => hown) (fun _ => rfl) Or.inl
        (fun _ => Or.inr hmetered) (hquiet rfl)
  | busy id =>
      refine hscreened.unseen rfl (fun own hown => congrArg GatePhase.reservation hown)
        (fun _ => rfl) Or.inl Or.inl fun response hresponse => ?_
      rw [← Option.some.inj hresponse]
      exact Or.inr ⟨rfl, fun _ => Nat.le_of_ble_eq_true rfl⟩
  | answered id response =>
      have hfree := hscreened.free rfl
      refine hscreened.unseen rfl (fun own hown => hown) (fun _ => rfl)
        (fun _ => Or.inl rfl) Or.inl fun response _ => Or.inr ⟨rfl, fun hmetered => ?_⟩
      rw [hfree] at hmetered
      contradiction
  | unlimited =>
      exact hscreened.unseen rfl (fun own hown => hown) (fun _ => rfl) Or.inl
        (fun _ => Or.inl rfl) (hquiet rfl)
  | admitted id layer remaining buckets calls =>
      exact hscreened.unseen (filterMap_gateEvent_limiter calls) (fun own hown => hown)
        (fun _ => rfl) Or.inl (fun _ => Or.inl rfl) (hquiet rfl)
  | refused id layer response buckets calls hlimiter hcheck =>
      refine hscreened.unseen (filterMap_gateEvent_limiter calls)
        (fun own hown => congrArg GatePhase.reservation hown) (fun _ => rfl) Or.inl
        (fun _ => Or.inl rfl) fun other hother => Or.inr ⟨rfl, fun _ => ?_⟩
      rw [← Option.some.inj hother]
      exact status_of_check hcheck
  | gated id remaining phase input gate next events hstep =>
      rw [gateStep_tagged] at hstep
      have hgate : GateMoves cfg arrival world now reading phase { world with gate := gate }
          (.gated id remaining next) (events.map .gate) input next :=
        ⟨by rw [hstep, filterMap_gateEvent_map], rfl⟩
      exact hscreened.gated hgate rfl (by simp [Phase.response])
  | through id remaining phase input gate events hstep =>
      rw [gateStep_tagged] at hstep
      have hgate : GateMoves cfg arrival world now reading phase { world with gate := gate }
          (.returning id ((gateReply events).map (annotate cfg remaining))) (events.map .gate)
          input .ended :=
        ⟨by rw [hstep, filterMap_gateEvent_map], rfl⟩
      refine hscreened.gated hgate rfl fun response hresponse => ?_
      obtain ⟨reply, hreply, rfl⟩ := Option.map_eq_some_iff.mp hresponse
      rw [filterMap_gateEvent_map]
      exact ⟨reply, replied_mem_of_gateReply hreply, rfl⟩
  | released id response =>
      exact hscreened.unseen rfl (fun own hown => hown) (fun h => h) Or.inl
        (fun _ => Or.inl rfl) fun response => Or.inl
  | departed | dropped =>
      exact hscreened.unseen rfl (fun own hown => hown) (fun h => h) Or.inl Or.inl
        (hquiet rfl)

theorem Moves.of_departed
    (hmoves : Moves cfg arrival world now reading .departed world' phase' events) :
    phase' = .departed ∧ events = [] := by
  cases hmoves with
  | stayed => exact ⟨rfl, rfl⟩

/-- A reply has left, and is what the layers outside of the gate made of the
response that the request was answered with. -/
structure Left (cfg : Config) (arrival : Arrival) (trace : List GateEvent) (phase : Phase)
    (reply : Response) : Prop where
  departed : phase = .departed
  answered : ∃ id inner, reply = finishReply cfg arrival id inner ∧
    AnsweredBy cfg arrival trace inner

/-- The gate and the layers around it agree about every request. -/
structure Charges (cfg : Config) (arrivals : ℕ → Arrival) (state : State)
    (records : List Record) : Prop where
  screened : ∀ i, Screened cfg (arrivals i) (traceOf i (gateRecords records)) (state.phases i)
  left : ∀ i time reply, ⟨i, time, .replied reply⟩ ∈ records →
    Left cfg (arrivals i) (traceOf i (gateRecords records)) (state.phases i) reply

theorem Charges.step {state : State} {records : List Record}
    (hcharges : Charges cfg arrivals state records) {i : ℕ} {now reading : Instant}
    {world : World} {phase : Phase} {events : List Event}
    (hmoves : Moves cfg (arrivals i) state.world now reading (state.phases i) world phase
      events) :
    Charges cfg arrivals ⟨world, now, Function.update state.phases i phase⟩
      (records ++ stamp i now events) := by
  have hscreened := hmoves.screened (hcharges.screened i)
  constructor
  · intro j
    dsimp only
    by_cases hj : j = i
    · subst hj
      rw [Function.update_self, traceOf_append_stamp_self]
      exact hscreened
    · rw [Function.update_of_ne hj, traceOf_append_stamp_of_ne (Ne.symm hj)]
      exact hcharges.screened j
  · intro j time reply hmem
    dsimp only
    rcases mem_append_stamp.mp hmem with hmem | ⟨event, hevent, heq⟩
    · have hleft := hcharges.left j time reply hmem
      by_cases hj : j = i
      · -- A request that has been answered does not move any more.
        subst hj
        rw [hleft.departed] at hmoves
        obtain ⟨rfl, rfl⟩ := hmoves.of_departed
        rw [Function.update_self, traceOf_append_stamp_self, List.filterMap_nil,
          List.append_nil]
        exact ⟨rfl, hleft.answered⟩
      · rw [Function.update_of_ne hj, traceOf_append_stamp_of_ne (Ne.symm hj)]
        exact hleft
    · obtain ⟨rfl, rfl, rfl⟩ := Record.mk.inj heq
      obtain ⟨id, inner, hphase, hreply⟩ := hmoves.of_replied_mem hevent
      have hanswered := (hcharges.screened j).answered inner (by rw [hphase]; rfl)
      rw [hphase] at hmoves
      cases hmoves with
      | departed =>
          rw [Function.update_self, traceOf_append_stamp_self, List.filterMap_cons_none rfl,
            List.filterMap_nil, List.append_nil]
          exact ⟨rfl, id, inner, hreply, hanswered⟩
      | stayed => simp at hevent

theorem charges_run (arrivals : ℕ → Arrival) (clock : Instant) (actions : List Action) :
    Charges cfg arrivals (run cfg arrivals clock actions).1
      (run cfg arrivals clock actions).2 := by
  refine run_induction (P := Charges cfg arrivals) cfg arrivals ?_ ?_ actions
  · exact ⟨fun i => .start cfg (arrivals i), fun i time reply hmem => by simp at hmem⟩
  · intro state records i now reading world phase events hcharges _ _ hmoves
    exact hcharges.step hmoves

end Charges

theorem annotate_kept (cfg : Config) (remaining : Option ℕ) (response : Response) :
    (annotate cfg remaining response).status = response.status ∧
      (annotate cfg remaining response).body = response.body := by
  unfold annotate
  split <;> exact ⟨rfl, rfl⟩

/-- What a run of the service is to its gate: a run of the gate, on the requests
as they arrived.  So what holds of the gate, whatever runs it, holds of the
service. -/
structure GateKept (cfg : Config) (arrivals : ℕ → Arrival) (clock : Instant)
    (records : List Record) : Prop where
  refines : ∀ guard, cfg.payment.nonceGuard = some guard → ∃ gateActions,
    gateRecords records = ((systemMachine (gateSystem cfg arrivals guard)).run
      (.start ⟨NonceStore.empty, PaymentMetrics.new⟩ clock) gateActions).2
  replaySafe : ∀ guard, cfg.payment.nonceGuard = some guard →
    ReplaySafe (gateSystem cfg arrivals guard) (gateRecords records)
  requestSafe : ∀ i, GateSafe cfg.rt cfg.payment (arrivals i).request
    (traceOf i (gateRecords records))

theorem gate_kept (cfg : Config) (arrivals : ℕ → Arrival) (clock : Instant)
    (actions : List Action) :
    GateKept cfg arrivals clock (run cfg arrivals clock actions).2 := by
  refine ⟨fun guard hguard => ?_, fun guard hguard => ?_, fun i => ?_⟩
  · obtain ⟨gateActions, hreflects⟩ := reflects_run hguard arrivals clock actions
    exact ⟨gateActions, hreflects.records.symm⟩
  · obtain ⟨gateActions, hreflects⟩ := reflects_run hguard arrivals clock actions
    rw [← hreflects.records]
    exact (systemMachine_run_invariant (gateSystem cfg arrivals guard) [] PaymentMetrics.new
      clock gateActions).replaySafe
  · obtain ⟨own, -, hhist⟩ := ((charges_run arrivals clock actions).screened i).history
    exact hhist.safe

/-- What a reply tells about the charge for its request. -/
structure Accounted (cfg : Config) (arrival : Arrival) (trace : List GateEvent)
    (reply : Response) : Prop where
  /-- The gate has answered, or a layer outside of it has refused. -/
  answered : (trace = [] ∧ 400 ≤ reply.status) ∨ ∃ inner, .replied inner ∈ trace ∧
    reply.status = inner.status ∧ reply.body = inner.body
  /-- A reply that is no error carries what the paid handler returned. -/
  paid : reply.status < 400 → ∃ inner response,
    PaidFor cfg.rt cfg.payment arrival.request trace inner response ∧
      reply.status = response.status ∧ reply.body = response.body

/-- In every interleaving, requests to the free routes never reach the gate, and a
reply under `/v1` below 400 was verified, served and settled; one that another
layer refused was not even looked at by the gate. -/
theorem metered_replies_paid (cfg : Config) (arrivals : ℕ → Arrival) (clock : Instant)
    (actions : List Action) :
    let records := (run cfg arrivals clock actions).2
    ∀ i, ((arrivals i).metered = false → traceOf i (gateRecords records) = []) ∧
      ∀ time reply, ⟨i, time, .replied reply⟩ ∈ records → (arrivals i).metered = true →
        Accounted cfg (arrivals i) (traceOf i (gateRecords records)) reply := by
  intro records i
  have hcharges : Charges cfg arrivals _ records := charges_run arrivals clock actions
  have hscreened := hcharges.screened i
  refine ⟨fun hfree => ?_, fun time reply hmem hmetered => ?_⟩
  · by_contra hne
    have hmetered := hscreened.metered (Or.inl hne)
    rw [hfree] at hmetered
    contradiction
  · obtain ⟨id, inner, hreply, hanswered⟩ := (hcharges.left i time reply hmem).answered
    have htold : Told cfg arrivals _ records := told_run arrivals clock actions
    obtain ⟨_, _, htold⟩ := htold.replied i time reply hmem
    obtain ⟨hstatus, hbody⟩ := finishReply_kept htold.inside id inner
    rw [← hreply] at hstatus hbody
    rcases hanswered with ⟨hnone, herror⟩ | ⟨remaining, own, hown, rfl⟩
    · have hrefused : 400 ≤ reply.status := by
        rw [hstatus]
        exact herror hmetered
      exact ⟨Or.inl ⟨hnone, hrefused⟩, fun h => absurd h (Nat.not_lt.mpr hrefused)⟩
    · rw [(annotate_kept cfg remaining own).1] at hstatus
      rw [(annotate_kept cfg remaining own).2] at hbody
      refine ⟨Or.inr ⟨own, hown, hstatus, hbody⟩, fun hgood => ?_⟩
      rcases hscreened.paid own hown with herror | ⟨response, hpaid⟩
      · omega
      · obtain ⟨_, _, _, _, _, _, _, hsettled, _⟩ := hpaid.reply
        refine ⟨own, response, hpaid, ?_, ?_⟩
        · rw [hstatus, hsettled]
          rfl
        · rw [hbody, hsettled]
          rfl

end Wrapper

end KiteX402
