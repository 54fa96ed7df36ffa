/-
One payment buys one delivery: of two requests with the same authorization that
the upstream was sent, one has failed or came the whole retention later.
-/
import KiteX402.GateDeliverySafe
import KiteX402.GateSystemReplay

namespace KiteX402

section Gate

/-- A request that let go of its reservation after it had entered the handler was
charged, or its handler failed. -/
theorem GateHistory.charged_or_failed {rt : Runtime} {cfg : PaymentConfig} {req : Request}
    {guard : PaymentNonceReplayGuard} {phase : GatePhase} {trace : List GateEvent}
    (hguard : cfg.nonceGuard = some guard) (hhist : GateHistory rt cfg req phase trace)
    (hentered : .handlerEntered ∈ trace) {handle : PaymentNonceReservation} {now : Instant}
    (hdropped : .guard (.dropped handle now) ∈ trace) :
    Charged trace ∨
      ∃ response : Response, 400 ≤ response.status ∧ .handlerReturned response ∈ trace := by
  cases hhist with
  | arrived => simp at hdropped
  | unverified events hends => exact absurd hdropped (hends.dropped_notMem handle now)
  | failed attempt opening ended verify response hmatch hopens hvalid hstatus =>
      exact Or.inr ⟨response, hstatus, by simp⟩
  | handlerCancelled attempt opening ended verify =>
      exact Or.inl (Or.inr ⟨hentered, by simp⟩)
  | settleCancelled attempt opening ended verify response =>
      exact Or.inl (Or.inl ⟨attempt.payload, attempt.requirements, by simp [settleTrace]⟩)
  | settled attempt opening ended verify response result =>
      exact Or.inl (Or.inl ⟨attempt.payload, attempt.requirements, by simp [settleTrace]⟩)
  | verifying _ _ hmatch hopens | verifyCancelled _ _ _ hmatch hopens
  | rejected _ _ _ _ _ hmatch hopens | handling _ _ _ hmatch hopens
  | settling _ _ _ _ hmatch hopens =>
      obtain ⟨generation, reservedAt, hreservation, rfl⟩ := hopens.reservation hguard
      simp [settleTrace, handlerTrace, verifyTrace, closing, hreservation] at hdropped hentered

/-- No request whose handler failed is charged. -/
theorem GateHistory.uncharged_of_failed {rt : Runtime} {cfg : PaymentConfig} {req : Request}
    {guard : PaymentNonceReplayGuard} {phase : GatePhase} {trace : List GateEvent}
    (hguard : cfg.nonceGuard = some guard) (hhist : GateHistory rt cfg req phase trace)
    {response : Response} (hreturned : .handlerReturned response ∈ trace)
    (hfailed : 400 ≤ response.status) (payload : PaymentPayload)
    (requirements : PaymentRequirements) : .settleCalled payload requirements ∉ trace := by
  have hlow : ∀ other : Response, other.status < 400 → response ≠ other := by
    rintro other hother rfl
    omega
  cases hhist with
  | arrived => simp
  | unverified events hends =>
      unfold EndsUnverified at hends
      split at hends
      · simp
      · simp
      · simp
      · simp
      · contradiction
  | verifying _ _ hmatch hopens | verifyCancelled _ _ _ hmatch hopens
  | rejected _ _ _ _ _ hmatch hopens | handling _ _ _ hmatch hopens
  | handlerCancelled _ _ _ _ hmatch hopens | failed _ _ _ _ _ hmatch hopens =>
      obtain ⟨generation, reservedAt, hreservation, rfl⟩ := hopens.reservation hguard
      simp [handlerTrace, verifyTrace, closing, hreservation]
  | settling _ _ _ other hmatch hopens _ hstatus
  | settleCancelled _ _ _ _ other hmatch hopens _ hstatus
  | settled _ _ _ _ other _ hmatch hopens _ hstatus =>
      obtain ⟨generation, reservedAt, hreservation, rfl⟩ := hopens.reservation hguard
      have hne := hlow other hstatus
      simp [settleTrace, handlerTrace, verifyTrace, closing, hreservation, hne] at hreturned

/-- While a request takes a step, every other is between two of its own. -/
def BetweenSteps (sys : GateSystem) (before : List SystemEvent) (event : SystemEvent) : Prop :=
  ∀ i, i ≠ event.request →
    ∃ phase, GateHistory sys.rt (sys.cfg i) (sys.req i) phase (traceOf i before)

theorem systemMachine_run_between (sys : GateSystem) (calls : List GuardCall)
    (metrics : PaymentMetrics) (clock : Instant) (actions : List SystemAction) :
    let reached := (callMachine sys.guard sys.rt.clock).run GuardState.initial calls
    Justified (BetweenSteps sys)
      ((systemMachine sys).run (.start ⟨reached.1.store, metrics⟩ clock) actions).2 := by
  intro reached
  have hstart : SystemInvariant sys reached.2 (.start ⟨reached.1.store, metrics⟩ clock) [] :=
    .start (callMachine_run_protects sys.guard sys.rt.clock calls) clock
  refine ((systemMachine sys).run_induction (P := fun state events =>
    SystemInvariant sys reached.2 state events ∧ Justified (BetweenSteps sys) events)
    ⟨hstart, justified_nil _⟩ (fun state events action h => ?_) actions).2
  refine ⟨h.1.step action, justified_append.mpr ⟨h.2, ?_⟩⟩
  intro before event after hsplit i hne
  have hactor : ∀ other ∈ ((systemMachine sys).step state action).2,
      other.request = action.request := by
    intro other hmem
    obtain ⟨inner, -, rfl⟩ := List.mem_map.mp hmem
    rfl
  rw [hsplit] at hactor
  have hevent : event.request = action.request := hactor event (by simp)
  have hsilent : traceOf i before = [] := by
    simp only [traceOf, List.map_eq_nil_iff, List.filter_eq_nil_iff, decide_eq_true_eq]
    intro other hmem hother
    rw [← hother, hevent] at hne
    exact hne (hactor other (List.mem_append_left _ hmem))
  rw [traceOf_append, hsilent, List.append_nil]
  exact ⟨state.phases i, h.1.histories i⟩

namespace SystemInvariant

variable {sys : GateSystem} {prior : List GuardEvent} {state : SystemState}
  {events before after : List SystemEvent}

/-- Of two requests with one key the first to enter the handler has failed, or the
second enters the whole ttl after the first one's reservation. -/
theorem entered_apart (hinv : SystemInvariant sys prior state events)
    (hbetween : Justified (BetweenSteps sys) events) {i j : ℕ} (hne : i ≠ j) {key : String}
    (hi : sys.key i = some key) (hj : sys.key j = some key) {earlier time : Instant}
    (hevents : events = before ++ ⟨j, time, .handlerEntered⟩ :: after)
    (hentered : ⟨i, earlier, .handlerEntered⟩ ∈ before) :
    (∃ response : Response, 400 ≤ response.status ∧
      .handlerReturned response ∈ traceOf i before) ∨
    ∃ ended handle dropped, ⟨i, ended, .guard (.dropped handle dropped)⟩ ∈ before ∧
      ended + sys.guard.ttl ≤ time := by
  obtain ⟨own, hown, hholds⟩ := hinv.holdsKey_of_protected hevents rfl
  obtain rfl : own = key := Option.some.inj (hown.symm.trans hj)
  -- The first has reserved the key before it entered, and holds it no more.
  obtain ⟨start, rest, hsplit, hfirst⟩ := split_of_mem hevents hentered
  obtain ⟨own', hown', ⟨reservedAt, reading, generation, hreserved⟩, -⟩ :=
    hinv.holdsKey_of_protected hfirst rfl
  obtain rfl : own' = own := Option.some.inj (hown'.symm.trans hi)
  have hover : ¬HoldsKey i own' before := hinv.exclusive hevents hne.symm hholds
  have hdropped : ∃ ended handle now, ⟨i, ended, .guard (.dropped handle now)⟩ ∈ before := by
    by_contra hnone
    refine hover ⟨⟨reservedAt, reading, generation, ?_⟩,
      fun ended handle now hmem => hnone ⟨ended, handle, now, hmem⟩⟩
    rw [hsplit]
    exact List.mem_append_left _ hreserved
  obtain ⟨ended, handle, now, hdropped⟩ := hdropped
  obtain ⟨phase, hhist⟩ := hbetween before _ after hevents i hne
  rcases hhist.charged_or_failed rfl (mem_traceOf.mpr ⟨earlier, hentered⟩)
    (mem_traceOf.mpr ⟨ended, hdropped⟩) with hcharged | hfailed
  · obtain ⟨⟨second, reading', generation', hreserved'⟩, hheld⟩ := hholds
    refine Or.inr ⟨ended, handle, now, hdropped, ?_⟩
    have hretained := hinv.retained hevents hreserved' hheld hi
      ⟨⟨handle, now, hdropped⟩, hcharged⟩
    exact hretained.trans (hinv.time_le hevents _ hreserved')
  · exact Or.inl hfailed

end SystemInvariant

end Gate

/-- Requests that share a replay guard, each with its client, its upstream and its
call of the proxy. -/
structure GuardedDelivery where
  gate : GateSystem
  clients : ℕ → FacilitatorClient
  describe : FacilitatorOp → String → String
  upstreams : ℕ → UpstreamConfig
  calls : ℕ → ProxyCall
  headers : ∀ i, (calls i).headers = (gate.req i).headers

namespace GuardedDelivery

def system (sys : GuardedDelivery) : DeliverySystem :=
  ⟨⟨sys.gate.rt, sys.gate.cfg, sys.gate.req, sys.clients, sys.describe⟩, sys.upstreams,
    sys.calls, sys.headers⟩

theorem hasGate (sys : GuardedDelivery) : sys.system.exchange.HasGate sys.gate :=
  ⟨rfl, fun _ => rfl, fun _ => rfl⟩

end GuardedDelivery

/-- The gate's part of what happened. -/
def gateRecordsOf (records : List DeliveryRecord) : List SystemEvent :=
  gateOf (records.filterMap DeliveryRecord.exchange)

theorem mem_gateRecordsOf {i : ℕ} {time : Instant} {event : GateEvent}
    {records : List DeliveryRecord} :
    ⟨i, time, event⟩ ∈ gateRecordsOf records ↔
      ⟨i, time, .exchange (.gate event)⟩ ∈ records := by
  constructor
  · intro hmem
    obtain ⟨record, hrecord, hgate⟩ := List.mem_filterMap.mp hmem
    obtain ⟨whole, hwhole, hexchange⟩ := List.mem_filterMap.mp hrecord
    obtain ⟨j, now, inner⟩ := whole
    cases inner with
    | exchange inner =>
        obtain rfl := Option.some.inj hexchange
        cases inner with
        | gate inner =>
            cases hgate
            exact hwhole
        | _ => contradiction
    | _ => contradiction
  · intro hmem
    exact List.mem_filterMap.mpr ⟨⟨i, time, .gate event⟩,
      List.mem_filterMap.mpr ⟨_, hmem, rfl⟩, rfl⟩

theorem mem_deliveryTrace {i : ℕ} {event : DeliveryEvent} {records : List DeliveryRecord} :
    event ∈ deliveryTrace i records ↔ ∃ time, ⟨i, time, event⟩ ∈ records := by
  constructor
  · intro hmem
    obtain ⟨record, hrecord, rfl⟩ := List.mem_map.mp hmem
    obtain ⟨hmem, hrequest⟩ := List.mem_filter.mp hrecord
    obtain ⟨request, time, event⟩ := record
    have heq : request = i := by simpa using hrequest
    exact ⟨time, heq ▸ hmem⟩
  · rintro ⟨time, hmem⟩
    exact List.mem_map.mpr ⟨_, List.mem_filter.mpr ⟨hmem, by simp⟩, rfl⟩

theorem deliveryTrace_split {i : ℕ} {time : Instant} {event : DeliveryEvent}
    (before after : List DeliveryRecord) :
    deliveryTrace i (before ++ ⟨i, time, event⟩ :: after) =
      deliveryTrace i before ++ event :: deliveryTrace i after := by
  simp [deliveryTrace]

section Apart

variable (sys : GuardedDelivery)

/-- The first of two requests makes way for the second: its handler failed, and it is
not charged, or the second comes the whole ttl after its reservation. -/
def MakesWay (records : List DeliveryRecord) (i : ℕ) (later : Instant) : Prop :=
  (∃ time response, 400 ≤ response.status ∧
    ⟨i, time, .exchange (.gate (.handlerReturned response))⟩ ∈ records ∧
    ∀ time post, ⟨i, time, .exchange (.posted .settle post)⟩ ∉ records) ∨
  ∃ ended handle dropped,
    ⟨i, ended, .exchange (.gate (.guard (.dropped handle dropped)))⟩ ∈ records ∧
    ended + sys.gate.guard.ttl ≤ later

/-- Of two requests with one authorization that the upstream was sent, one makes way
for the other. -/
def DeliveriesApart (records : List DeliveryRecord) : Prop :=
  ∀ i j key, i ≠ j → sys.gate.key i = some key → sys.gate.key j = some key →
    ∀ first second request request', ⟨i, first, .forwarded request⟩ ∈ records →
      ⟨j, second, .forwarded request'⟩ ∈ records →
      MakesWay sys records i second ∨ MakesWay sys records j first

variable {sys} {state : DeliveryState} {records : List DeliveryRecord}

theorem machine_ordered (sys : DeliverySystem) (start : DeliveryState)
    (actions : List DeliveryAction) :
    (sys.machine.run start actions).2.Pairwise fun first second => first.time ≤ second.time :=
  @Machine.run_ordered _ _ _ sys.machine DeliveryState.clock DeliveryRecord.time
    (fun state action => Nat.le_add_right _ _)
    (fun state action event hmem => by
      obtain ⟨inner, -, rfl⟩ := List.mem_map.mp hmem
      rfl) start actions

/-- What was sent was sent after the handler was entered. -/
theorem entered_of_forwarded {whole : DeliverySystem}
    (hall : AllDelivering whole state records)
    (hordered : records.Pairwise fun first second => first.time ≤ second.time) {i : ℕ}
    {time : Instant} {request : UpstreamRequest}
    (hmem : ⟨i, time, .forwarded request⟩ ∈ records) :
    ∃ entered ≤ time, ⟨i, entered, .exchange (.gate .handlerEntered)⟩ ∈ records := by
  obtain ⟨before, after, rfl⟩ := List.append_of_mem hmem
  obtain ⟨-, start, hstart⟩ :=
    sent_of_follows (hall.delivering i).follows (deliveryTrace_split before after)
  obtain ⟨entered, hentered⟩ := mem_deliveryTrace.mp
    (by rw [hstart]; simp : .exchange (.gate .handlerEntered) ∈ deliveryTrace i before)
  refine ⟨entered, ?_, List.mem_append_left _ hentered⟩
  exact (List.pairwise_append.mp hordered).2.2 _ hentered _ List.mem_cons_self

/-- A request whose handler failed posts nothing to settle. -/
theorem unsettled_of_failed {whole : DeliverySystem} {guard : PaymentNonceReplayGuard}
    (hall : AllDelivering whole state records) {i : ℕ}
    (hguard : (whole.exchange.cfg i).nonceGuard = some guard) {time : Instant}
    {response : Response} (hfailed : 400 ≤ response.status)
    (hreturned : ⟨i, time, .exchange (.gate (.handlerReturned response))⟩ ∈ records) :
    ∀ time post, ⟨i, time, .exchange (.posted .settle post)⟩ ∉ records := by
  intro time post hposted
  have hconversed := hall.conversed i
  rw [conversation_exchange] at hconversed
  have hreturned' := mem_gateEvents.mpr
    (mem_exchangeEvents.mpr (mem_deliveryTrace.mpr ⟨_, hreturned⟩))
  obtain ⟨before, after, hsplit⟩ := List.append_of_mem
    (mem_exchangeEvents.mpr (mem_deliveryTrace.mpr ⟨_, hposted⟩))
  obtain ⟨payload, requirements, -, -, hlast⟩ := hconversed.follows before _ after hsplit
  rcases hlast with hcalled | ⟨hverify, -⟩
  · have hmem : .gate (.settleCalled payload requirements) ∈
        (deliveryTrace i records).filterMap DeliveryEvent.exchangeEvent := by
      rw [hsplit]
      exact List.mem_append_left _ (List.mem_of_getLast? hcalled)
    exact hconversed.history.uncharged_of_failed hguard hreturned' hfailed payload
      requirements (mem_gateEvents.mpr hmem)
  · contradiction

/-- The gate's part of a run is a run of the gate alone. -/
theorem gateRecordsOf_run (sys : GuardedDelivery) (world : GateWorld) (clock : Instant)
    (actions : List DeliveryAction) :
    ∃ gateActions, gateRecordsOf (sys.system.machine.run (.start world clock) actions).2 =
      ((systemMachine sys.gate).run (.start world clock) gateActions).2 := by
  obtain ⟨shown, hshown⟩ :=
    (machine_shows sys.system).run_eq (.start world clock) actions
  obtain ⟨gateActions, hmirrors⟩ := mirrors_run sys.hasGate world clock shown
  refine ⟨gateActions, Eq.trans ?_ hmirrors.events.symm⟩
  rw [gateRecordsOf]
  exact congrArg (fun reached => gateOf reached.2) hshown.symm

/-- The one of two requests that enters its handler first makes way. -/
theorem makesWay_of_entered {prior : List GuardEvent} {gateState : SystemState}
    (hinv : SystemInvariant sys.gate prior gateState (gateRecordsOf records))
    (hbetween : Justified (BetweenSteps sys.gate) (gateRecordsOf records))
    (hall : AllDelivering sys.system state records) {i j : ℕ} (hne : i ≠ j) {key : String}
    (hi : sys.gate.key i = some key) (hj : sys.gate.key j = some key)
    {before after : List SystemEvent} {earlier entered later : Instant}
    (hevents : gateRecordsOf records = before ++ ⟨j, entered, .handlerEntered⟩ :: after)
    (hentered : ⟨i, earlier, .handlerEntered⟩ ∈ before) (hle : entered ≤ later) :
    MakesWay sys records i later := by
  have hin : ∀ event ∈ before, event ∈ gateRecordsOf records := fun event hevent =>
    hevents ▸ List.mem_append_left _ hevent
  rcases hinv.entered_apart hbetween hne hi hj hevents hentered with
    ⟨response, hfailed, hreturned⟩ | ⟨ended, handle, dropped, hdropped, hapart⟩
  · obtain ⟨time, hreturned⟩ := mem_traceOf.mp hreturned
    have hrecord := mem_gateRecordsOf.mp (hin _ hreturned)
    exact Or.inl ⟨time, response, hfailed, hrecord, unsettled_of_failed hall rfl hfailed hrecord⟩
  · exact Or.inr ⟨ended, handle, dropped, mem_gateRecordsOf.mp (hin _ hdropped),
      hapart.trans hle⟩

/-- Any requests behind one guard that is not cleared, from any state that it has
reached, whatever facilitator and upstreams answer and however the steps
interleave. -/
theorem deliveries_apart (sys : GuardedDelivery) (calls : List GuardCall)
    (metrics : PaymentMetrics) (clock : Instant) (actions : List DeliveryAction) :
    let reached := (callMachine sys.gate.guard sys.gate.rt.clock).run GuardState.initial calls
    DeliveriesApart sys
      (sys.system.machine.run (.start ⟨reached.1.store, metrics⟩ clock) actions).2 := by
  intro reached i j key hne hi hj first second request request' hfirst hsecond
  have hall := allDelivering_run sys.system ⟨reached.1.store, metrics⟩ clock actions
  have hordered := machine_ordered sys.system (.start ⟨reached.1.store, metrics⟩ clock) actions
  obtain ⟨gateActions, hgate⟩ :=
    gateRecordsOf_run sys ⟨reached.1.store, metrics⟩ clock actions
  have hinv : SystemInvariant sys.gate reached.2 _
      ((systemMachine sys.gate).run (.start ⟨reached.1.store, metrics⟩ clock) gateActions).2 :=
    systemMachine_run_invariant sys.gate calls metrics clock gateActions
  have hbetween : Justified (BetweenSteps sys.gate)
      ((systemMachine sys.gate).run (.start ⟨reached.1.store, metrics⟩ clock) gateActions).2 :=
    systemMachine_run_between sys.gate calls metrics clock gateActions
  rw [← hgate] at hinv hbetween
  obtain ⟨entered, hle, hentered⟩ := entered_of_forwarded hall hordered hfirst
  obtain ⟨entered', hle', hentered'⟩ := entered_of_forwarded hall hordered hsecond
  rw [← mem_gateRecordsOf] at hentered hentered'
  -- One of the two entered its handler before the other.
  obtain ⟨before, after, hsplit⟩ := List.append_of_mem hentered'
  rw [hsplit] at hentered
  rcases List.mem_append.mp hentered with hbefore | hafter
  · exact Or.inl (makesWay_of_entered hinv hbetween hall hne hi hj hsplit hbefore hle')
  · rcases List.mem_cons.mp hafter with heq | hafter
    · exact absurd (congrArg SystemEvent.request heq) hne
    · obtain ⟨middle, rest, rfl⟩ := List.append_of_mem hafter
      have hsplit' := hsplit.trans (List.append_assoc before
        (⟨j, entered', .handlerEntered⟩ :: middle) (⟨i, entered, .handlerEntered⟩ :: rest)).symm
      exact Or.inr (makesWay_of_entered hinv hbetween hall hne.symm hj hi hsplit'
        (List.mem_append_right _ List.mem_cons_self) hle)

end Apart

namespace DeliverySample

open WireWitness

/-- What the buyer signed, and what the facilitator makes of it. -/
def documents : List (String × Json) :=
  [("paid", .object payment), ("valid", .object [("isValid", .bool true)]),
    ("charged", .object [("success", .bool true), ("transaction", .string "0x01"),
      ("network", .string "eip155:2368")])]

/-- A codec that spells each of them by its name. -/
def rt : Runtime where
  codec :=
    { toString := fun doc => ((documents.find? fun entry => entry.2 = doc).map Prod.fst).getD ""
      fromSlice := fun bytes =>
        (documents.find? fun entry => utf8 entry.1 = bytes).map Prod.snd
      encode64 := fun bytes => String.ofList (bytes.map fun byte => Char.ofNat byte.toNat)
      decode64 := fun text => some (utf8 text) }
  clock := ⟨Duration.fromSecs 1000⟩
  debug text := text

/-- Every request carries the one payment. -/
def shop : GuardedDelivery where
  gate := ⟨rt, .new 100 60, fun _ => (route, ⟨"/v1/forecast", none,
    [("payment-signature", .fromStatic "paid")]⟩)⟩
  clients _ := .new "https://facilitator.example"
  describe _ _ := ""
  upstreams _ := ForwardingWitness.cfg
  calls _ := ⟨⟨some "/v1/forecast".toList, none⟩, "GET",
    [("payment-signature", .fromStatic "paid")], none⟩
  headers _ := rfl

/-- The second request comes while the first waits for the facilitator. -/
def actions : List DeliveryAction :=
  [⟨0, 0, 0, .exchange (.poll none 0)⟩, ⟨1, 1, 0, .exchange (.poll none 0)⟩,
    ⟨0, 1, 0, .exchange (.answered (.ok (200, "valid")) 1)⟩, ⟨0, 1, 0, .read (some [])⟩,
    ⟨0, 1, 0, .served (.ok DeliveryWitness.answer)⟩,
    ⟨0, 1, 0, .exchange (.answered (.ok (200, "charged")) 1)⟩]

def records : List DeliveryRecord :=
  (shop.system.machine.run (.start ⟨.empty, .new⟩ 0) actions).2

/-- The request, and the status of its reply. -/
def replied (record : DeliveryRecord) : Option (ℕ × ℕ) :=
  match record.event with
  | .exchange (.gate (.replied reply)) => some (record.request, reply.status)
  | _ => none

/-- The replay is turned away, and the first request is delivered. -/
example : records.filterMap replied = [(1, 402), (0, 200)] ∧
    records.countP (·.event.isForwarded) = 1 := by
  decide +kernel

end DeliverySample

end KiteX402
