/-
What a buyer pays for is what the upstream delivered: the promises about a
request from its payment to the bytes of its reply, under every interleaving.
-/
import KiteX402.GateDelivery

namespace KiteX402

structure DeliveryState where
  world : GateWorld
  clock : Instant
  places : ℕ → DeliveryPhase

/-- As for the exchange, one request takes a step. -/
structure DeliveryAction where
  request : ℕ
  elapsed : Duration
  lag : Duration
  input : DeliveryInput

structure DeliveryRecord where
  request : ℕ
  time : Instant
  event : DeliveryEvent

/-- The requests of an exchange with their upstreams; the gate hands a request on
with the headers that it came with. -/
structure DeliverySystem where
  exchange : ExchangeSystem
  upstreams : ℕ → UpstreamConfig
  calls : ℕ → ProxyCall
  headers : ∀ i, (calls i).headers = (exchange.req i).headers

def DeliveryState.start (world : GateWorld) (clock : Instant) : DeliveryState :=
  ⟨world, clock, fun _ => .start⟩

/-- The state of the exchange in a state of the whole. -/
def DeliveryState.exchange (state : DeliveryState) : ExchangeState :=
  ⟨state.world, state.clock, fun i => (state.places i).exchange⟩

def DeliveryRecord.exchange (record : DeliveryRecord) : Option ExchangeRecord :=
  record.event.exchangeEvent.map fun event => ⟨record.request, record.time, event⟩

namespace DeliverySystem

def move (sys : DeliverySystem) (state : DeliveryState) (action : DeliveryAction) :
    (GateWorld × DeliveryPhase) × List DeliveryEvent :=
  let now := state.clock + action.elapsed
  let i := action.request
  deliveryStep sys.exchange.rt (sys.exchange.cfg i) (sys.exchange.req i)
    (sys.exchange.clients i) sys.exchange.reader (sys.upstreams i) (sys.calls i) state.world
    (state.places i) now (action.input.readAt (now - action.lag))

def machine (sys : DeliverySystem) : Machine DeliveryState DeliveryAction DeliveryRecord :=
  ⟨fun state action =>
    let now := state.clock + action.elapsed
    let next := sys.move state action
    (⟨next.1.1, now, Function.update state.places action.request next.1.2⟩,
      next.2.map fun event => ⟨action.request, now, event⟩)⟩

end DeliverySystem

/-- What happened to one request. -/
def deliveryTrace (i : ℕ) (records : List DeliveryRecord) : List DeliveryEvent :=
  (records.filter fun record => record.request = i).map DeliveryRecord.event

theorem deliveryTrace_append (i : ℕ) (first last : List DeliveryRecord) :
    deliveryTrace i (first ++ last) = deliveryTrace i first ++ deliveryTrace i last := by
  simp [deliveryTrace]

theorem deliveryTrace_stamp_self (i : ℕ) (now : Instant) (events : List DeliveryEvent) :
    deliveryTrace i (events.map fun event => ⟨i, now, event⟩) = events := by
  simp [deliveryTrace, List.filter_map, Function.comp_def]

theorem deliveryTrace_stamp_of_ne {i j : ℕ} (hne : j ≠ i) (now : Instant)
    (events : List DeliveryEvent) :
    deliveryTrace i (events.map fun event => ⟨j, now, event⟩) = [] := by
  simp [deliveryTrace, hne]

/-- The exchange's part of what happened to a request is its conversation. -/
theorem conversation_exchange (i : ℕ) (records : List DeliveryRecord) :
    conversation i (records.filterMap DeliveryRecord.exchange) =
      (deliveryTrace i records).filterMap DeliveryEvent.exchangeEvent := by
  induction records with
  | nil => rfl
  | cons record rest ih =>
      obtain ⟨j, time, event⟩ := record
      have htrace : deliveryTrace i (⟨j, time, event⟩ :: rest) =
          (if j = i then [event] else []) ++ deliveryTrace i rest := by
        by_cases hj : j = i <;> simp [deliveryTrace, hj]
      rw [htrace, List.filterMap_append, ← ih]
      cases event with
      | exchange event =>
          by_cases hj : j = i <;>
            simp [conversation, DeliveryRecord.exchange, DeliveryEvent.exchangeEvent, hj]
      | _ =>
          rw [List.filterMap_cons_none rfl]
          split <;> rfl

theorem filterMap_exchange_stamp (i : ℕ) (now : Instant) (events : List DeliveryEvent) :
    (events.map fun event => (⟨i, now, event⟩ : DeliveryRecord)).filterMap
        DeliveryRecord.exchange =
      (events.filterMap DeliveryEvent.exchangeEvent).map fun event => ⟨i, now, event⟩ := by
  rw [List.filterMap_map, List.map_filterMap]
  rfl

section Shown

variable {sys : DeliverySystem} {state : DeliveryState}

theorem DeliverySystem.moves (sys : DeliverySystem) (state : DeliveryState)
    (action : DeliveryAction) :
    let now := state.clock + action.elapsed
    let i := action.request
    DeliveryMoves sys.exchange.rt (sys.exchange.cfg i) (sys.exchange.req i)
      (sys.exchange.clients i) sys.exchange.reader (sys.upstreams i) (sys.calls i) state.world
      now (now - action.lag) (state.places i) (sys.move state action).1.1
      (sys.move state action).1.2 (sys.move state action).2 :=
  deliveryStep_moves state.world _ _ _ action.input

/-- Without the proxies' part of it the system is the exchange. -/
theorem machine_shows (sys : DeliverySystem) :
    sys.machine.Shows sys.exchange.machine DeliveryState.exchange DeliveryRecord.exchange := by
  intro state action
  obtain ⟨shown, hshown⟩ := (sys.moves state action).shows
  refine ⟨⟨action.request, action.elapsed, action.lag, shown⟩, ?_⟩
  have hmove : sys.exchange.move state.exchange
      ⟨action.request, action.elapsed, action.lag, shown⟩ =
        (((sys.move state action).1.1, (sys.move state action).1.2.exchange),
          (sys.move state action).2.filterMap DeliveryEvent.exchangeEvent) := hshown
  simp only [ExchangeSystem.machine, hmove, DeliverySystem.machine, filterMap_exchange_stamp]
  have hplaces : Function.update state.exchange.places action.request
      (sys.move state action).1.2.exchange =
        fun i => (Function.update state.places action.request (sys.move state action).1.2
          i).exchange := by
    funext i
    by_cases hi : i = action.request
    · subst hi
      rw [Function.update_self, Function.update_self]
    · rw [Function.update_of_ne hi, Function.update_of_ne hi]
      rfl
  rw [hplaces]
  rfl

/-- Every request is where its trace says. -/
structure AllDelivering (sys : DeliverySystem) (state : DeliveryState)
    (records : List DeliveryRecord) : Prop where
  conversed : AllConversed sys.exchange state.exchange
    (records.filterMap DeliveryRecord.exchange)
  delivering : ∀ i, Delivering sys.exchange.rt (sys.upstreams i) (sys.calls i)
    (state.places i) (deliveryTrace i records)

theorem AllDelivering.step {records : List DeliveryRecord}
    (hall : AllDelivering sys state records) (action : DeliveryAction) :
    AllDelivering sys (sys.machine.step state action).1
      (records ++ (sys.machine.step state action).2) where
  conversed := by
    obtain ⟨shown, hshown⟩ := machine_shows sys state action
    have hstep := hall.conversed.step shown
    rw [hshown] at hstep
    rw [List.filterMap_append]
    exact hstep
  delivering i := by
    have hmoves := sys.moves state action
    simp only [DeliverySystem.machine, deliveryTrace_append]
    by_cases hi : i = action.request
    · subst hi
      rw [Function.update_self, deliveryTrace_stamp_self]
      exact (hall.delivering action.request).step (hall.conversed action.request).awake hmoves
    · rw [Function.update_of_ne hi, deliveryTrace_stamp_of_ne (Ne.symm hi), List.append_nil]
      exact hall.delivering i

theorem allDelivering_run (sys : DeliverySystem) (world : GateWorld) (clock : Instant)
    (actions : List DeliveryAction) :
    AllDelivering sys (sys.machine.run (.start world clock) actions).1
      (sys.machine.run (.start world clock) actions).2 :=
  sys.machine.run_induction (P := AllDelivering sys) ⟨fun _ => .start, fun _ => .start⟩
    (fun _ _ action hall => hall.step action) actions

end Shown

section Answers

variable {up : UpstreamConfig} {call : ProxyCall}

/-- What the upstream is sent of the buyer's request. -/
structure ForwardsCall (up : UpstreamConfig) (call : ProxyCall) (request : UpstreamRequest) :
    Prop where
  method : request.method = call.method
  url : ∃ forwarded, request.url = up.baseUrl.toList ++ forwarded ∧
    Forwards call.target.nestedPath.isSome (call.target.pathAndQuery.getD ['/']) forwarded
  dots : hasDotSegment (call.target.pathAndQuery.getD ['/']) = false
  body : request.body.length ≤ maxRequestBodyBytes
  secret : call.headers.Valid → ∀ name, toAsciiLowercase name ∈ paymentHeaders →
    ¬IsCredential up name → request.headers.getAll name = []

theorem forwardsCall_of_upstreamRequest {body : Option (List UInt8)} {request : UpstreamRequest}
    (h : upstreamRequest up { call with body := body } = .ok request) :
    ForwardsCall up call request := by
  unfold upstreamRequest at h
  dsimp only at h
  split at h
  · contradiction
  next url hurl =>
    split at h
    · contradiction
    next read hread =>
      obtain rfl := Except.ok.inj h
      obtain ⟨hdots, hforwarded⟩ := proxyUrl_ok hurl
      refine ⟨rfl, hforwarded, hdots, ?_, fun hvalid name hname hcredential => ?_⟩
      · simpa using (Option.filter_eq_some_iff.mp hread).2
      · rw [getAll_upstreamHeaders_of_not_credential hcredential hvalid, if_pos]
        simp [hname]

/-- The proxy refuses with a failure. -/
theorem status_of_upstreamRequest (codec : Codec) {refusal : ErrorReply}
    (h : upstreamRequest up call = .error refusal) : 400 ≤ refusal.status := by
  by_contra hstatus
  have hproxy : (proxy codec up (fun _ => .error "") call).status < 400 := by
    rw [proxy_eq, h]
    exact not_le.mp hstatus
  obtain ⟨request, reply, hrequest, -, -⟩ := delivered_of_proxy_status hproxy
  rw [h] at hrequest
  contradiction

/-- An answer that is no failure is the upstream's, delivered whole. -/
theorem proxyAnswer_low {codec : Codec} {answer : Except String UpstreamReply}
    (hstatus : (proxyAnswer codec answer).status < 400) :
    ∃ reply, answer = .ok reply ∧ reply.Delivered ∧ proxyAnswer codec answer =
      ⟨reply.status, buyerHeaders reply.headers, reply.body.bytes⟩ := by
  cases answer with
  | error detail =>
      have hbad : (502 : ℕ) < 400 := hstatus
      omega
  | ok reply =>
      have hdelivered : reply.Delivered := by
        by_contra hnot
        obtain ⟨error, -, hanswer⟩ := (buffersWhole codec reply).refused hnot
        simp [proxyAnswer, hanswer, Codec.jsonResponse] at hstatus
      exact ⟨reply, rfl, hdelivered, (buffersWhole codec reply).delivered hdelivered⟩

end Answers

section Promises

/-- The upstream was sent the buyer's request once the gate had let it in, and has
delivered this answer. -/
structure ServedBy (up : UpstreamConfig) (call : ProxyCall) (trace : List DeliveryEvent)
    (answer : UpstreamReply) : Prop where
  asked : ∃ request, ForwardsCall up call request ∧
    [.exchange (.gate .handlerEntered), .forwarded request, .served (.ok answer)] <:+: trace
  delivered : answer.Delivered

variable (rt : Runtime) (cfg : PaymentConfig) (req : Request) (client : FacilitatorClient)
  (reader : AnswerReader) (up : UpstreamConfig) (call : ProxyCall)

/-- The promises about one request, where the upstream is asked by a request that the
HTTP client is handed, with any redirects of it.  It is asked at most once, for what
the buyer asked and without the payment, and only after the facilitator has called
the payment valid; the payment is settled only once the upstream's answer has been
delivered whole and is no failure; and a reply that is no failure is that answer,
with the receipt of a settlement that succeeded. -/
structure DeliverySafe (trace : List DeliveryEvent) : Prop where
  exchange : ExchangeSafe rt cfg req client reader
    (trace.filterMap DeliveryEvent.exchangeEvent)
  forwards : trace.countP DeliveryEvent.isForwarded ≤ 1
  forwarded : Justified (fun before event => ∀ request, event = .forwarded request →
    ForwardsCall up call request ∧ ∃ verify, verify.isValid = true ∧
      Told reader .verify VerifyResponse.decode verify
        (before.filterMap DeliveryEvent.exchangeEvent)) trace
  charged : Justified (fun before event => ∀ post, event = .exchange (.posted .settle post) →
    ∃ answer, ServedBy up call before answer ∧ answer.status < 400) trace
  replied : ∀ reply, .exchange (.gate (.replied reply)) ∈ trace → 400 ≤ reply.status ∨
    ∃ answer settle, ServedBy up call trace answer ∧ settle.success = true ∧
      Told reader .settle SettleResponse.decode settle
        (trace.filterMap DeliveryEvent.exchangeEvent) ∧
      reply = settledResponse rt.codec
        ⟨answer.status, buyerHeaders answer.headers, answer.body.bytes⟩ settle

variable {rt cfg req client reader up call} {place : DeliveryPhase}
  {trace : List DeliveryEvent}

theorem ServedBy.append {answer : UpstreamReply} (hserved : ServedBy up call trace answer)
    (more : List DeliveryEvent) : ServedBy up call (trace ++ more) answer := by
  obtain ⟨request, hforwards, hinfix⟩ := hserved.asked
  exact ⟨⟨request, hforwards, hinfix.trans (List.prefix_append _ _).isInfix⟩,
    hserved.delivered⟩

/-- The exchange's part of a trace splits where the trace does. -/
theorem exchangeEvents_split {event : ExchangeEvent} (before after : List DeliveryEvent) :
    (before ++ .exchange event :: after).filterMap DeliveryEvent.exchangeEvent =
      before.filterMap DeliveryEvent.exchangeEvent ++
        event :: after.filterMap DeliveryEvent.exchangeEvent := by
  rw [List.filterMap_append]
  rfl

theorem mem_exchangeEvents {event : ExchangeEvent} {events : List DeliveryEvent} :
    event ∈ events.filterMap DeliveryEvent.exchangeEvent ↔ .exchange event ∈ events := by
  constructor
  · intro hmem
    obtain ⟨inner, hinner, hevent⟩ := List.mem_filterMap.mp hmem
    cases inner with
    | exchange inner =>
        cases hevent
        exact hinner
    | _ => contradiction
  · intro hmem
    exact List.mem_filterMap.mpr ⟨_, hmem, rfl⟩

/-- What the proxy has sent, it has sent as the handler was entered. -/
theorem sent_of_follows (hfollows : Justified (DeliveryFollows rt up call) trace)
    {start rest : List DeliveryEvent} {request : UpstreamRequest}
    (hsplit : trace = start ++ .forwarded request :: rest) :
    ForwardsCall up call request ∧
      ∃ earlier, start = earlier ++ [.exchange (.gate .handlerEntered)] := by
  obtain ⟨hlast, body, hrequest⟩ := hfollows start _ rest hsplit
  exact ⟨forwardsCall_of_upstreamRequest hrequest, getLast?_eq_some hlast⟩

/-- A response that is no failure is the upstream's. -/
theorem served_of_follows (hfollows : Justified (DeliveryFollows rt up call) trace)
    {response : Response} (hmem : .exchange (.gate (.handlerReturned response)) ∈ trace)
    (hstatus : response.status < 400) :
    ∃ answer, ServedBy up call trace answer ∧
      response = ⟨answer.status, buyerHeaders answer.headers, answer.body.bytes⟩ := by
  obtain ⟨start, rest, hsplit⟩ := List.append_of_mem hmem
  rcases hfollows start _ rest hsplit with ⟨body, refusal, hrefused, rfl⟩ | ⟨answer, hlast, rfl⟩
  · exact absurd (status_of_upstreamRequest rt.codec hrefused) (not_le.mpr hstatus)
  · obtain ⟨reply, rfl, hdelivered, hresponse⟩ := proxyAnswer_low hstatus
    -- The answer comes right after the request, and the request after the gate.
    obtain ⟨start, rfl⟩ := getLast?_eq_some hlast
    obtain ⟨request, hforwarded⟩ := hfollows start (.served (.ok reply)) _
      (by rw [hsplit, List.append_assoc, List.singleton_append])
    obtain ⟨start, rfl⟩ := getLast?_eq_some hforwarded
    have hsent : trace = start ++ .forwarded request :: .served (.ok reply) ::
        .exchange (.gate (.handlerReturned (proxyAnswer rt.codec (.ok reply)))) :: rest := by
      rw [hsplit, List.append_assoc, List.append_assoc]
      rfl
    obtain ⟨hforwards, start, rfl⟩ := sent_of_follows hfollows hsent
    refine ⟨reply, ⟨⟨request, hforwards, start,
      .exchange (.gate (.handlerReturned (proxyAnswer rt.codec (.ok reply)))) :: rest, ?_⟩,
      hdelivered⟩, hresponse⟩
    rw [hsent]
    simp

theorem countP_isEntered (trace : List DeliveryEvent) :
    trace.countP DeliveryEvent.isEntered =
      ((trace.filterMap DeliveryEvent.exchangeEvent).filterMap
        ExchangeEvent.gateEvent).countP GateEvent.isHandlerEntered := by
  rw [List.countP_filterMap, List.countP_filterMap]
  apply List.countP_congr
  intro event _
  cases event with
  | exchange event => cases event <;> rfl
  | _ => rfl

/-- The upstream is asked no more often than the handler is entered. -/
theorem forwards_le_one (hfollows : Justified (DeliveryFollows rt up call) trace)
    (hconversed : Conversed rt cfg req client reader place.exchange
      (trace.filterMap DeliveryEvent.exchangeEvent)) :
    trace.countP DeliveryEvent.isForwarded ≤ 1 := by
  have hafter : Justified (fun before event => event.isForwarded = true →
      ∃ last, before.getLast? = some last ∧ last.isEntered = true) trace := by
    refine hfollows.mono fun before event hevent hforwarded => ?_
    cases event with
    | forwarded request => exact ⟨_, hevent.1, rfl⟩
    | _ => contradiction
  have honce := hconversed.history.safe.handler_once
  rw [← countP_isEntered] at honce
  calc trace.countP DeliveryEvent.isForwarded
      ≤ trace.dropLast.countP DeliveryEvent.isEntered := hafter.countP_le_dropLast
    _ ≤ trace.countP DeliveryEvent.isEntered := (List.dropLast_sublist trace).countP_le
    _ ≤ 1 := honce

theorem Told.mono {A : Type} {op : FacilitatorOp} {decode : Json → Option A} {answer : A}
    {before longer : List ExchangeEvent} (htold : Told reader op decode answer before)
    (hsub : before ⊆ longer) : Told reader op decode answer longer := by
  obtain ⟨status, text, hmem, hread⟩ := htold
  exact ⟨status, text, hsub hmem, hread⟩

theorem deliverySafe (hfollows : Justified (DeliveryFollows rt up call) trace)
    (hconversed : Conversed rt cfg req client reader place.exchange
      (trace.filterMap DeliveryEvent.exchangeEvent)) :
    DeliverySafe rt cfg req client reader up call trace where
  exchange := hconversed.safe
  forwards := forwards_le_one hfollows hconversed
  forwarded := by
    rintro before event after hsplit request rfl
    obtain ⟨hforwards, start, rfl⟩ := sent_of_follows hfollows hsplit
    have hentered : trace.filterMap DeliveryEvent.exchangeEvent =
        start.filterMap DeliveryEvent.exchangeEvent ++ .gate .handlerEntered ::
          after.filterMap DeliveryEvent.exchangeEvent := by
      rw [hsplit, List.append_assoc, List.singleton_append, exchangeEvents_split]
      rfl
    obtain ⟨verify, hvalid, htold⟩ := hconversed.entered hentered
    refine ⟨hforwards, verify, hvalid, htold.mono ?_⟩
    rw [List.filterMap_append]
    exact List.subset_append_left _ _
  charged := by
    rintro before event after hsplit post rfl
    obtain ⟨response, hreturned, hstatus⟩ :=
      hconversed.charged (hsplit ▸ exchangeEvents_split before after)
    rw [hsplit] at hfollows
    obtain ⟨answer, hserved, rfl⟩ := served_of_follows (justified_append.mp hfollows).1
      (mem_exchangeEvents.mp hreturned) hstatus
    exact ⟨answer, hserved, hstatus⟩
  replied reply hmem := by
    have hreplied := mem_gateEvents.mpr (mem_exchangeEvents.mpr hmem)
    refine (hconversed.paid reply hreplied).imp_right ?_
    rintro ⟨response, ⟨_, _, verify, settle, _, _, hsuccess, rfl, hsub⟩, hstatus⟩
    have hreturned := mem_gateEvents.mp (hsub.subset (by simp : .handlerReturned response ∈ _))
    have hsettled := mem_gateEvents.mp
      (hsub.subset (by simp : .settleReturned (.ok settle) ∈ _))
    obtain ⟨answer, hserved, rfl⟩ :=
      served_of_follows hfollows (mem_exchangeEvents.mp hreturned) hstatus
    exact ⟨answer, settle, hserved, hsuccess, hconversed.told_settle hsettled, rfl⟩

end Promises

/-- What holds of every run of gate, clients and proxies: their part of it is a run
of the exchange, every request is served as promised, and the header that the gate
has read a payment from goes no further. -/
structure DeliveryKept (sys : DeliverySystem) (world : GateWorld) (clock : Instant)
    (reached : DeliveryState × List DeliveryRecord) : Prop where
  refines : ∃ shown, sys.exchange.machine.run (.start world clock) shown =
    (reached.1.exchange, reached.2.filterMap DeliveryRecord.exchange)
  deliveries : ∀ i, DeliverySafe sys.exchange.rt (sys.exchange.cfg i) (sys.exchange.req i)
    (sys.exchange.clients i) sys.exchange.reader (sys.upstreams i) (sys.calls i)
    (deliveryTrace i reached.2)
  secret : ∀ i request, .forwarded request ∈ deliveryTrace i reached.2 →
    (sys.exchange.req i).headers.Valid → ∀ name, toAsciiLowercase name ∈ paymentHeaders →
      ¬IsCredential (sys.upstreams i) name → request.headers.getAll name = []

/-- Whatever facilitator and upstream answer, wherever a request fails or is
dropped, and however the steps of the requests interleave. -/
theorem delivery_kept (sys : DeliverySystem) (world : GateWorld) (clock : Instant)
    (actions : List DeliveryAction) :
    DeliveryKept sys world clock (sys.machine.run (.start world clock) actions) where
  refines := (machine_shows sys).run_eq (.start world clock) actions
  deliveries i := by
    have hall := allDelivering_run sys world clock actions
    have hconversed := hall.conversed i
    rw [conversation_exchange] at hconversed
    exact deliverySafe (hall.delivering i).follows hconversed
  secret i request hmem hvalid := by
    obtain ⟨before, after, hsplit⟩ := List.append_of_mem hmem
    have hfollows := ((allDelivering_run sys world clock actions).delivering i).follows
    rw [← sys.headers] at hvalid
    exact (sent_of_follows hfollows hsplit).1.secret hvalid

end KiteX402
