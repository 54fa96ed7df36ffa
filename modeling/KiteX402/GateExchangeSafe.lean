/-
What the gate and its facilitator client promise together, under every
interleaving of requests and whatever the facilitator answers: whom it is asked
about, how often, and what an answer may lead to.
-/
import KiteX402.GateExchange
import KiteX402.WireAgreement

namespace KiteX402

structure ExchangeState where
  world : GateWorld
  clock : Instant
  places : ℕ → ExchangePhase

/-- One request takes a step, `elapsed` after the last step of any; `lag` as for
the gate alone. -/
structure ExchangeAction where
  request : ℕ
  elapsed : Duration
  lag : Duration
  input : ExchangeInput

structure ExchangeRecord where
  request : ℕ
  time : Instant
  event : ExchangeEvent

def ExchangeState.start (world : GateWorld) (clock : Instant) : ExchangeState :=
  ⟨world, clock, fun _ => ⟨.arrived, .start⟩⟩

/-- Requests with the gates of their routes and their clients; `describe` is the
text of a parser's error. -/
structure ExchangeSystem where
  rt : Runtime
  cfg : ℕ → PaymentConfig
  req : ℕ → Request
  clients : ℕ → FacilitatorClient
  describe : FacilitatorOp → String → String

namespace ExchangeSystem

def reader (sys : ExchangeSystem) : AnswerReader := ⟨sys.rt.codec, sys.describe⟩

/-- The step of the request that acts. -/
def move (sys : ExchangeSystem) (state : ExchangeState) (action : ExchangeAction) :
    (GateWorld × ExchangePhase) × List ExchangeEvent :=
  let now := state.clock + action.elapsed
  exchangeStep sys.rt (sys.cfg action.request) (sys.req action.request)
    (sys.clients action.request) sys.reader state.world (state.places action.request) now
    (action.input.readAt (now - action.lag))

def machine (sys : ExchangeSystem) : Machine ExchangeState ExchangeAction ExchangeRecord :=
  ⟨fun state action =>
    let now := state.clock + action.elapsed
    let next := sys.move state action
    (⟨next.1.1, now, Function.update state.places action.request next.1.2⟩,
      next.2.map fun event => ⟨action.request, now, event⟩)⟩

end ExchangeSystem

/-- What was said about one request. -/
def conversation (i : ℕ) (records : List ExchangeRecord) : List ExchangeEvent :=
  (records.filter fun record => record.request = i).map ExchangeRecord.event

theorem conversation_append (i : ℕ) (first last : List ExchangeRecord) :
    conversation i (first ++ last) = conversation i first ++ conversation i last := by
  simp [conversation]

theorem conversation_stamp_self (i : ℕ) (now : Instant) (events : List ExchangeEvent) :
    conversation i (events.map fun event => ⟨i, now, event⟩) = events := by
  simp [conversation, List.filter_map, Function.comp_def]

theorem conversation_stamp_of_ne {i j : ℕ} (hne : j ≠ i) (now : Instant)
    (events : List ExchangeEvent) :
    conversation i (events.map fun event => ⟨j, now, event⟩) = [] := by
  simp [conversation, hne]

section Promises

/-- The facilitator has answered with a success that reads as `answer`. -/
def Told {A : Type} (reader : AnswerReader) (op : FacilitatorOp) (decode : Json → Option A)
    (answer : A) (before : List ExchangeEvent) : Prop :=
  ∃ status text, .answered op (.ok (status, text)) ∈ before ∧ 200 ≤ status ∧ status < 300 ∧
    reader.fromStr op decode text = .ok answer

/-- The receipt that a client reads on a reply. -/
def Codec.receipt (codec : Codec) (reply : Response) : Option SettleResponse :=
  ((reply.headers.get "payment-response").bind HeaderValue.toStr).bind fun text =>
    (codec.decodeJson text).bind SettleResponse.decode

variable (rt : Runtime) (cfg : PaymentConfig) (req : Request) (client : FacilitatorClient)
  (reader : AnswerReader)

/-- The promises about one request, where a post is a request that the HTTP client
is handed, with any redirects of it.  The facilitator is asked about the payment in
the request's own header and about nothing else; only a verification is tried
again, and only after a transient failure; the handler runs for an answer that
says so, and a reply that is no error has been settled by the one request to
settle, and its receipt tells what the facilitator told. -/
structure ExchangeSafe (trace : List ExchangeEvent) : Prop where
  asked : ∀ op post, .posted op post ∈ trace → ∃ payload requirements,
    Matches rt cfg req payload requirements ∧ post.url = s!"{client.baseUrl}/{op.name}" ∧
      FacilitatorRequest.decode post.body = some ⟨2, payload, requirements⟩
  verifies : trace.countP (·.isPosted .verify) ≤ client.retryConfig.maxRetries.toNat + 1
  settles : trace.countP (·.isPosted .settle) ≤ 1
  retried : Justified (fun before event => ∀ post, event = .posted .verify post →
    (∃ payload requirements,
      before.getLast? = some (.gate (.verifyCalled payload requirements))) ∨
    ∃ earlier reply backoff, before = earlier ++ [.answered .verify reply, .slept backoff] ∧
      ¬Conclusive (reader.readVerify reply)) trace
  entered : Justified (fun before event => event = .gate .handlerEntered →
    ∃ verify, verify.isValid = true ∧
      Told reader .verify VerifyResponse.decode verify before) trace
  charged : Justified (fun before event => ∀ post, event = .posted .settle post →
    ∃ response, .gate (.handlerReturned response) ∈ before ∧ response.status < 400) trace
  paid : ∀ reply, .gate (.replied reply) ∈ trace → 400 ≤ reply.status ∨
    ∃ settle, settle.success = true ∧ Told reader .settle SettleResponse.decode settle trace ∧
      trace.countP (·.isPosted .settle) = 1 ∧
      (rt.codec.Carries settle.encode → rt.codec.receipt reply = some settle)

variable {rt cfg req client reader} {place : ExchangePhase} {trace : List ExchangeEvent}

theorem tell_ok {A : Type} {outcome : Except FacilitatorError A} {answer : A}
    (h : .ok answer = tell outcome) : outcome = .ok answer := by
  cases outcome with
  | ok response => rw [Except.ok.inj h]
  | error error => contradiction

theorem getLast?_eq_some {α : Type} {events : List α} {last : α}
    (h : events.getLast? = some last) : ∃ earlier, events = earlier ++ [last] :=
  List.getLast?_eq_some_iff.mp h

theorem mem_gateEvents {event : GateEvent} {events : List ExchangeEvent} :
    event ∈ events.filterMap ExchangeEvent.gateEvent ↔ .gate event ∈ events := by
  constructor
  · intro hmem
    obtain ⟨inner, hinner, hevent⟩ := List.mem_filterMap.mp hmem
    cases inner with
    | gate inner =>
        cases hevent
        exact hinner
    | _ => contradiction
  · intro hmem
    exact List.mem_filterMap.mpr ⟨_, hmem, rfl⟩

/-- The gate's trace splits where the conversation does. -/
theorem gateEvents_split {event : GateEvent} (before after : List ExchangeEvent) :
    (before ++ .gate event :: after).filterMap ExchangeEvent.gateEvent =
      before.filterMap ExchangeEvent.gateEvent ++
        event :: after.filterMap ExchangeEvent.gateEvent := by
  rw [List.filterMap_append]
  rfl

theorem Codec.Carries.receipt {codec : Codec} {settle : SettleResponse}
    (hcarries : codec.Carries settle.encode) (response : Response) :
    codec.receipt (settledResponse codec response settle) = some settle := by
  have hne : "payment-response" ≠ "cache-control" := by decide
  have hheader : (settledResponse codec response settle).headers.get "payment-response" =
      some (Codec.headerValue (codec.encodeJson settle.encode)) := by
    rw [settledResponse, HeaderMap.get_insert_of_ne _ hne, HeaderMap.get_insert_self]
    rfl
  rw [Codec.receipt, hheader, Option.bind_some, hcarries.toStr_headerValue, Option.bind_some,
    hcarries.decodeJson, Option.bind_some, SettleResponse.decode_encode]

namespace Conversed

/-- What the gate was told about a verification, the facilitator has said. -/
theorem told_verify (hconversed : Conversed rt cfg req client reader place trace)
    {verify : VerifyResponse} {before after : List ExchangeEvent}
    (hsplit : trace = before ++ after) (hmem : .gate (.verifyReturned (.ok verify)) ∈ before) :
    Told reader .verify VerifyResponse.decode verify before := by
  obtain ⟨start, rest, rfl⟩ := List.append_of_mem hmem
  obtain ⟨reply, hlast, hresult⟩ := hconversed.follows start _ (rest ++ after)
    (by rw [hsplit, List.append_assoc, List.cons_append])
  obtain ⟨earlier, rfl⟩ := getLast?_eq_some hlast
  obtain ⟨status, text, rfl, hlow, hhigh, hread⟩ := sendSingle_ok (tell_ok hresult)
  exact ⟨status, text, by simp, hlow, hhigh, hread⟩

theorem told_settle (hconversed : Conversed rt cfg req client reader place trace)
    {settle : SettleResponse} (hmem : .gate (.settleReturned (.ok settle)) ∈ trace) :
    Told reader .settle SettleResponse.decode settle trace := by
  obtain ⟨start, rest, hsplit⟩ := List.append_of_mem hmem
  obtain ⟨reply, hlast, hresult⟩ := hconversed.follows start _ rest hsplit
  obtain ⟨earlier, rfl⟩ := getLast?_eq_some hlast
  obtain ⟨status, text, rfl, hlow, hhigh, hread⟩ := sendSingle_ok (tell_ok hresult)
  exact ⟨status, text, by simp [hsplit], hlow, hhigh, hread⟩

/-- The facilitator reads the payment that the request brought. -/
theorem asked (hconversed : Conversed rt cfg req client reader place trace)
    {op : FacilitatorOp} {post : Post} (hmem : .posted op post ∈ trace) :
    ∃ payload requirements, Matches rt cfg req payload requirements ∧
      post.url = s!"{client.baseUrl}/{op.name}" ∧
        FacilitatorRequest.decode post.body = some ⟨2, payload, requirements⟩ := by
  obtain ⟨before, after, hsplit⟩ := List.append_of_mem hmem
  obtain ⟨payload, requirements, hmatch, rfl, _⟩ := hconversed.follows before _ after hsplit
  obtain ⟨headerValue, _, hdecoded⟩ := Option.bind_eq_some_iff.mp hmatch.decoded
  obtain ⟨hversion, hfaithful⟩ := Codec.decodePaymentPayload_spec hdecoded
  refine ⟨payload, requirements, hmatch, rfl, ?_⟩
  rw [FacilitatorClient.post, FacilitatorRequest.decode_encode hfaithful, hversion]
  rw [← hmatch.accepted]
  exact hfaithful.1

theorem retried (hconversed : Conversed rt cfg req client reader place trace)
    {before after : List ExchangeEvent} {post : Post}
    (hsplit : trace = before ++ .posted .verify post :: after) :
    (∃ payload requirements,
      before.getLast? = some (.gate (.verifyCalled payload requirements))) ∨
    ∃ earlier reply backoff, before = earlier ++ [.answered .verify reply, .slept backoff] ∧
      ¬Conclusive (reader.readVerify reply) := by
  obtain ⟨payload, requirements, _, _, hlast⟩ := hconversed.follows before _ after hsplit
  rcases hlast with hcalled | ⟨_, backoff, hslept⟩
  · exact Or.inl ⟨payload, requirements, hcalled⟩
  · obtain ⟨earlier, rfl⟩ := getLast?_eq_some hslept
    obtain ⟨reply, hanswered, htransient⟩ := hconversed.follows earlier (.slept backoff)
      (.posted .verify post :: after) (by rw [hsplit, List.append_assoc, List.singleton_append])
    obtain ⟨start, rfl⟩ := getLast?_eq_some hanswered
    exact Or.inr ⟨start, reply, backoff, by simp, htransient⟩

theorem entered (hconversed : Conversed rt cfg req client reader place trace)
    {before after : List ExchangeEvent}
    (hsplit : trace = before ++ .gate .handlerEntered :: after) :
    ∃ verify, verify.isValid = true ∧
      Told reader .verify VerifyResponse.decode verify before := by
  obtain ⟨payload, requirements, verify, _, hvalid, hsub⟩ :=
    hconversed.history.safe.justified _ _ _ (hsplit ▸ gateEvents_split before after)
  refine ⟨verify, hvalid, hconversed.told_verify hsplit (mem_gateEvents.mp ?_)⟩
  exact hsub.subset (by simp)

theorem charged (hconversed : Conversed rt cfg req client reader place trace)
    {before after : List ExchangeEvent} {post : Post}
    (hsplit : trace = before ++ .posted .settle post :: after) :
    ∃ response, .gate (.handlerReturned response) ∈ before ∧ response.status < 400 := by
  obtain ⟨payload, requirements, _, _, hlast⟩ := hconversed.follows before _ after hsplit
  rcases hlast with hcalled | ⟨hverify, _⟩
  · obtain ⟨earlier, rfl⟩ := getLast?_eq_some hcalled
    obtain ⟨response, hstatus, hsub⟩ := hconversed.history.safe.justified
      (earlier.filterMap ExchangeEvent.gateEvent) (.settleCalled payload requirements) _
      (by rw [hsplit, List.append_assoc, List.singleton_append]; exact gateEvents_split _ _)
    refine ⟨response, List.mem_append_left _ (mem_gateEvents.mp (hsub.subset ?_)), hstatus⟩
    simp
  · contradiction

/-- Every answer is the answer to a request. -/
theorem posted_of_answered (hconversed : Conversed rt cfg req client reader place trace)
    {op : FacilitatorOp} {reply : Except RequestError (ℕ × String)}
    (hmem : .answered op reply ∈ trace) : ∃ post, .posted op post ∈ trace := by
  obtain ⟨before, after, hsplit⟩ := List.append_of_mem hmem
  obtain ⟨post, hlast⟩ := hconversed.follows before _ after hsplit
  refine ⟨post, ?_⟩
  rw [hsplit]
  exact List.mem_append_left _ (List.mem_of_getLast? hlast)

theorem settled (hconversed : Conversed rt cfg req client reader place trace)
    {reply : Response} (hmem : .gate (.replied reply) ∈ trace) :
    400 ≤ reply.status ∨ ∃ settle, settle.success = true ∧
      Told reader .settle SettleResponse.decode settle trace ∧
      trace.countP (·.isPosted .settle) = 1 ∧
      (rt.codec.Carries settle.encode → rt.codec.receipt reply = some settle) := by
  refine (hconversed.paid reply (mem_gateEvents.mpr hmem)).imp_right ?_
  rintro ⟨response, ⟨_, _, verify, settle, _, _, hsuccess, rfl, hsub⟩, _⟩
  have hreturned : GateEvent.settleReturned (.ok settle) ∈
      trace.filterMap ExchangeEvent.gateEvent := hsub.subset (by simp)
  have htold := hconversed.told_settle (mem_gateEvents.mp hreturned)
  refine ⟨settle, hsuccess, htold, ?_, fun hcarries => hcarries.receipt response⟩
  obtain ⟨status, text, hanswered, _⟩ := htold
  obtain ⟨post, hposted⟩ := hconversed.posted_of_answered hanswered
  have hpos : 0 < trace.countP (·.isPosted .settle) :=
    List.countP_pos_iff.mpr ⟨_, hposted, by simp [ExchangeEvent.isPosted]⟩
  have hle := hconversed.posts.le.2
  omega

theorem safe (hconversed : Conversed rt cfg req client reader place trace) :
    ExchangeSafe rt cfg req client reader trace where
  asked _ _ := hconversed.asked
  verifies := hconversed.posts.le.1
  settles := hconversed.posts.le.2
  retried _ _ _ hsplit _ heq := hconversed.retried (heq ▸ hsplit)
  entered _ _ _ hsplit heq := hconversed.entered (heq ▸ hsplit)
  charged _ _ _ hsplit _ heq := hconversed.charged (heq ▸ hsplit)
  paid _ := hconversed.settled

end Conversed

end Promises

section Run

variable (sys : ExchangeSystem)

/-- Every request is in the middle of a conversation. -/
def AllConversed (state : ExchangeState) (records : List ExchangeRecord) : Prop :=
  ∀ i, Conversed sys.rt (sys.cfg i) (sys.req i) (sys.clients i) sys.reader (state.places i)
    (conversation i records)

variable {sys} {state : ExchangeState} {records : List ExchangeRecord}

theorem AllConversed.moves (hall : AllConversed sys state records) (action : ExchangeAction) :
    let now := state.clock + action.elapsed
    ExchangeMoves sys.rt (sys.cfg action.request) (sys.req action.request)
      (sys.clients action.request) sys.reader state.world now (now - action.lag)
      (state.places action.request) (sys.move state action).1.1 (sys.move state action).1.2
      (sys.move state action).2 :=
  exchangeStep_moves state.world _ _ action.input (hall action.request).awake

theorem AllConversed.step (hall : AllConversed sys state records) (action : ExchangeAction) :
    AllConversed sys (sys.machine.step state action).1
      (records ++ (sys.machine.step state action).2) := by
  intro i
  have hmoves := hall.moves action
  simp only [ExchangeSystem.machine, conversation_append]
  by_cases hi : i = action.request
  · subst hi
    rw [Function.update_self, conversation_stamp_self]
    exact (hall action.request).step hmoves
  · rw [Function.update_of_ne hi, conversation_stamp_of_ne (Ne.symm hi), List.append_nil]
    exact hall i

/-- The gate's part of what happened. -/
def gateOf (records : List ExchangeRecord) : List SystemEvent :=
  records.filterMap fun record =>
    record.event.gateEvent.map fun event => ⟨record.request, record.time, event⟩

theorem gateOf_append_stamp (records : List ExchangeRecord) (i : ℕ) (now : Instant)
    (events : List ExchangeEvent) :
    gateOf (records ++ events.map fun event => ⟨i, now, event⟩) =
      gateOf records ++
        (events.filterMap ExchangeEvent.gateEvent).map fun event => ⟨i, now, event⟩ := by
  rw [gateOf, List.filterMap_append, List.filterMap_map, List.map_filterMap]
  rfl

/-- A move that the gate does not see, or a step of the gate. -/
theorem ExchangeMoves.gate_cases {rt : Runtime} {cfg : PaymentConfig} {req : Request}
    {client : FacilitatorClient} {reader : AnswerReader} {world world' : GateWorld}
    {now reading : Instant} {place place' : ExchangePhase} {events : List ExchangeEvent}
    (hmoves : ExchangeMoves rt cfg req client reader world now reading place world' place'
      events) :
    (world' = world ∧ place'.gate = place.gate ∧
      events.filterMap ExchangeEvent.gateEvent = []) ∨
    ∃ input : GateInput, gateStep rt cfg req world place.gate now (input.readAt reading) =
      ((world', place'.gate), events.filterMap ExchangeEvent.gateEvent) := by
  cases hmoves with
  | ignored => exact Or.inl ⟨rfl, rfl, rfl⟩
  | retried => exact Or.inl ⟨rfl, rfl, rfl⟩
  | woken => exact Or.inl ⟨rfl, rfl, rfl⟩
  | gate phase call input world' next events hawaits hinput hinput' hread hstep =>
      exact Or.inr ⟨input, by rw [hread, hstep, filterMap_gateEvent_opened]⟩
  | verified attempt n reply world' next events hstep =>
      refine Or.inr ⟨.verified (tell (reader.readVerify reply)), ?_⟩
      rw [List.filterMap_cons_none rfl, filterMap_gateEvent_opened]
      exact hstep
  | settled attempt response n reply elapsed world' next events hstep =>
      refine Or.inr ⟨.settled (tell (reader.readSettle reply)) elapsed, ?_⟩
      rw [List.filterMap_cons_none rfl, filterMap_gateEvent_opened]
      exact hstep

/-- The gates of a system, where they share one replay guard. -/
structure ExchangeSystem.HasGate (sys : ExchangeSystem) (gate : GateSystem) : Prop where
  rt : gate.rt = sys.rt
  cfg : ∀ i, gate.cfg i = sys.cfg i
  req : ∀ i, gate.req i = sys.req i

/-- A run of the gate alone that has come as far as the exchange. -/
structure Mirrors (state : ExchangeState) (records : List ExchangeRecord)
    (gate : SystemState × List SystemEvent) : Prop where
  world : gate.1.world = state.world
  clock : gate.1.clock ≤ state.clock
  phases : ∀ i, gate.1.phases i = (state.places i).gate
  events : gate.2 = gateOf records

/-- The gate follows every step by at most one of its own. -/
theorem Mirrors.step {guarded : GateSystem} (hgate : sys.HasGate guarded)
    {start : SystemState} {gateActions : List SystemAction}
    (hmirrors : Mirrors state records ((systemMachine guarded).run start gateActions))
    (hall : AllConversed sys state records) (action : ExchangeAction) :
    ∃ gateActions', Mirrors (sys.machine.step state action).1
      (records ++ (sys.machine.step state action).2)
      ((systemMachine guarded).run start gateActions') := by
  have hmoves := hall.moves action
  generalize hrun : (systemMachine guarded).run start gateActions = gate at hmirrors
  have hnow : gate.1.clock ≤ state.clock + action.elapsed :=
    hmirrors.clock.trans (Nat.le_add_right _ _)
  rcases hmoves.gate_cases with ⟨hworld, hplace, hevents⟩ | ⟨input, hstep⟩
  · refine ⟨gateActions, ?_⟩
    rw [hrun]
    refine ⟨hmirrors.world.trans hworld.symm, hnow, fun i => ?_, ?_⟩
    · simp only [ExchangeSystem.machine]
      by_cases hi : i = action.request
      · subst hi
        rw [Function.update_self, hplace]
        exact hmirrors.phases action.request
      · rw [Function.update_of_ne hi]
        exact hmirrors.phases i
    · simp only [ExchangeSystem.machine]
      rw [gateOf_append_stamp, hevents, List.map_nil, List.append_nil]
      exact hmirrors.events
  · have hclock : gate.1.clock + (state.clock + action.elapsed - gate.1.clock) =
        state.clock + action.elapsed := Nat.add_sub_cancel' hnow
    have hmove : systemMove guarded gate.1
        ⟨action.request, state.clock + action.elapsed - gate.1.clock, action.lag, input⟩ =
          (((sys.move state action).1.1, (sys.move state action).1.2.gate),
            (sys.move state action).2.filterMap ExchangeEvent.gateEvent) := by
      rw [← hstep, ← hmirrors.world, ← hmirrors.phases, ← hgate.rt, ← hgate.cfg, ← hgate.req]
      simp only [systemMove, hclock]
    refine ⟨gateActions ++
      [⟨action.request, state.clock + action.elapsed - gate.1.clock, action.lag, input⟩], ?_⟩
    rw [Machine.run_concat, hrun]
    refine ⟨?_, ?_, fun i => ?_, ?_⟩
    · simp only [systemMachine, hmove, ExchangeSystem.machine]
    · simp only [systemMachine, hclock, ExchangeSystem.machine, le_refl]
    · simp only [systemMachine, hmove, ExchangeSystem.machine]
      by_cases hi : i = action.request
      · subst hi
        rw [Function.update_self, Function.update_self]
      · rw [Function.update_of_ne hi, Function.update_of_ne hi]
        exact hmirrors.phases i
    · simp only [systemMachine, hmove, hclock, ExchangeSystem.machine]
      rw [gateOf_append_stamp, hmirrors.events]

/-- What holds of every run of gate and clients: the gate's part of it is a run of
the gate alone, and every conversation keeps its promises. -/
structure ExchangeKept (sys : ExchangeSystem) (world : GateWorld) (clock : Instant)
    (reached : ExchangeState × List ExchangeRecord) : Prop where
  refines : ∀ gate, sys.HasGate gate → ∃ gateActions, gateOf reached.2 =
    ((systemMachine gate).run (.start world clock) gateActions).2
  conversations : ∀ i, ExchangeSafe sys.rt (sys.cfg i) (sys.req i) (sys.clients i) sys.reader
    (conversation i reached.2)

theorem allConversed_run (sys : ExchangeSystem) (world : GateWorld) (clock : Instant)
    (actions : List ExchangeAction) :
    AllConversed sys (sys.machine.run (.start world clock) actions).1
      (sys.machine.run (.start world clock) actions).2 :=
  sys.machine.run_induction (P := AllConversed sys) (fun _ => .start)
    (fun _ _ action hall => hall.step action) actions

theorem mirrors_run {sys : ExchangeSystem} {gate : GateSystem} (hgate : sys.HasGate gate)
    (world : GateWorld) (clock : Instant) (actions : List ExchangeAction) :
    ∃ gateActions, Mirrors (sys.machine.run (.start world clock) actions).1
      (sys.machine.run (.start world clock) actions).2
      ((systemMachine gate).run (.start world clock) gateActions) := by
  have hstart : AllConversed sys (.start world clock) [] ∧ ∃ gateActions,
      Mirrors (.start world clock) [] ((systemMachine gate).run (.start world clock) gateActions) :=
    ⟨fun i => .start, [], rfl, le_refl _, fun i => rfl, rfl⟩
  have hrun := sys.machine.run_induction (P := fun state records =>
    AllConversed sys state records ∧ ∃ gateActions, Mirrors state records
      ((systemMachine gate).run (.start world clock) gateActions)) hstart
    (fun state records action ⟨hall, gateActions, hmirrors⟩ =>
      ⟨hall.step action, hmirrors.step hgate hall action⟩) actions
  exact hrun.2

/-- Whatever the facilitator answers, wherever a call fails or is dropped, and
however the steps of the requests interleave. -/
theorem exchange_kept (sys : ExchangeSystem) (world : GateWorld) (clock : Instant)
    (actions : List ExchangeAction) :
    ExchangeKept sys world clock (sys.machine.run (.start world clock) actions) where
  refines gate hgate := by
    obtain ⟨gateActions, hmirrors⟩ := mirrors_run hgate world clock actions
    exact ⟨gateActions, hmirrors.events.symm⟩
  conversations i := (allConversed_run sys world clock actions i).safe

end Run

end KiteX402
