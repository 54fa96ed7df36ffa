/-
The gate, its facilitator client and the proxy behind it as one system: reading
the buyer's body and waiting for the upstream are steps like any other.
-/
import KiteX402.GateExchangeSafe
import KiteX402.ProxyBasePath
import KiteX402.ProxyResponse

namespace KiteX402

/-- `sent` is the request whose answer the proxy waits for. -/
structure DeliveryPhase where
  exchange : ExchangePhase
  sent : Option UpstreamRequest

def DeliveryPhase.start : DeliveryPhase := ⟨⟨.arrived, .start⟩, none⟩

/-- `read` is the end of the buyer's body, or its failure; `served` is what the
HTTP client makes of the upstream's answer, or of the lack of one.  The redirects
that it follows on the way are within that. -/
inductive DeliveryInput where
  | exchange (input : ExchangeInput)
  | read (body : Option (List UInt8))
  | served (answer : Except String UpstreamReply)

inductive DeliveryEvent where
  | exchange (event : ExchangeEvent)
  | forwarded (request : UpstreamRequest)
  | served (answer : Except String UpstreamReply)

namespace DeliveryEvent

def exchangeEvent : DeliveryEvent → Option ExchangeEvent
  | .exchange event => some event
  | _ => none

def isForwarded : DeliveryEvent → Bool
  | .forwarded _ => true
  | _ => false

def isEntered : DeliveryEvent → Bool
  | .exchange (.gate event) => event.isHandlerEntered
  | _ => false

end DeliveryEvent

/-- The reply to the buyer, once the upstream has answered or failed to. -/
def proxyAnswer (codec : Codec) : Except String UpstreamReply → Response
  | .error detail => codec.jsonResponse 502 (.object
      [("detail", .string detail), ("error", .string "upstream unreachable")])
  | .ok reply => upstreamAnswer codec reply

theorem proxy_eq (codec : Codec) (up : UpstreamConfig)
    (send : UpstreamRequest → Except String UpstreamReply) (call : ProxyCall) :
    proxy codec up send call =
      match upstreamRequest up call with
      | .error refusal => refusal.response codec
      | .ok request => proxyAnswer codec (send request) := by
  unfold proxy proxyAnswer
  rfl

section Step

variable (rt : Runtime) (cfg : PaymentConfig) (req : Request) (client : FacilitatorClient)
  (reader : AnswerReader) (up : UpstreamConfig) (call : ProxyCall)

/-- A step of gate and client, with the proxy at `sent` afterwards. -/
def exchangeMove (sent : Option UpstreamRequest) (world : GateWorld) (place : ExchangePhase)
    (now : Instant) (input : ExchangeInput) :
    (GateWorld × DeliveryPhase) × List DeliveryEvent :=
  let next := exchangeStep rt cfg req client reader world place now input
  ((next.1.1, ⟨next.1.2, sent⟩), next.2.map .exchange)

/-- One step of a request.  The handler is the proxy, so that no response comes in
from elsewhere, and dropping it drops what it has sent. -/
def deliveryStep (world : GateWorld) (place : DeliveryPhase) (now : Instant)
    (input : DeliveryInput) : (GateWorld × DeliveryPhase) × List DeliveryEvent :=
  match input with
  | .exchange (.handled _) => ((world, place), [])
  | .exchange .cancel =>
      exchangeMove rt cfg req client reader none world place.exchange now .cancel
  | .exchange input =>
      exchangeMove rt cfg req client reader place.sent world place.exchange now input
  | .read body =>
      match place with
      | ⟨⟨.handling attempt, state⟩, none⟩ =>
          match upstreamRequest up { call with body := body } with
          | .error refusal =>
              exchangeMove rt cfg req client reader none world ⟨.handling attempt, state⟩ now
                (.handled (refusal.response rt.codec))
          | .ok request =>
              ((world, ⟨⟨.handling attempt, state⟩, some request⟩), [.forwarded request])
      | place => ((world, place), [])
  | .served answer =>
      match place with
      | ⟨⟨.handling attempt, state⟩, some _⟩ =>
          let next := exchangeMove rt cfg req client reader none world
            ⟨.handling attempt, state⟩ now (.handled (proxyAnswer rt.codec answer))
          (next.1, .served answer :: next.2)
      | place => ((world, place), [])

/-- A body that is read and an answer to what was sent, one after the other, come to
what `proxy` answers. -/
theorem deliveryStep_proxy (world : GateWorld) (attempt : PaymentAttempt) (state : CallState)
    (now : Instant) (body : Option (List UInt8))
    (send : UpstreamRequest → Except String UpstreamReply) :
    let step := deliveryStep rt cfg req client reader up call
    let read := (step world ⟨⟨.handling attempt, state⟩, none⟩ now (.read body)).1
    (match read.2.sent with
      | none => read
      | some request => (step read.1 read.2 now (.served (send request))).1) =
    (exchangeMove rt cfg req client reader none world ⟨.handling attempt, state⟩ now
      (.handled (proxy rt.codec up send { call with body := body }))).1 := by
  rw [proxy_eq]
  cases hrequest : upstreamRequest up { call with body := body } with
  | error refusal => simp [deliveryStep, hrequest, exchangeMove]
  | ok request => simp [deliveryStep, hrequest]

end Step

section Moves

variable (rt : Runtime) (cfg : PaymentConfig) (req : Request) (client : FacilitatorClient)
  (reader : AnswerReader) (up : UpstreamConfig) (call : ProxyCall)

def DeliveryInput.readAt (reserveAt : Instant) : DeliveryInput → DeliveryInput
  | .exchange input => .exchange (input.readAt reserveAt)
  | input => input

/-- What a step can do. -/
inductive DeliveryMoves (world : GateWorld) (now reading : Instant) :
    DeliveryPhase → GateWorld → DeliveryPhase → List DeliveryEvent → Prop where
  | ignored (place) : DeliveryMoves world now reading place world place []
  | refused (attempt state body refusal world' next events)
      (hrefused : upstreamRequest up { call with body := body } = .error refusal)
      (hstep : exchangeStep rt cfg req client reader world ⟨.handling attempt, state⟩ now
        (.handled (refusal.response rt.codec)) = ((world', next), events)) :
      DeliveryMoves world now reading ⟨⟨.handling attempt, state⟩, none⟩ world' ⟨next, none⟩
        (events.map .exchange)
  | forwarded (attempt state body request)
      (hrequest : upstreamRequest up { call with body := body } = .ok request) :
      DeliveryMoves world now reading ⟨⟨.handling attempt, state⟩, none⟩ world
        ⟨⟨.handling attempt, state⟩, some request⟩ [.forwarded request]
  | served (attempt state request answer world' next events)
      (hstep : exchangeStep rt cfg req client reader world ⟨.handling attempt, state⟩ now
        (.handled (proxyAnswer rt.codec answer)) = ((world', next), events)) :
      DeliveryMoves world now reading ⟨⟨.handling attempt, state⟩, some request⟩ world'
        ⟨next, none⟩ (.served answer :: events.map .exchange)
  | exchanged (place sent input world' next events)
      (hinput : ∀ response, input ≠ .handled response)
      (hkept : ∀ attempt, place.gate = .handling attempt → next = place ∧ events = [])
      (hstep : exchangeStep rt cfg req client reader world place now
        (ExchangeInput.readAt reading input) = ((world', next), events)) :
      DeliveryMoves world now reading ⟨place, sent⟩ world' ⟨next, sent⟩ (events.map .exchange)
  | dropped (place sent world' next events) (hended : next.gate = .ended)
      (hstep : exchangeStep rt cfg req client reader world place now .cancel =
        ((world', next), events)) :
      DeliveryMoves world now reading ⟨place, sent⟩ world' ⟨next, none⟩ (events.map .exchange)

variable {rt cfg req client reader up call}

theorem exchangeStep_cancel (world : GateWorld) (place : ExchangePhase) (now : Instant) :
    (exchangeStep rt cfg req client reader world place now .cancel).1.2.gate = .ended := by
  obtain ⟨phase, n, asleep⟩ := place
  cases phase with
  | verifying attempt => cases asleep <;> exact finish_phase _ _ _ _
  | settling attempt response => cases asleep <;> exact finish_phase _ _ _ _
  | handling attempt => exact finish_phase _ _ _ _
  | _ => rfl

/-- While the handler runs a request waits for nothing else. -/
theorem exchangeStep_handling (world : GateWorld) {place : ExchangePhase}
    {attempt : PaymentAttempt} (hplace : place.gate = .handling attempt) (now : Instant)
    {input : ExchangeInput} (hinput : ∀ response, input ≠ .handled response)
    (hcancel : input ≠ .cancel) :
    exchangeStep rt cfg req client reader world place now input = ((world, place), []) := by
  obtain ⟨phase, state⟩ := place
  obtain rfl : phase = .handling attempt := hplace
  cases input with
  | handled response => exact absurd rfl (hinput response)
  | cancel => contradiction
  | _ => rfl

theorem deliveryStep_moves (world : GateWorld) (place : DeliveryPhase) (now reading : Instant)
    (input : DeliveryInput) :
    DeliveryMoves rt cfg req client reader up call world now reading place
      (deliveryStep rt cfg req client reader up call world place now (input.readAt reading)).1.1
      (deliveryStep rt cfg req client reader up call world place now (input.readAt reading)).1.2
      (deliveryStep rt cfg req client reader up call world place now
        (input.readAt reading)).2 := by
  obtain ⟨place, sent⟩ := place
  have hexchanged : ∀ input : ExchangeInput, (∀ response, input ≠ .handled response) →
      (∀ response, input.readAt reading ≠ .handled response) →
      input.readAt reading ≠ .cancel →
      DeliveryMoves rt cfg req client reader up call world now reading ⟨place, sent⟩
        (exchangeMove rt cfg req client reader sent world place now (input.readAt reading)).1.1
        (exchangeMove rt cfg req client reader sent world place now (input.readAt reading)).1.2
        (exchangeMove rt cfg req client reader sent world place now
          (input.readAt reading)).2 := by
    intro input hinput hread hcancel
    refine .exchanged place sent input _ _ _ hinput (fun attempt hplace => ?_) rfl
    rw [exchangeStep_handling world hplace now hread hcancel]
    exact ⟨rfl, rfl⟩
  cases input with
  | exchange input =>
      cases input with
      | handled response => exact .ignored _
      | cancel => exact .dropped place sent _ _ _ (exchangeStep_cancel world place now) rfl
      | poll wallClock reserveAt =>
          exact hexchanged (.poll wallClock reserveAt) (by simp) (by simp [ExchangeInput.readAt])
            (by simp [ExchangeInput.readAt])
      | answered reply elapsed =>
          exact hexchanged (.answered reply elapsed) (by simp) (by simp [ExchangeInput.readAt])
            (by simp [ExchangeInput.readAt])
      | woken =>
          exact hexchanged .woken (by simp) (by simp [ExchangeInput.readAt])
            (by simp [ExchangeInput.readAt])
  | read body =>
      obtain ⟨phase, state⟩ := place
      cases phase with
      | handling attempt =>
          cases sent with
          | some request => exact .ignored _
          | none =>
              simp only [DeliveryInput.readAt, deliveryStep]
              cases hrequest : upstreamRequest up { call with body := body } with
              | error refusal => exact .refused attempt state body refusal _ _ _ hrequest rfl
              | ok request => exact .forwarded attempt state body request hrequest
      | _ => exact .ignored _
  | served answer =>
      obtain ⟨phase, state⟩ := place
      cases phase with
      | handling attempt =>
          cases sent with
          | some request => exact .served attempt state request answer _ _ _ rfl
          | none => exact .ignored _
      | _ => exact .ignored _

/-- There is always an input that a request does not wait for. -/
theorem exchangeStep_idle (world : GateWorld) (place : ExchangePhase) (now reading : Instant) :
    ∃ input : ExchangeInput, exchangeStep rt cfg req client reader world place now
      (input.readAt reading) = ((world, place), []) := by
  obtain ⟨phase, n, asleep⟩ := place
  cases phase with
  | handling attempt => exact ⟨.woken, rfl⟩
  | verifying attempt => exact ⟨.handled ⟨0, [], []⟩, by cases asleep <;> rfl⟩
  | settling attempt response => exact ⟨.handled ⟨0, [], []⟩, by cases asleep <;> rfl⟩
  | _ => exact ⟨.handled ⟨0, [], []⟩, rfl⟩

theorem filterMap_exchangeEvent_map (events : List ExchangeEvent) :
    (events.map DeliveryEvent.exchange).filterMap DeliveryEvent.exchangeEvent = events := by
  rw [List.filterMap_map]
  exact List.filterMap_some

/-- Without the proxy's part of it a move is a step of gate and client. -/
theorem DeliveryMoves.shows {world world' : GateWorld} {now reading : Instant}
    {place place' : DeliveryPhase} {events : List DeliveryEvent}
    (hmoves : DeliveryMoves rt cfg req client reader up call world now reading place world'
      place' events) :
    ∃ shown : ExchangeInput, exchangeStep rt cfg req client reader world place.exchange now
        (shown.readAt reading) =
      ((world', place'.exchange), events.filterMap DeliveryEvent.exchangeEvent) := by
  cases hmoves with
  | ignored => exact exchangeStep_idle world _ now reading
  | forwarded => exact exchangeStep_idle world _ now reading
  | refused attempt state body refusal world' next events hrefused hstep =>
      exact ⟨.handled (refusal.response rt.codec), by
        rw [filterMap_exchangeEvent_map]
        exact hstep⟩
  | served attempt state request answer world' next events hstep =>
      exact ⟨.handled (proxyAnswer rt.codec answer), by
        rw [List.filterMap_cons_none rfl, filterMap_exchangeEvent_map]
        exact hstep⟩
  | exchanged place sent input world' next events hinput hkept hstep =>
      exact ⟨input, by
        rw [filterMap_exchangeEvent_map]
        exact hstep⟩
  | dropped place sent world' next events hended hstep =>
      exact ⟨.cancel, by
        rw [filterMap_exchangeEvent_map]
        exact hstep⟩

end Moves

section Returns

variable {rt : Runtime} {cfg : PaymentConfig} {req : Request} {client : FacilitatorClient}
  {reader : AnswerReader}

def GateEvent.isReturned : GateEvent → Bool
  | .handlerReturned _ => true
  | _ => false

theorem isReturned_finish {world : GateWorld} {reservation : Option PaymentNonceReservation}
    {now : Instant} {last : GateEvent} (hlast : last.isReturned = false) :
    ∀ event ∈ (finish rt cfg world reservation now last).2, event.isReturned = false := by
  unfold finish
  split
  · exact List.forall_mem_cons.mpr ⟨rfl, List.forall_mem_singleton.mpr hlast⟩
  · exact List.forall_mem_singleton.mpr hlast

theorem isReturned_ending {world : GateWorld} {reservation : Option PaymentNonceReservation}
    {now : Instant} {first last : GateEvent} (hfirst : first.isReturned = false)
    (hlast : last.isReturned = false) :
    ∀ event ∈ first :: (finish rt cfg world reservation now last).2, event.isReturned = false :=
  List.forall_mem_cons.mpr ⟨hfirst, isReturned_finish hlast⟩

theorem isReturned_arrive (world : GateWorld) (wallClock : Option UInt64)
    (reserveAt : Instant) :
    ∀ event ∈ (arrive rt cfg req world wallClock reserveAt).2, event.isReturned = false := by
  unfold arrive
  dsimp only
  split
  · exact List.forall_mem_singleton.mpr rfl
  · exact List.forall_mem_singleton.mpr rfl
  · split
    · exact List.forall_mem_singleton.mpr rfl
    · split <;> simp [GateEvent.isReturned]

/-- The gate reports a handler's response only as it comes in. -/
theorem isReturned_gateStep (world : GateWorld) (phase : GatePhase) (now : Instant)
    {input : GateInput} (hinput : ∀ response, input ≠ .handled response) :
    ∀ event ∈ (gateStep rt cfg req world phase now input).2, event.isReturned = false := by
  cases input with
  | poll wallClock reserveAt =>
      cases phase with
      | arrived => exact isReturned_arrive world wallClock reserveAt
      | _ => simp [gateStep]
  | verified result =>
      cases phase with
      | verifying attempt =>
          simp only [gateStep, afterVerify]
          split
          · exact isReturned_ending rfl rfl
          · split
            · simp [GateEvent.isReturned]
            · exact isReturned_ending rfl rfl
      | _ => simp [gateStep]
  | handled response => exact absurd rfl (hinput response)
  | settled result elapsed =>
      cases phase with
      | settling attempt response =>
          simp only [gateStep, afterSettle]
          split <;> exact isReturned_ending rfl rfl
      | _ => simp [gateStep]
  | cancel =>
      cases phase with
      | arrived => exact List.forall_mem_singleton.mpr rfl
      | ended => simp [gateStep]
      | _ => exact isReturned_finish rfl

/-- Of a handler's response the gate reports first, and once. -/
theorem gateStep_handled (world : GateWorld) (attempt : PaymentAttempt) (now : Instant)
    (response : Response) :
    ∃ rest, (gateStep rt cfg req world (.handling attempt) now (.handled response)).2 =
        .handlerReturned response :: rest ∧ ∀ event ∈ rest, event.isReturned = false := by
  simp only [gateStep, afterHandler]
  split
  · exact ⟨_, rfl, isReturned_finish rfl⟩
  · exact ⟨_, rfl, List.forall_mem_singleton.mpr rfl⟩

/-- The handler runs no more once it has returned. -/
theorem gateStep_handled_phase (world : GateWorld) (attempt other : PaymentAttempt)
    (now : Instant) (response : Response) :
    (gateStep rt cfg req world (.handling attempt) now (.handled response)).1.2 ≠
      .handling other := by
  simp only [gateStep, afterHandler]
  split
  · rw [finish_phase]
    simp
  · simp

/-- The handler's response, where an event is one. -/
def ExchangeEvent.isReturned : ExchangeEvent → Bool
  | .gate event => event.isReturned
  | _ => false

theorem isReturned_opened {events : List GateEvent}
    (hevents : ∀ event ∈ events, event.isReturned = false) :
    ∀ event ∈ events.flatMap (opened client), event.isReturned = false := by
  intro event hmem
  obtain ⟨inner, hinner, hopened⟩ := List.mem_flatMap.mp hmem
  have hreturned := hevents inner hinner
  cases inner with
  | handlerReturned => contradiction
  | verifyCalled => rcases List.mem_pair.mp hopened with rfl | rfl <;> rfl
  | settleCalled => rcases List.mem_pair.mp hopened with rfl | rfl <;> rfl
  | _ => rw [List.mem_singleton.mp hopened]; rfl

theorem isReturned_exchangeStep (world : GateWorld) (place : ExchangePhase)
    (now : Instant) {input : ExchangeInput} (hinput : ∀ response, input ≠ .handled response) :
    ∀ event ∈ (exchangeStep rt cfg req client reader world place now input).2,
      event.isReturned = false := by
  have hgate : ∀ phase (input : GateInput), (∀ response, input ≠ .handled response) →
      ∀ event ∈ (gateMove rt cfg req client world phase now input).2, event.isReturned = false :=
    fun phase input hinput => isReturned_opened (isReturned_gateStep world phase now hinput)
  obtain ⟨phase, n, asleep⟩ := place
  cases input with
  | poll wallClock reserveAt =>
      cases phase with
      | arrived => exact hgate .arrived (.poll wallClock reserveAt) (by simp)
      | verifying attempt => cases asleep <;> exact List.forall_mem_nil _
      | settling attempt response => cases asleep <;> exact List.forall_mem_nil _
      | _ => exact List.forall_mem_nil _
  | answered reply elapsed =>
      cases phase with
      | verifying attempt =>
          cases asleep with
          | true => exact List.forall_mem_nil _
          | false =>
              simp only [exchangeStep]
              cases client.judge .verify n (reader.readVerify reply) with
              | retry backoff =>
                  exact List.forall_mem_cons.mpr ⟨rfl, List.forall_mem_singleton.mpr rfl⟩
              | conclude result =>
                  exact List.forall_mem_cons.mpr
                    ⟨rfl, hgate (.verifying attempt) (.verified (tell result)) (by simp)⟩
      | settling attempt response =>
          cases asleep with
          | true => exact List.forall_mem_nil _
          | false =>
              simp only [exchangeStep]
              cases client.judge .settle n (reader.readSettle reply) with
              | retry backoff =>
                  exact List.forall_mem_cons.mpr ⟨rfl, List.forall_mem_singleton.mpr rfl⟩
              | conclude result =>
                  exact List.forall_mem_cons.mpr ⟨rfl,
                    hgate (.settling attempt response) (.settled (tell result) elapsed) (by simp)⟩
      | _ => exact List.forall_mem_nil _
  | woken =>
      cases phase with
      | verifying attempt =>
          cases asleep with
          | true => exact List.forall_mem_singleton.mpr rfl
          | false => exact List.forall_mem_nil _
      | settling attempt response =>
          cases asleep with
          | true => exact List.forall_mem_singleton.mpr rfl
          | false => exact List.forall_mem_nil _
      | _ => exact List.forall_mem_nil _
  | handled response => exact absurd rfl (hinput response)
  | cancel =>
      cases phase with
      | verifying attempt => cases asleep <;> exact hgate (.verifying attempt) .cancel (by simp)
      | settling attempt response =>
          cases asleep <;> exact hgate (.settling attempt response) .cancel (by simp)
      | ended => exact List.forall_mem_nil _
      | arrived => exact hgate .arrived .cancel (by simp)
      | handling attempt => exact hgate (.handling attempt) .cancel (by simp)

/-- Of the handler's response the exchange reports first, and once. -/
theorem exchangeStep_handled (world : GateWorld) (attempt : PaymentAttempt) (state : CallState)
    (now : Instant) (response : Response) :
    ∃ rest, (exchangeStep rt cfg req client reader world ⟨.handling attempt, state⟩ now
        (.handled response)).2 = .gate (.handlerReturned response) :: rest ∧
      ∀ event ∈ rest, event.isReturned = false := by
  obtain ⟨rest, hevents, hrest⟩ := @gateStep_handled rt cfg req world attempt now response
  refine ⟨rest.flatMap (opened client), ?_, isReturned_opened hrest⟩
  simp only [exchangeStep, gateMove, hevents, List.flatMap_cons]
  rfl

end Returns

section Invariant

variable (rt : Runtime) (up : UpstreamConfig) (call : ProxyCall)

/-- What the proxy answers, from what has just happened. -/
def ProxyReturned (before : List DeliveryEvent) (response : Response) : Prop :=
  (∃ body refusal, upstreamRequest up { call with body := body } = .error refusal ∧
    response = refusal.response rt.codec) ∨
  ∃ answer, before.getLast? = some (.served answer) ∧ response = proxyAnswer rt.codec answer

/-- What may come next between the gate and the upstream. -/
def DeliveryFollows (before : List DeliveryEvent) : DeliveryEvent → Prop
  | .forwarded request => before.getLast? = some (.exchange (.gate .handlerEntered)) ∧
      ∃ body, upstreamRequest up { call with body := body } = .ok request
  | .served _ => ∃ request, before.getLast? = some (.forwarded request)
  | .exchange (.gate (.handlerReturned response)) => ProxyReturned rt up call before response
  | .exchange _ => True

/-- Where the proxy stands, by what happened last. -/
structure Delivering (place : DeliveryPhase) (trace : List DeliveryEvent) : Prop where
  follows : Justified (DeliveryFollows rt up call) trace
  handling : ∀ attempt, place.exchange.gate = .handling attempt → trace.getLast? =
    some (place.sent.elim (.exchange (.gate .handlerEntered)) .forwarded)
  idle : (∀ attempt, place.exchange.gate ≠ .handling attempt) → place.sent = none

variable {rt up call} {cfg : PaymentConfig} {req : Request} {client : FacilitatorClient}
  {reader : AnswerReader} {world world' : GateWorld} {now reading : Instant}

theorem Delivering.start : Delivering rt up call .start [] where
  follows := justified_nil _
  handling attempt h := by contradiction
  idle _ := rfl

theorem DeliveryFollows.silent {before : List DeliveryEvent} {event : ExchangeEvent}
    (hevent : event.isReturned = false) :
    DeliveryFollows rt up call before (.exchange event) := by
  cases event with
  | gate event =>
      cases event with
      | handlerReturned => contradiction
      | _ => trivial
  | _ => trivial

theorem justified_silent {events : List ExchangeEvent}
    (hevents : ∀ event ∈ events, event.isReturned = false) (before : List DeliveryEvent) :
    Justified (fun more => DeliveryFollows rt up call (before ++ more))
      (events.map .exchange) := by
  apply justified_of_forall
  intro event hmem more
  obtain ⟨inner, hinner, rfl⟩ := List.mem_map.mp hmem
  exact .silent (hevents inner hinner)

/-- A request comes to its handler by the step that enters it. -/
theorem ExchangeMoves.entering {place place' : ExchangePhase} {events : List ExchangeEvent}
    (hmoves : ExchangeMoves rt cfg req client reader world now reading place world' place'
      events) {attempt : PaymentAttempt} (hnext : place'.gate = .handling attempt) :
    (place' = place ∧ events = []) ∨
      (∀ other, place.gate ≠ .handling other) ∧
        events.getLast? = some (.gate .handlerEntered) := by
  cases hmoves with
  | ignored => exact Or.inl ⟨rfl, rfl⟩
  | gate phase state input world' next events hawaits hinput hinput' hread hstep =>
      have hturns : GateTurns phase input (gateStep rt cfg req world phase now input).1.2
          (gateStep rt cfg req world phase now input).2 := gateStep_turns world now hawaits
      rw [hstep] at hturns
      obtain rfl : next = .handling attempt := hnext
      cases hturns with
      | enters other next result => exact absurd rfl (hinput result)
  | retried => contradiction
  | woken => contradiction
  | verified other n reply world' next events hstep =>
      have hturns : GateTurns (.verifying other) (.verified (tell (reader.readVerify reply)))
          (gateStep rt cfg req world (.verifying other) now
            (.verified (tell (reader.readVerify reply)))).1.2
          (gateStep rt cfg req world (.verifying other) now
            (.verified (tell (reader.readVerify reply)))).2 := gateStep_turns world now rfl
      rw [hstep] at hturns
      obtain rfl : next = .handling attempt := hnext
      cases hturns with
      | enters other next result =>
          exact Or.inr ⟨fun other heq => by contradiction, by simp [opened]⟩
  | settled other response n reply elapsed world' next events hstep =>
      have hturns : GateTurns (.settling other response)
          (.settled (tell (reader.readSettle reply)) elapsed)
          (gateStep rt cfg req world (.settling other response) now
            (.settled (tell (reader.readSettle reply)) elapsed)).1.2
          (gateStep rt cfg req world (.settling other response) now
            (.settled (tell (reader.readSettle reply)) elapsed)).2 := gateStep_turns world now rfl
      rw [hstep] at hturns
      obtain rfl : next = .handling attempt := hnext
      cases hturns

/-- The proxy hands its response to the gate. -/
theorem Delivering.returned {place : DeliveryPhase} {trace said : List DeliveryEvent}
    (hdelivering : Delivering rt up call place trace)
    (hsaid : Justified (fun more => DeliveryFollows rt up call (trace ++ more)) said)
    {attempt : PaymentAttempt} {state : CallState} {response : Response}
    (hreturned : ProxyReturned rt up call (trace ++ said) response) {next : ExchangePhase}
    {events : List ExchangeEvent}
    (hstep : exchangeStep rt cfg req client reader world ⟨.handling attempt, state⟩ now
      (.handled response) = ((world', next), events)) :
    Delivering rt up call ⟨next, none⟩ (trace ++ (said ++ events.map .exchange)) := by
  obtain ⟨rest, hevents, hrest⟩ :=
    @exchangeStep_handled rt cfg req client reader world attempt state now response
  have hnext : ∀ other, (exchangeStep rt cfg req client reader world
      ⟨.handling attempt, state⟩ now (.handled response)).1.2.gate ≠ .handling other :=
    fun other => gateStep_handled_phase world attempt other now response
  rw [hstep] at hevents hnext
  obtain rfl : events = .gate (.handlerReturned response) :: rest := hevents
  refine ⟨?_, fun other hother => absurd hother (hnext other), fun _ => rfl⟩
  rw [justified_append, justified_append]
  refine ⟨hdelivering.follows, hsaid, ?_⟩
  simp only [← List.append_assoc]
  rw [List.map_cons, justified_cons]
  refine ⟨by rwa [List.append_nil], ?_⟩
  have hsilent := @justified_silent rt up call rest hrest
    (trace ++ said ++ [.exchange (.gate (.handlerReturned response))])
  simpa using hsilent

/-- Every move keeps the invariant. -/
theorem Delivering.step {place place' : DeliveryPhase} {trace events : List DeliveryEvent}
    (hdelivering : Delivering rt up call place trace)
    (hawake : ∀ attempt response, place.exchange.gate = .settling attempt response →
      place.exchange.call.asleep = false)
    (hmoves : DeliveryMoves rt cfg req client reader up call world now reading place world'
      place' events) : Delivering rt up call place' (trace ++ events) := by
  cases hmoves with
  | ignored =>
      rw [List.append_nil]
      exact hdelivering
  | refused attempt state body refusal world' next events hrefused hstep =>
      exact hdelivering.returned (justified_nil _) (Or.inl ⟨body, refusal, hrefused, rfl⟩) hstep
  | forwarded attempt state body request hrequest =>
      refine ⟨hdelivering.follows.concat ⟨hdelivering.handling attempt rfl, body, hrequest⟩,
        fun other _ => List.getLast?_concat, fun hother => absurd rfl (hother attempt)⟩
  | served attempt state request answer world' next events hstep =>
      have hserved : Justified (fun more => DeliveryFollows rt up call (trace ++ more))
          [.served answer] := by
        simpa [DeliveryFollows] using ⟨request, hdelivering.handling attempt rfl⟩
      exact hdelivering.returned hserved (Or.inr ⟨answer, List.getLast?_concat, rfl⟩) hstep
  | exchanged place sent input world' next events hinput hkept hstep =>
      have hread : ∀ response, input.readAt reading ≠ .handled response := by
        intro response heq
        cases input with
        | handled other => exact hinput other rfl
        | _ => contradiction
      have hsilent := @isReturned_exchangeStep rt cfg req client reader world place now _ hread
      have hexchange := @exchangeStep_moves rt cfg req client reader world place now reading input
        hawake
      rw [hstep] at hsilent hexchange
      refine ⟨?_, fun attempt hnext => ?_, fun hnext => ?_⟩
      · rw [justified_append]
        exact ⟨hdelivering.follows, justified_silent hsilent trace⟩
      · rcases hexchange.entering hnext with ⟨rfl, rfl⟩ | ⟨hother, hlast⟩
        · rw [List.map_nil, List.append_nil]
          exact hdelivering.handling attempt hnext
        · obtain rfl : sent = none := hdelivering.idle hother
          rw [List.getLast?_append, List.getLast?_map, hlast]
          rfl
      · refine hdelivering.idle fun attempt hplace => ?_
        obtain ⟨rfl, -⟩ := hkept attempt hplace
        exact hnext attempt hplace
  | dropped place sent world' next events hended hstep =>
      have hsilent := @isReturned_exchangeStep rt cfg req client reader world place now .cancel
        (by simp)
      rw [hstep] at hsilent
      refine ⟨?_, fun attempt hnext => ?_, fun _ => rfl⟩
      · rw [justified_append]
        exact ⟨hdelivering.follows, justified_silent hsilent trace⟩
      · rw [hended] at hnext
        contradiction

end Invariant

end KiteX402
