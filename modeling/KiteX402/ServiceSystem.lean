/-
The whole service under concurrent requests: cross-origin sharing around the
request logger, around the security headers, around the routes; under `/v1` the
concurrency limiter, around the rate limiter, around the payment gate.  A step
of a request takes at most one lock or one permit, together with the counters
that it updates on the way: coming in and leaving update several of them.  Steps
of different requests interleave freely.
-/
import KiteX402.Census
import KiteX402.Cors
import KiteX402.GateSystem
import KiteX402.ServiceLayers

namespace KiteX402

namespace Wrapper

/-- The service as `main` puts it together. -/
structure Config where
  rt : Runtime
  payment : PaymentConfig
  limiter : Option RateLimitLayer
  maxConcurrent : ℕ
  security : SecurityHeadersConfig
  cors : CorsConfig

/-- A request as the listener hands it over; `metered` tells whether the router
takes it to the routes under `/v1`. -/
structure Arrival where
  method : String
  request : Request
  peer : Option IpAddr
  metered : Bool

namespace Arrival

/-- What cross-origin sharing reads of a request. -/
def corsRequest (arrival : Arrival) : CorsRequest := ⟨arrival.method, arrival.request.headers⟩

/-- The request inside the logger. -/
def tagged (arrival : Arrival) (id : String) : Request :=
  { arrival.request with headers := tagRequest id arrival.request.headers }

end Arrival

/-- What requests share. -/
structure World where
  gate : GateWorld
  buckets : BucketStore
  permits : ℕ
  metrics : ServiceMetrics
  requestCounter : UInt64

/-- Where a request stands, from outside in and back out.  A response that is
missing is that of a future that was dropped or has panicked. -/
inductive Phase where
  | arrived
  | entered (id : String)
  | free (id : String)
  | seated (id : String)
  | gated (id : String) (remaining : Option ℕ) (phase : GatePhase)
  | returning (id : String) (response : Option Response)
  | departing (id : String) (response : Option Response)
  | departed

/-- What lets a request go on: its first poll, which reads the system clock,
nothing at all, the answer of a free route, or an input of the gate. -/
inductive Input where
  | enter (unixMillis : BitVec 128)
  | proceed
  | answered (response : Response)
  | gate (input : GateInput)
  | cancel

inductive Event where
  | preflight (response : Response)
  | entered (id : String) (generated : Bool)
  | busy
  | limiter (event : LimiterEvent)
  | gate (event : GateEvent)
  | replied (response : Response)
  | dropped

/-- The reply among the last events of a gate, if it made one. -/
def gateReply : List GateEvent → Option Response
  | [] => none
  | .replied response :: _ => some response
  | _ :: rest => gateReply rest

section Step

variable (cfg : Config) (arrival : Arrival)

/-- A preflight is answered outside the logger. -/
def Config.answersPreflight : Bool := cfg.cors.isEnabled && arrival.corsRequest.isPreflight

def enter (world : World) (unixMillis : BitVec 128) : (World × Phase) × List Event :=
  if cfg.answersPreflight arrival then
    ((world, .departed), [.preflight (preflightResponse cfg.cors
      (arrival.corsRequest.origin.bind cfg.cors.matchOrigin))])
  else
    let (id, counter) :=
      resolveRequestId arrival.request.headers unixMillis world.requestCounter
    (({ world with metrics := world.metrics.enter, requestCounter := counter }, .entered id),
      [.entered id (counter ≠ world.requestCounter)])

/-- `concurrency_limiter` in front of the metered routes. -/
def route (world : World) (id : String) : (World × Phase) × List Event :=
  if arrival.metered then
    if world.permits = 0 then
      ((world, .departing id (some (serviceBusy cfg.rt.codec))), [.busy])
    else (({ world with permits := world.permits - 1 }, .seated id), [])
  else ((world, .free id), [])

/-- `rate_limit_middleware` in front of the gate. -/
def limit (world : World) (id : String) (reading : Instant) : (World × Phase) × List Event :=
  match cfg.limiter with
  | none => ((world, .gated id none .arrived), [])
  | some layer =>
      let checked := layer.check cfg.rt.codec cfg.rt.clock (arrival.tagged id).headers
        arrival.peer world.buckets reading
      let world := { world with buckets := checked.1.2 }
      match checked.1.1 with
      | .ok remaining => ((world, .gated id (some remaining) .arrived), checked.2.map .limiter)
      | .error response =>
          ((world, .returning id (some response)), checked.2.map .limiter)

/-- What the rate limiter does to the reply of an admitted request. -/
def annotate (remaining : Option ℕ) (response : Response) : Response :=
  match cfg.limiter, remaining with
  | some layer, some remaining => layer.annotate remaining response
  | _, _ => response

def passGate (world : World) (id : String) (remaining : Option ℕ) (phase : GatePhase)
    (now reading : Instant) (input : GateInput) : (World × Phase) × List Event :=
  let next := gateStep cfg.rt cfg.payment (arrival.tagged id) world.gate phase now
    (input.readAt reading)
  let phase := match next.1.2 with
    | .ended => .returning id ((gateReply next.2).map (annotate cfg remaining))
    | phase => .gated id remaining phase
  (({ world with gate := next.1.1 }, phase), next.2.map .gate)

/-- What the outer layers make of an inner response. -/
def finishReply (id : String) (response : Response) : Response :=
  let response := securityHeadersMiddleware cfg.security response
  corsMiddleware cfg.cors arrival.corsRequest
    { response with headers := tagResponse id response.headers }

/-- The rest of `http_request_logger`, up to the drop of its guard. -/
def depart (world : World) (id : String) (response : Option Response) :
    (World × Phase) × List Event :=
  match response with
  | some response =>
      (({ world with metrics := (world.metrics.record response.status).leave }, .departed),
        [.replied (finishReply cfg arrival id response)])
  | none => (({ world with metrics := world.metrics.leave }, .departed), [.dropped])

/-- One step of a request; an input that it does not wait for changes nothing. -/
def step (world : World) (phase : Phase) (now reading : Instant) (input : Input) :
    (World × Phase) × List Event :=
  match phase, input with
  | .arrived, .enter unixMillis => enter cfg arrival world unixMillis
  | .arrived, .cancel => ((world, .departed), [])
  | .entered id, .proceed => route cfg arrival world id
  | .free id, .answered response => ((world, .departing id (some response)), [])
  | .free id, .cancel => ((world, .departing id none), [])
  | .seated id, .proceed => limit cfg arrival world id reading
  | .gated id remaining phase, .gate input =>
      passGate cfg arrival world id remaining phase now reading input
  | .returning id response, .proceed =>
      (({ world with permits := world.permits + 1 }, .departing id response), [])
  | .departing id response, .proceed => depart cfg arrival world id response
  | phase, _ => ((world, phase), [])

/-- All that a step can do. -/
inductive Moves (world : World) (now reading : Instant) :
    Phase → World → Phase → List Event → Prop where
  | stayed (phase) : Moves world now reading phase world phase []
  | forgotten : Moves world now reading .arrived world .departed []
  | preflight (hpreflight : cfg.answersPreflight arrival = true) :
      Moves world now reading .arrived world .departed [.preflight (preflightResponse cfg.cors
        (arrival.corsRequest.origin.bind cfg.cors.matchOrigin))]
  | entered (unixMillis id counter) (hinner : cfg.answersPreflight arrival = false)
      (hresolved : resolveRequestId arrival.request.headers unixMillis world.requestCounter =
        (id, counter)) :
      Moves world now reading .arrived
        { world with metrics := world.metrics.enter, requestCounter := counter } (.entered id)
        [.entered id (counter ≠ world.requestCounter)]
  | freed (id) (hfree : arrival.metered = false) :
      Moves world now reading (.entered id) world (.free id) []
  | seated (id) (hmetered : arrival.metered = true) (hroom : 0 < world.permits) :
      Moves world now reading (.entered id) { world with permits := world.permits - 1 }
        (.seated id) []
  | busy (id) (hmetered : arrival.metered = true) (hfull : world.permits = 0) :
      Moves world now reading (.entered id) world
        (.departing id (some (serviceBusy cfg.rt.codec))) [.busy]
  | answered (id response) : Moves world now reading (.free id) world (.departing id response) []
  | unlimited (id) (hlimiter : cfg.limiter = none) :
      Moves world now reading (.seated id) world (.gated id none .arrived) []
  | admitted (id layer remaining buckets calls) (hlimiter : cfg.limiter = some layer)
      (hcheck : layer.check cfg.rt.codec cfg.rt.clock (arrival.tagged id).headers arrival.peer
        world.buckets reading = ((.ok remaining, buckets), calls)) :
      Moves world now reading (.seated id) { world with buckets := buckets }
        (.gated id (some remaining) .arrived) (calls.map .limiter)
  | refused (id layer response buckets calls) (hlimiter : cfg.limiter = some layer)
      (hcheck : layer.check cfg.rt.codec cfg.rt.clock (arrival.tagged id).headers arrival.peer
        world.buckets reading = ((.error response, buckets), calls)) :
      Moves world now reading (.seated id) { world with buckets := buckets }
        (.returning id (some response)) (calls.map .limiter)
  | gated (id remaining phase) (input : GateInput) (gate phase' events)
      (hstep : gateStep cfg.rt cfg.payment (arrival.tagged id) world.gate phase now
        (input.readAt reading) = ((gate, phase'), events)) (hphase : phase' ≠ .ended) :
      Moves world now reading (.gated id remaining phase) { world with gate := gate }
        (.gated id remaining phase') (events.map .gate)
  | through (id remaining phase) (input : GateInput) (gate events)
      (hstep : gateStep cfg.rt cfg.payment (arrival.tagged id) world.gate phase now
        (input.readAt reading) = ((gate, .ended), events)) :
      Moves world now reading (.gated id remaining phase) { world with gate := gate }
        (.returning id ((gateReply events).map (annotate cfg remaining))) (events.map .gate)
  | released (id response) :
      Moves world now reading (.returning id response)
        { world with permits := world.permits + 1 } (.departing id response) []
  | departed (id response) :
      Moves world now reading (.departing id (some response))
        { world with metrics := (world.metrics.record response.status).leave } .departed
        [.replied (finishReply cfg arrival id response)]
  | dropped (id) :
      Moves world now reading (.departing id none)
        { world with metrics := world.metrics.leave } .departed [.dropped]

variable {cfg arrival}

theorem enter_moves (world : World) (now reading : Instant) (unixMillis : BitVec 128) :
    let next := enter cfg arrival world unixMillis
    Moves cfg arrival world now reading .arrived next.1.1 next.1.2 next.2 := by
  intro next
  unfold next enter
  cases hpreflight : cfg.answersPreflight arrival with
  | true => exact .preflight hpreflight
  | false => exact .entered unixMillis _ _ hpreflight rfl

theorem route_moves (world : World) (now reading : Instant) (id : String) :
    let next := route cfg arrival world id
    Moves cfg arrival world now reading (.entered id) next.1.1 next.1.2 next.2 := by
  intro next
  unfold next route
  cases hmetered : arrival.metered with
  | false => exact .freed id hmetered
  | true =>
      by_cases hfull : world.permits = 0
      · rw [if_pos rfl, if_pos hfull]
        exact .busy id hmetered hfull
      · rw [if_pos rfl, if_neg hfull]
        exact .seated id hmetered (Nat.pos_of_ne_zero hfull)

theorem limit_moves (world : World) (now reading : Instant) (id : String) :
    let next := limit cfg arrival world id reading
    Moves cfg arrival world now reading (.seated id) next.1.1 next.1.2 next.2 := by
  intro next
  unfold next limit
  cases hlimiter : cfg.limiter with
  | none => exact .unlimited id hlimiter
  | some layer =>
      rcases hcheck : layer.check cfg.rt.codec cfg.rt.clock (arrival.tagged id).headers
        arrival.peer world.buckets reading with ⟨⟨result, buckets⟩, calls⟩
      simp only [hcheck]
      cases result with
      | ok remaining => exact .admitted id layer remaining buckets calls hlimiter hcheck
      | error response => exact .refused id layer response buckets calls hlimiter hcheck

theorem passGate_moves (world : World) (id : String) (remaining : Option ℕ) (phase : GatePhase)
    (now reading : Instant) (input : GateInput) :
    let next := passGate cfg arrival world id remaining phase now reading input
    Moves cfg arrival world now reading (.gated id remaining phase) next.1.1 next.1.2
      next.2 := by
  intro next
  rcases hstep : gateStep cfg.rt cfg.payment (arrival.tagged id) world.gate phase now
    (input.readAt reading) with ⟨⟨gate, phase'⟩, events⟩
  have hgated : phase' ≠ .ended → Moves cfg arrival world now reading
      (.gated id remaining phase) { world with gate := gate } (.gated id remaining phase')
      (events.map .gate) :=
    .gated id remaining phase input gate phase' events hstep
  unfold next passGate
  simp only [hstep]
  cases phase' with
  | ended => exact .through id remaining phase input gate events hstep
  | arrived => exact hgated (by simp)
  | verifying attempt => exact hgated (by simp)
  | handling attempt => exact hgated (by simp)
  | settling attempt response => exact hgated (by simp)

theorem depart_moves (world : World) (now reading : Instant) (id : String)
    (response : Option Response) :
    let next := depart cfg arrival world id response
    Moves cfg arrival world now reading (.departing id response) next.1.1 next.1.2 next.2 := by
  cases response with
  | none => exact .dropped id
  | some response => exact .departed id response

theorem step_moves (world : World) (phase : Phase) (now reading : Instant) (input : Input) :
    let next := step cfg arrival world phase now reading input
    Moves cfg arrival world now reading phase next.1.1 next.1.2 next.2 := by
  have hstay : Moves cfg arrival world now reading phase world phase [] := .stayed phase
  cases phase with
  | arrived =>
      cases input with
      | enter unixMillis => exact enter_moves world now reading unixMillis
      | cancel => exact .forgotten
      | _ => exact hstay
  | entered id =>
      cases input with
      | proceed => exact route_moves world now reading id
      | _ => exact hstay
  | free id =>
      cases input with
      | answered response => exact .answered id (some response)
      | cancel => exact .answered id none
      | _ => exact hstay
  | seated id =>
      cases input with
      | proceed => exact limit_moves world now reading id
      | _ => exact hstay
  | gated id remaining phase =>
      cases input with
      | gate input => exact passGate_moves world id remaining phase now reading input
      | _ => exact hstay
  | returning id response =>
      cases input with
      | proceed => exact .released id response
      | _ => exact hstay
  | departing id response =>
      cases input with
      | proceed => exact depart_moves world now reading id response
      | _ => exact hstay
  | departed => cases input <;> exact hstay

end Step

structure State where
  world : World
  clock : Instant
  phases : ℕ → Phase

/-- One request takes a step, `elapsed` after the last step of any; `lag` is how
long before it got a lock it read the clock. -/
structure Action where
  request : ℕ
  elapsed : Duration
  lag : Duration
  input : Input

structure Record where
  request : ℕ
  time : Instant
  event : Event

/-- Nothing has been asked of the service yet. -/
def State.start (cfg : Config) (clock : Instant) : State where
  world := {
    gate := ⟨NonceStore.empty, PaymentMetrics.new⟩
    buckets := ∅
    permits := cfg.maxConcurrent
    metrics := ServiceMetrics.new clock
    requestCounter := 1 }
  clock := clock
  phases := fun _ => .arrived

section Machine

variable (cfg : Config) (arrivals : ℕ → Arrival)

/-- The step of the request that acts. -/
def move (state : State) (action : Action) : (World × Phase) × List Event :=
  let now := state.clock + action.elapsed
  step cfg (arrivals action.request) state.world (state.phases action.request) now
    (now - action.lag) action.input

def machine : Machine State Action Record :=
  ⟨fun state action =>
    let now := state.clock + action.elapsed
    let next := move cfg arrivals state action
    (⟨next.1.1, now, Function.update state.phases action.request next.1.2⟩,
      next.2.map fun event => ⟨action.request, now, event⟩)⟩

/-- The run of a list of actions from the start of the service. -/
def run (clock : Instant) (actions : List Action) : State × List Record :=
  (machine cfg arrivals).run (.start cfg clock) actions

/-- Events as one request made them at one time. -/
def stamp (i : ℕ) (now : Instant) (events : List Event) : List Record :=
  events.map fun event => ⟨i, now, event⟩

/-- The invariant rule of the service: what every move of a request keeps holds
after every run. -/
theorem run_induction {P : State → List Record → Prop} {clock : Instant}
    (hstart : P (.start cfg clock) [])
    (hmove : ∀ (state : State) records i now reading world phase events, P state records →
      state.clock ≤ now → reading ≤ now →
      Moves cfg (arrivals i) state.world now reading (state.phases i) world phase events →
      P ⟨world, now, Function.update state.phases i phase⟩ (records ++ stamp i now events))
    (actions : List Action) :
    P (run cfg arrivals clock actions).1 (run cfg arrivals clock actions).2 :=
  (machine cfg arrivals).run_induction hstart (fun state records action hP =>
    hmove state records action.request (state.clock + action.elapsed) _ _ _ _ hP
      (Nat.le_add_right _ _) (Nat.sub_le _ action.lag)
      (step_moves state.world (state.phases action.request) _ _ action.input)) actions

end Machine

end Wrapper

end KiteX402
