/-
The circuit breaker in front of the facilitator.
-/
import KiteX402.Service

namespace KiteX402

inductive CircuitBreakerError where
  | circuitOpen (retryAfterSecs : ℕ)
deriving DecidableEq

inductive CircuitState where
  | closed
  | opened
  | halfOpen
deriving DecidableEq

structure CircuitBreakerConfig where
  failureThreshold : UInt32
  recoveryTimeout : Duration
  halfOpenSuccessThreshold : UInt32

/-- `CircuitBreakerConfig::default()`. -/
def CircuitBreakerConfig.default : CircuitBreakerConfig :=
  ⟨5, Duration.fromSecs 30, 2⟩

/-- `Inner`. -/
structure CircuitBreaker where
  state : CircuitState
  consecutiveFailures : UInt32
  consecutiveSuccesses : UInt32
  lastStateChange : Instant
  totalRejected : UInt64
  totalTrips : UInt64

/-- `Duration::as_secs`. -/
def Duration.wholeSecs (duration : Duration) : ℕ := duration / nanosPerSec

namespace CircuitBreaker

/-- `CircuitBreaker::with_config`. -/
def new (now : Instant) : CircuitBreaker := ⟨.closed, 0, 0, now, 0, 0⟩

def enterHalfOpen (now : Instant) (breaker : CircuitBreaker) : CircuitBreaker :=
  { breaker with state := .halfOpen, consecutiveSuccesses := 0, lastStateChange := now }

def trip (now : Instant) (breaker : CircuitBreaker) : CircuitBreaker :=
  { breaker with
    state := .opened, totalTrips := breaker.totalTrips + 1, lastStateChange := now }

variable (config : CircuitBreakerConfig) (now : Instant)

/-- `CircuitBreaker::can_execute`. -/
def canExecute (breaker : CircuitBreaker) :
    CircuitBreaker × Except CircuitBreakerError Unit :=
  match breaker.state with
  | .closed | .halfOpen => (breaker, .ok ())
  | .opened =>
      let elapsed := now - breaker.lastStateChange
      if config.recoveryTimeout ≤ elapsed then (breaker.enterHalfOpen now, .ok ())
      else
        let remaining := config.recoveryTimeout - elapsed
        ({ breaker with totalRejected := breaker.totalRejected + 1 },
          .error (.circuitOpen (max (Duration.wholeSecs remaining) 1)))

/-- `CircuitBreaker::record_success`. -/
def recordSuccess (breaker : CircuitBreaker) : CircuitBreaker :=
  let breaker := { breaker with consecutiveFailures := 0 }
  if breaker.state = .halfOpen then
    let successes := breaker.consecutiveSuccesses + 1
    if config.halfOpenSuccessThreshold ≤ successes then
      { breaker with
        state := .closed, consecutiveSuccesses := 0, lastStateChange := now }
    else { breaker with consecutiveSuccesses := successes }
  else breaker

/-- `CircuitBreaker::record_failure`. -/
def recordFailure (breaker : CircuitBreaker) : CircuitBreaker :=
  let breaker := { breaker with
    consecutiveFailures := breaker.consecutiveFailures + 1
    consecutiveSuccesses := 0 }
  match breaker.state with
  | .closed =>
      if config.failureThreshold ≤ breaker.consecutiveFailures then breaker.trip now
      else breaker
  | .halfOpen => breaker.trip now
  | .opened => breaker

/-- `CircuitBreaker::state`, which reads the clock again, at `later`, when it
moves on. -/
def observeState (later : Instant) (breaker : CircuitBreaker) :
    CircuitBreaker × CircuitState :=
  if breaker.state = .opened ∧
      config.recoveryTimeout ≤ now - breaker.lastStateChange then
    (breaker.enterHalfOpen later, .halfOpen)
  else (breaker, breaker.state)

inductive Call where
  | canExecute
  | recordSuccess
  | recordFailure
  | state (pause : Duration)
deriving DecidableEq

inductive Result where
  | executed (result : Except CircuitBreakerError Unit)
  | recorded
  | observed (state : CircuitState)
deriving DecidableEq

def answer (breaker : CircuitBreaker) : Call → CircuitBreaker × Result
  | .canExecute =>
      ((breaker.canExecute config now).1, .executed (breaker.canExecute config now).2)
  | .recordSuccess => (breaker.recordSuccess config now, .recorded)
  | .recordFailure => (breaker.recordFailure config now, .recorded)
  | .state pause =>
      ((breaker.observeState config now (now + pause)).1,
        .observed (breaker.observeState config now (now + pause)).2)

def Call.lasts : Call → Duration
  | .state pause => pause
  | _ => 0

def service : Service CircuitBreaker Call Result := ⟨answer config, Call.lasts⟩

/-- A session with a new breaker; the history shows its state. -/
def run (start : Instant) (calls : List (Timed Call)) :
    Session CircuitBreaker × List (Answered Call (Observed CircuitBreaker Result)) :=
  (service config).observed.run start (new start) calls

theorem run_concat (start : Instant) (calls : List (Timed Call)) (timed : Timed Call) :
    run config start (calls ++ [timed]) =
      let session := (run config start calls).1
      let time := session.now + timed.elapsed
      let answered := answer config time session.state timed.call
      (⟨time + timed.call.lasts, answered.1⟩,
        (run config start calls).2 ++
          [⟨time, timed.call, ⟨session.state, answered.2, answered.1⟩⟩]) :=
  (service config).observed.run_concat start (new start) calls timed

end CircuitBreaker

end KiteX402
