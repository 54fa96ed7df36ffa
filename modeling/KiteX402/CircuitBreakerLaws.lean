/-
When the circuit breaker opens, cools down and closes again.
-/
import KiteX402.CircuitBreakerHistory

namespace KiteX402

namespace CircuitBreaker

/-- A breaker that opened is open until it has cooled down. -/
def Cooling (config : CircuitBreakerConfig) (now : Instant) (breaker : CircuitBreaker)
    (history : List Event) : Prop :=
  ∀ first trip rest, history = first ++ trip :: rest → Enters .opened trip →
    now < trip.time + config.recoveryTimeout →
      breaker.state = .opened ∧ breaker.lastStateChange = trip.time

/-- The successes since the breaker went half open, with no failure among
them. -/
def Trial (history : List Event) (successes : ℕ) : Prop :=
  ∃ first enter rest, history = first ++ enter :: rest ∧ Enters .halfOpen enter ∧
    (∀ event ∈ rest, event.call ≠ .recordFailure ∧
      event.result.after.state = .halfOpen) ∧
    rest.countP isSuccess = successes

/-- The state of the breaker, tied to what was recorded. -/
structure Tied (config : CircuitBreakerConfig) (now : Instant)
    (breaker : CircuitBreaker) (history : List Event) : Prop where
  counted : Counted history breaker
  past : breaker.lastStateChange ≤ now
  closed : breaker.state = .closed → failuresSince history < config.failureThreshold.toNat
  cooling : Cooling config now breaker history
  trial : breaker.state = .halfOpen → Trial history breaker.consecutiveSuccesses.toNat ∧
    breaker.consecutiveSuccesses.toNat < config.halfOpenSuccessThreshold.toNat

section Step

variable {config : CircuitBreakerConfig} {now time : Instant}
  {before after : CircuitBreaker} {call : Call} {result : Result}
  {history : List Event}

theorem Move.past (hmove : Move config time before call after)
    (hpast : before.lastStateChange ≤ time) :
    after.lastStateChange ≤ time + call.lasts := by
  have hwait : before.lastStateChange ≤ time + call.lasts :=
    hpast.trans (Nat.le_add_right _ _)
  cases hmove with
  | quiet hcall rejected => exact hwait
  | probe hcall hopen hover => exact Nat.le_refl _
  | succeed hstate => exact hwait
  | count hstate hless => exact hwait
  | close hstate henough => exact Nat.le_add_right _ _
  | fail hstate => exact hwait
  | trip hstate => exact Nat.le_add_right _ _

/-- Nothing moves a breaker that has not cooled down. -/
theorem Move.stays_open (hmove : Move config time before call after)
    (hopen : before.state = .opened)
    (hearly : time - before.lastStateChange < config.recoveryTimeout) :
    after.state = .opened ∧ after.lastStateChange = before.lastStateChange := by
  cases hmove with
  | quiet hcall rejected => exact ⟨hopen, rfl⟩
  | probe hcall _ hover => exact absurd hover (not_le.mpr hearly)
  | succeed hstate => exact ⟨hopen, rfl⟩
  | count hstate hless => simp [hopen] at hstate
  | close hstate henough => simp [hopen] at hstate
  | fail hstate => exact ⟨hopen, rfl⟩
  | trip hstate => simp [hopen] at hstate

theorem Cooling.early (hcooling : Cooling config now before history)
    (hpast : before.lastStateChange ≤ now) (htime : now ≤ time)
    {first rest : List Event} {trip : Event} (hsplit : history = first ++ trip :: rest)
    (htrip : Enters .opened trip) (hearly : time < trip.time + config.recoveryTimeout) :
    before.state = .opened ∧ before.lastStateChange = trip.time ∧
      time - before.lastStateChange < config.recoveryTimeout := by
  obtain ⟨hopen, hchange⟩ := hcooling first trip rest hsplit htrip (htime.trans_lt hearly)
  refine ⟨hopen, hchange, ?_⟩
  rw [Nat.sub_lt_iff_lt_add' (hpast.trans htime), hchange]
  exact hearly

theorem Cooling.step (hcooling : Cooling config now before history)
    (hpast : before.lastStateChange ≤ now) (htime : now ≤ time)
    (hmove : Move config time before call after) :
    Cooling config (time + call.lasts) after
      (history ++ [shown time call before result after]) := by
  intro first trip rest hsplit htrip hearly
  rcases concat_eq_split hsplit with ⟨_, rfl, _⟩ | ⟨middle, _, hhistory⟩
  · rcases hmove.trips with ⟨_, hafter, _, _, hchange⟩ | ⟨hstays, _⟩
    · exact ⟨hafter, hchange⟩
    · exact absurd htrip hstays
  · have htrip' := (Nat.le_add_right time call.lasts).trans_lt hearly
    obtain ⟨hopen, hchange, hshort⟩ := hcooling.early hpast htime hhistory htrip htrip'
    obtain ⟨hafter, hsame⟩ := hmove.stays_open hopen hshort
    exact ⟨hafter, hsame.trans hchange⟩

theorem Trial.concat {successes : ℕ} (htrial : Trial history successes) (event : Event)
    (hcall : event.call ≠ .recordFailure)
    (hstate : event.result.after.state = .halfOpen) :
    Trial (history ++ [event]) (successes + if isSuccess event then 1 else 0) := by
  obtain ⟨first, enter, rest, hsplit, henter, hrest, hcount⟩ := htrial
  refine ⟨first, enter, rest ++ [event], by simp [hsplit], henter, ?_, ?_⟩
  · intro other hother
    rcases List.mem_append.mp hother with hmem | hlast
    · exact hrest other hmem
    · rw [List.mem_singleton.mp hlast]
      exact ⟨hcall, hstate⟩
  · rw [List.countP_append, List.countP_singleton, hcount]

theorem succ_toNat_of_lt {count bound : UInt32} (hlt : count.toNat < bound.toNat) :
    (count + 1).toNat = count.toNat + 1 := by
  have hbound := bound.toNat_lt
  rw [UInt32.toNat_add]
  apply Nat.mod_eq_of_lt
  rw [UInt32.toNat_one]
  omega

theorem Tied.trial_step (htied : Tied config now before history)
    (hthreshold : 1 ≤ config.halfOpenSuccessThreshold)
    (hmove : Move config time before call after) (hhalf : after.state = .halfOpen) :
    Trial (history ++ [shown time call before result after])
        after.consecutiveSuccesses.toNat ∧
      after.consecutiveSuccesses.toNat < config.halfOpenSuccessThreshold.toNat := by
  cases hmove with
  | quiet hcall rejected =>
      obtain ⟨htrial, hless⟩ := htied.trial hhalf
      refine ⟨?_, hless⟩
      have hnext := htrial.concat (shown time call before result
        { before with totalRejected := rejected }) hcall.2 hhalf
      have hnone : isSuccess (shown time call before result
          { before with totalRejected := rejected }) = false := decide_eq_false hcall.1
      rw [hnone] at hnext
      exact hnext
  | probe hcall hopen hover =>
      refine ⟨⟨history, _, [], rfl, ⟨?_, rfl⟩,
        fun _ hmem => absurd hmem List.not_mem_nil, rfl⟩, ?_⟩
      · simp [hopen]
      · exact UInt32.le_iff_toNat_le.mp hthreshold
  | succeed hstate => exact absurd hhalf hstate
  | count hstate hless =>
      obtain ⟨htrial, hbelow⟩ := htied.trial hstate
      have hnext := htrial.concat (shown time .recordSuccess before result _) nofun hhalf
      have hsucc := succ_toNat_of_lt hbelow
      refine ⟨?_, UInt32.lt_iff_toNat_lt.mp hless⟩
      simp only [hsucc]
      exact hnext
  | close hstate henough => simp at hhalf
  | fail hstate =>
      have hhalf' : before.state = .halfOpen := hhalf
      simp [hhalf'] at hstate
  | trip hstate => simp [CircuitBreaker.trip] at hhalf

/-- A closed breaker has fewer failures behind it than the threshold. -/
theorem Tied.closed_step (htied : Tied config now before history)
    (hthreshold : 1 ≤ config.failureThreshold)
    (hmove : Move config time before call after)
    (hcounted : Counted (history ++ [shown time call before result after]) after)
    (hclosed : after.state = .closed) :
    failuresSince (history ++ [shown time call before result after]) <
      config.failureThreshold.toNat := by
  have hpos : 0 < config.failureThreshold.toNat := UInt32.le_iff_toNat_le.mp hthreshold
  rw [← hcounted.failures]
  cases hmove with
  | quiet hcall rejected =>
      rw [htied.counted.failures]
      exact htied.closed hclosed
  | probe hcall hopen hover => simp [enterHalfOpen] at hclosed
  | succeed hstate => exact hpos
  | count hstate hless => exact hpos
  | close hstate henough => exact hpos
  | fail hstate =>
      have hclosed' : before.state = .closed := hclosed
      rcases hstate with hopen | ⟨_, hless⟩
      · simp [hopen] at hclosed'
      · exact UInt32.lt_iff_toNat_lt.mp hless
  | trip hstate => simp [CircuitBreaker.trip] at hclosed

theorem Tied.step (htied : Tied config now before history) (htime : now ≤ time)
    (hfailure : 1 ≤ config.failureThreshold)
    (hsuccess : 1 ≤ config.halfOpenSuccessThreshold)
    (hmove : Move config time before call after)
    (hfew : (history ++ [shown time call before result after]).countP isFailure < 2 ^ 32) :
    Tied config (time + call.lasts) after
      (history ++ [shown time call before result after]) := by
  have hcounted := htied.counted.step hmove hfew
  exact {
    counted := hcounted
    past := hmove.past (htied.past.trans htime)
    closed := htied.closed_step hfailure hmove hcounted
    cooling := htied.cooling.step htied.past htime hmove
    trial := htied.trial_step hsuccess hmove }

/-- A closed breaker moves on just when a failure completes the threshold. -/
theorem Tied.leaves_closed_iff (htied : Tied config now before history)
    (hmove : Move config time before call after)
    (hcounted : Counted (history ++ [shown time call before result after]) after)
    (hclosed : before.state = .closed) :
    after.state ≠ .closed ↔ call = .recordFailure ∧
      failuresSince (history ++ [shown time call before result after]) =
        config.failureThreshold.toNat := by
  have hbelow := htied.closed hclosed
  have hnext := hcounted.failures
  rw [← htied.counted.failures] at hbelow
  cases hmove with
  | quiet hcall rejected =>
      exact iff_of_false (not_not.mpr hclosed) fun h => hcall.2 h.1
  | probe hcall hopen hover => simp [hclosed] at hopen
  | succeed hstate => exact iff_of_false (not_not.mpr hclosed) fun h => (nomatch h.1)
  | count hstate hless => simp [hclosed] at hstate
  | close hstate henough => simp [hclosed] at hstate
  | fail hstate =>
      rcases hstate with hopen | ⟨_, hless⟩
      · simp [hclosed] at hopen
      · refine iff_of_false (not_not.mpr hclosed) fun h => ?_
        rw [h.2] at hnext
        exact absurd hnext (UInt32.lt_iff_toNat_lt.mp hless).ne
  | trip hstate =>
      rcases hstate with hhalf | ⟨_, henough⟩
      · simp [hclosed] at hhalf
      · refine iff_of_true (by simp [CircuitBreaker.trip]) ⟨rfl, ?_⟩
        have henough' := UInt32.le_iff_toNat_le.mp henough
        have hsucc := succ_toNat_of_lt hbelow
        have hsame : (before.consecutiveFailures + 1).toNat = failuresSince
            (history ++ [shown time .recordFailure before result _]) := hnext
        omega

/-- A breaker closes again at the success that completes the trial. -/
theorem Tied.closes (htied : Tied config now before history)
    (hmove : Move config time before call after) (hbefore : before.state ≠ .closed)
    (hafter : after.state = .closed) :
    call = .recordSuccess ∧ before.state = .halfOpen ∧
      ∃ successes, Trial history successes ∧
        successes + 1 = config.halfOpenSuccessThreshold.toNat := by
  cases hmove with
  | quiet hcall rejected => exact absurd hafter hbefore
  | probe hcall hopen hover => simp [enterHalfOpen] at hafter
  | succeed hstate => exact absurd hafter hbefore
  | count hstate hless => exact absurd hafter hbefore
  | close hstate henough =>
      obtain ⟨htrial, hbelow⟩ := htied.trial hstate
      have henough' := UInt32.le_iff_toNat_le.mp henough
      have hsucc := succ_toNat_of_lt hbelow
      exact ⟨rfl, hstate, _, htrial, by omega⟩
  | fail hstate => exact absurd hafter hbefore
  | trip hstate => simp [CircuitBreaker.trip] at hafter

theorem canExecute_of_cooling {breaker : CircuitBreaker} (hopen : breaker.state = .opened)
    (hearly : time - breaker.lastStateChange < config.recoveryTimeout) :
    ∃ secs, (breaker.canExecute config time).2 = .error (.circuitOpen secs) := by
  simp only [canExecute, hopen, if_neg (not_le.mpr hearly)]
  exact ⟨_, rfl⟩

end Step

/-- What each call does, in terms of the calls before it. -/
structure BreakerLaw (config : CircuitBreakerConfig) (history : List Event)
    (event : Event) : Prop where
  coolsDown : ∀ first trip rest, history = first ++ trip :: rest →
    Enters .opened trip → event.time < trip.time + config.recoveryTimeout →
    event.call = .canExecute →
      ∃ secs, event.result.result = .executed (.error (.circuitOpen secs))
  leavesClosed : event.result.before.state = .closed →
    (event.result.after.state ≠ .closed ↔ event.call = .recordFailure ∧
      failuresSince (history ++ [event]) = config.failureThreshold.toNat)
  closes : event.result.before.state ≠ .closed → event.result.after.state = .closed →
    event.call = .recordSuccess ∧ event.result.before.state = .halfOpen ∧
      ∃ successes, Trial history successes ∧
        successes + 1 = config.halfOpenSuccessThreshold.toNat

theorem Tied.law {config : CircuitBreakerConfig} {now time : Instant}
    {breaker : CircuitBreaker} {history : List Event}
    (htied : Tied config now breaker history) (htime : now ≤ time) (call : Call)
    (hcounted : Counted (history ++ [shown time call breaker
      (answer config time breaker call).2 (answer config time breaker call).1])
      (answer config time breaker call).1) :
    BreakerLaw config history (shown time call breaker
      (answer config time breaker call).2 (answer config time breaker call).1) where
  coolsDown := by
    intro first trip rest hsplit htrip hearly hcall
    obtain ⟨hopen, _, hshort⟩ :=
      htied.cooling.early htied.past htime hsplit htrip hearly
    obtain ⟨secs, herror⟩ := canExecute_of_cooling hopen hshort
    obtain rfl : call = .canExecute := hcall
    exact ⟨secs, congrArg Result.executed herror⟩
  leavesClosed := htied.leaves_closed_iff (answer_move config time breaker call) hcounted
  closes := htied.closes (answer_move config time breaker call)

theorem tied_new {config : CircuitBreakerConfig} (hfailure : 1 ≤ config.failureThreshold)
    (start : Instant) : Tied config start (new start) [] where
  counted := counted_new start
  past := Nat.le_refl start
  closed _ := UInt32.le_iff_toNat_le.mp hfailure
  cooling := by
    intro first trip rest hsplit
    simp at hsplit
  trial hhalf := by simp [new] at hhalf

/-- The breaker follows its laws in every session with fewer failures than its
counter can count, and counts its trips. -/
theorem breaker_follows_laws {config : CircuitBreakerConfig}
    (hfailure : 1 ≤ config.failureThreshold)
    (hsuccess : 1 ≤ config.halfOpenSuccessThreshold) (start : Instant)
    {calls : List (Timed Call)}
    (hfew : calls.countP (fun timed => timed.call = .recordFailure) < 2 ^ 32) :
    Justified (BreakerLaw config) (run config start calls).2 ∧
      (run config start calls).1.state.totalTrips.toNat =
        (run config start calls).2.countP fun event => Enters .opened event := by
  have hcount : (run config start calls).2.countP isFailure =
      calls.countP fun timed => timed.call = .recordFailure := by
    have hcalls := congrArg (List.countP fun call : Call => call = .recordFailure)
      ((service config).observed.run_calls start (new start) calls)
    rw [List.countP_map, List.countP_map] at hcalls
    exact hcalls
  have hrun : (run config start calls).2.countP isFailure < 2 ^ 32 →
      Tied config (run config start calls).1.now (run config start calls).1.state
        (run config start calls).2 ∧
      Justified (BreakerLaw config) (run config start calls).2 := by
    apply (service config).observed.run_induction (P := fun session history =>
      history.countP isFailure < 2 ^ 32 →
        Tied config session.now session.state history ∧
        Justified (BreakerLaw config) history)
    · intro _
      exact ⟨tied_new hfailure start, justified_nil _⟩
    · intro session history time call ih htime hless
      have hbefore : history.countP isFailure < 2 ^ 32 := by
        rw [List.countP_append] at hless
        exact (Nat.le_add_right _ _).trans_lt hless
      obtain ⟨htied, hlaws⟩ := ih hbefore
      have hmove := answer_move config time session.state call
      exact ⟨htied.step htime hfailure hsuccess hmove hless,
        hlaws.concat (htied.law htime call (htied.counted.step hmove hless))⟩
  obtain ⟨htied, hlaws⟩ := hrun (hcount ▸ hfew)
  exact ⟨hlaws, htied.counted.trips⟩

end CircuitBreaker

namespace BreakerWitness

open CircuitBreaker

/-- Five failures, a call that comes too early, and a recovery. -/
def outage : List (Timed Call) :=
  List.replicate 5 ⟨1, .recordFailure⟩ ++
    [⟨1, .canExecute⟩, ⟨Duration.fromSecs 30, .canExecute⟩, ⟨1, .recordSuccess⟩,
      ⟨1, .state 2⟩, ⟨1, .recordSuccess⟩]

theorem outage_follows_laws :
    Justified (BreakerLaw CircuitBreakerConfig.default)
        (run CircuitBreakerConfig.default 0 outage).2 ∧
      (run CircuitBreakerConfig.default 0 outage).1.state.totalTrips.toNat =
        (run CircuitBreakerConfig.default 0 outage).2.countP
          fun event => Enters .opened event :=
  breaker_follows_laws (by decide) (by decide) 0 (by decide)

example : (run CircuitBreakerConfig.default 0 outage).1.state.totalTrips = 1 ∧
    (run CircuitBreakerConfig.default 0 outage).1.state.state = .closed := by
  decide

end BreakerWitness

end KiteX402
