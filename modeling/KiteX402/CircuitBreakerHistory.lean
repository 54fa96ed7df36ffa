/-
The counters and the state of the circuit breaker, tied to what was recorded.
-/
import KiteX402.CircuitBreaker

namespace KiteX402

namespace CircuitBreaker

abbrev Event := Answered Call (Observed CircuitBreaker Result)

/-- A call that brings the breaker into a state. -/
def Enters (state : CircuitState) (event : Event) : Prop :=
  event.result.before.state ≠ state ∧ event.result.after.state = state

instance (state : CircuitState) (event : Event) : Decidable (Enters state event) :=
  inferInstanceAs (Decidable (_ ∧ _))

def isFailure (event : Event) : Bool := event.call = .recordFailure

def isSuccess (event : Event) : Bool := event.call = .recordSuccess

/-- The count of failures after a call. -/
def failuresAfter (count : ℕ) : Call → ℕ
  | .recordFailure => count + 1
  | .recordSuccess => 0
  | _ => count

/-- Failures since the last success. -/
def failuresSince (history : List Event) : ℕ :=
  history.foldl (fun count event => failuresAfter count event.call) 0

/-- What a call can do to the breaker. -/
inductive Move (config : CircuitBreakerConfig) (now : Instant) (breaker : CircuitBreaker) :
    Call → CircuitBreaker → Prop
  | quiet {call : Call} (hcall : call ≠ .recordSuccess ∧ call ≠ .recordFailure)
      (rejected : UInt64) :
      Move config now breaker call { breaker with totalRejected := rejected }
  | probe {call : Call} (hcall : call ≠ .recordSuccess ∧ call ≠ .recordFailure)
      (hopen : breaker.state = .opened)
      (hover : config.recoveryTimeout ≤ now - breaker.lastStateChange) :
      Move config now breaker call (breaker.enterHalfOpen (now + call.lasts))
  | succeed (hstate : breaker.state ≠ .halfOpen) :
      Move config now breaker .recordSuccess { breaker with consecutiveFailures := 0 }
  | count (hstate : breaker.state = .halfOpen)
      (hfew : breaker.consecutiveSuccesses + 1 < config.halfOpenSuccessThreshold) :
      Move config now breaker .recordSuccess
        { breaker with
          consecutiveFailures := 0
          consecutiveSuccesses := breaker.consecutiveSuccesses + 1 }
  | close (hstate : breaker.state = .halfOpen)
      (henough : config.halfOpenSuccessThreshold ≤ breaker.consecutiveSuccesses + 1) :
      Move config now breaker .recordSuccess
        { breaker with
          state := .closed
          consecutiveFailures := 0
          consecutiveSuccesses := 0
          lastStateChange := now }
  | fail (hstate : breaker.state = .opened ∨ breaker.state = .closed ∧
        breaker.consecutiveFailures + 1 < config.failureThreshold) :
      Move config now breaker .recordFailure
        { breaker with
          consecutiveFailures := breaker.consecutiveFailures + 1
          consecutiveSuccesses := 0 }
  | trip (hstate : breaker.state = .halfOpen ∨ breaker.state = .closed ∧
        config.failureThreshold ≤ breaker.consecutiveFailures + 1) :
      Move config now breaker .recordFailure
        (CircuitBreaker.trip now { breaker with
          consecutiveFailures := breaker.consecutiveFailures + 1
          consecutiveSuccesses := 0 })

theorem answer_move (config : CircuitBreakerConfig) (now : Instant)
    (breaker : CircuitBreaker) (call : Call) :
    Move config now breaker call (answer config now breaker call).1 := by
  cases call with
  | canExecute =>
      have hcall : Call.canExecute ≠ .recordSuccess ∧ Call.canExecute ≠ .recordFailure :=
        ⟨nofun, nofun⟩
      simp only [answer, canExecute]
      split
      next => exact .quiet hcall breaker.totalRejected
      next => exact .quiet hcall breaker.totalRejected
      next hstate =>
        split
        next hover => exact .probe hcall hstate hover
        next => exact .quiet hcall _
  | recordSuccess =>
      simp only [answer, recordSuccess]
      by_cases hstate : breaker.state = .halfOpen
      · rw [if_pos hstate]
        by_cases henough :
            config.halfOpenSuccessThreshold ≤ breaker.consecutiveSuccesses + 1
        · rw [if_pos henough]
          exact .close hstate henough
        · rw [if_neg henough]
          exact .count hstate (UInt32.not_le.mp henough)
      · rw [if_neg hstate]
        exact .succeed hstate
  | recordFailure =>
      simp only [answer, recordFailure]
      split
      next hstate =>
        by_cases henough : config.failureThreshold ≤ breaker.consecutiveFailures + 1
        · rw [if_pos henough]
          exact .trip (Or.inr ⟨hstate, henough⟩)
        · rw [if_neg henough]
          exact .fail (Or.inr ⟨hstate, UInt32.not_le.mp henough⟩)
      next hstate => exact .trip (Or.inl hstate)
      next hstate => exact .fail (Or.inl hstate)
  | state pause =>
      have hcall : Call.state pause ≠ .recordSuccess ∧ Call.state pause ≠ .recordFailure :=
        ⟨nofun, nofun⟩
      simp only [answer, observeState]
      split
      next hover => exact .probe hcall hover.1 hover.2
      next => exact .quiet hcall breaker.totalRejected

section Counters

variable {config : CircuitBreakerConfig} {time : Instant}
  {before after : CircuitBreaker} {call : Call}

theorem failuresAfter_quiet (count : ℕ)
    (hcall : call ≠ .recordSuccess ∧ call ≠ .recordFailure) :
    failuresAfter count call = count := by
  obtain ⟨hsuccess, hfailure⟩ := hcall
  cases call with
  | canExecute => rfl
  | recordSuccess => exact absurd rfl hsuccess
  | recordFailure => exact absurd rfl hfailure
  | state pause => rfl

theorem Move.failures (hmove : Move config time before call after)
    (hfew : before.consecutiveFailures.toNat + 1 < 2 ^ 32 ∨ call ≠ .recordFailure) :
    after.consecutiveFailures.toNat =
      failuresAfter before.consecutiveFailures.toNat call := by
  have hnext : call = .recordFailure →
      (before.consecutiveFailures + 1).toNat = before.consecutiveFailures.toNat + 1 := by
    intro hcall
    have hlt := hfew.resolve_right (not_not.mpr hcall)
    rw [UInt32.toNat_add]
    exact Nat.mod_eq_of_lt hlt
  cases hmove with
  | quiet hcall rejected => rw [failuresAfter_quiet _ hcall]
  | probe hcall hopen hover =>
      rw [failuresAfter_quiet _ hcall]
      rfl
  | succeed hstate => rfl
  | count hstate hless => rfl
  | close hstate henough => rfl
  | fail hstate => exact hnext rfl
  | trip hstate => exact hnext rfl

/-- The breaker opens at a failure, and counts it. -/
theorem Move.trips (hmove : Move config time before call after) :
    (before.state ≠ .opened ∧ after.state = .opened ∧ call = .recordFailure ∧
      after.totalTrips = before.totalTrips + 1 ∧ after.lastStateChange = time) ∨
    (¬ (before.state ≠ .opened ∧ after.state = .opened) ∧
      after.totalTrips = before.totalTrips) := by
  cases hmove with
  | quiet hcall rejected => exact Or.inr ⟨fun h => h.1 h.2, rfl⟩
  | probe hcall hopen hover => exact Or.inr ⟨fun h => h.1 hopen, rfl⟩
  | succeed hstate => exact Or.inr ⟨fun h => h.1 h.2, rfl⟩
  | count hstate hless => exact Or.inr ⟨fun h => h.1 h.2, rfl⟩
  | close hstate henough => exact Or.inr ⟨fun h => (nomatch h.2), rfl⟩
  | fail hstate => exact Or.inr ⟨fun h => h.1 h.2, rfl⟩
  | trip hstate =>
      refine Or.inl ⟨?_, rfl, rfl, rfl, rfl⟩
      rcases hstate with hhalf | ⟨hclosed, _⟩
      · rw [hhalf]
        decide
      · rw [hclosed]
        decide

end Counters

/-- A call as the history shows it. -/
abbrev shown (time : Instant) (call : Call) (before : CircuitBreaker) (result : Result)
    (after : CircuitBreaker) : Event := ⟨time, call, ⟨before, result, after⟩⟩

section Counted

variable {config : CircuitBreakerConfig} {time : Instant}
  {before after : CircuitBreaker} {call : Call} {result : Result}
  {history : List Event}

theorem failuresSince_concat (history : List Event) (event : Event) :
    failuresSince (history ++ [event]) =
      failuresAfter (failuresSince history) event.call := by
  unfold failuresSince
  rw [List.foldl_concat]

/-- The counters of the breaker count what was recorded. -/
structure Counted (history : List Event) (breaker : CircuitBreaker) : Prop where
  failures : breaker.consecutiveFailures.toNat = failuresSince history
  trips : breaker.totalTrips.toNat = history.countP fun event => Enters .opened event
  failures_le : failuresSince history ≤ history.countP isFailure
  trips_le : (history.countP fun event => Enters .opened event) ≤
    history.countP isFailure

theorem counted_new (now : Instant) : Counted [] (new now) where
  failures := rfl
  trips := rfl
  failures_le := Nat.le_refl 0
  trips_le := Nat.le_refl 0

theorem failuresAfter_le (count total : ℕ) (hle : count ≤ total) (event : Event) :
    failuresAfter count event.call ≤ total + if isFailure event then 1 else 0 := by
  unfold isFailure
  cases event.call <;> simp [failuresAfter, hle]

theorem Counted.step (hcounted : Counted history before)
    (hmove : Move config time before call after)
    (hfew : (history ++ [shown time call before result after]).countP isFailure < 2 ^ 32) :
    Counted (history ++ [shown time call before result after]) after := by
  obtain ⟨hfailures, htrips, hle, hle'⟩ := hcounted
  have hroom : before.consecutiveFailures.toNat + 1 < 2 ^ 32 ∨ call ≠ .recordFailure := by
    by_cases hcall : call = .recordFailure
    · rw [List.countP_append, List.countP_singleton] at hfew
      have hone : isFailure (shown time call before result after) = true :=
        decide_eq_true hcall
      rw [hone, if_pos rfl] at hfew
      exact Or.inl (by omega)
    · exact Or.inr hcall
  constructor
  · rw [failuresSince_concat, hmove.failures hroom, hfailures]
  · rw [List.countP_append, List.countP_singleton, ← htrips]
    rcases hmove.trips with ⟨hbefore, hafter, hcall, hnext, _⟩ | ⟨hstays, hsame⟩
    · have henters : Enters .opened (shown time call before result after) :=
        ⟨hbefore, hafter⟩
      rw [decide_eq_true henters, if_pos rfl, hnext, UInt64.toNat_add]
      apply Nat.mod_eq_of_lt
      rw [List.countP_append] at hfew
      rw [htrips, UInt64.toNat_one]
      omega
    · have henters : ¬ Enters .opened (shown time call before result after) := hstays
      rw [decide_eq_false henters, hsame]
      rfl
  · rw [failuresSince_concat, List.countP_append, List.countP_singleton]
    exact failuresAfter_le _ _ hle _
  · rw [List.countP_append, List.countP_append, List.countP_singleton,
      List.countP_singleton]
    rcases hmove.trips with ⟨hbefore, hafter, hcall, hnext, _⟩ | ⟨hstays, hsame⟩
    · have hone : isFailure (shown time call before result after) = true :=
        decide_eq_true hcall
      rw [hone, if_pos rfl]
      split <;> omega
    · have henters : ¬ Enters .opened (shown time call before result after) := hstays
      rw [decide_eq_false henters]
      exact hle'.trans (Nat.le_add_right _ _)

end Counted

end CircuitBreaker

end KiteX402
