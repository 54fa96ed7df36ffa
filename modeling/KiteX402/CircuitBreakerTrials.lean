/-
What a half-open circuit breaker lets through, and whether its hint is long
enough.
-/
import KiteX402.CircuitBreakerLaws

namespace KiteX402

namespace CircuitBreaker

def isPermitted (event : Event) : Bool := event.result.result = .executed (.ok ())

/-- Between an entry into half open and the next outcome that is recorded no more
than `limit` calls are permitted. -/
def TrialsBounded (config : CircuitBreakerConfig) (limit : ℕ) : Prop :=
  ∀ start calls before enter trials after,
    (run config start calls).2 = before ++ enter :: (trials ++ after) →
    Enters .halfOpen enter →
    (∀ event ∈ trials, event.call ≠ .recordSuccess ∧ event.call ≠ .recordFailure) →
      trials.countP isPermitted ≤ limit

section Trials

variable {config : CircuitBreakerConfig} {now : Instant} {breaker : CircuitBreaker}

/-- A half-open breaker permits every call. -/
theorem run_trials {start : Instant} {calls : List (Timed Call)}
    (hhalf : (run config start calls).1.state.state = .halfOpen) (count : ℕ) :
    let session := (run config start calls).1
    run config start (calls ++ List.replicate count ⟨0, .canExecute⟩) =
      (session, (run config start calls).2 ++ List.replicate count
        (shown session.now .canExecute session.state (.executed (.ok ())) session.state)) := by
  intro session
  have hpermitted : answer config session.now session.state .canExecute =
      (session.state, .executed (.ok ())) := by
    simp [answer, canExecute, hhalf, session]
  induction count with
  | zero => rw [List.replicate_zero, List.replicate_zero, List.append_nil, List.append_nil]
  | succ count ih =>
      rw [List.replicate_succ', List.replicate_succ', ← List.append_assoc, ← List.append_assoc,
        run_concat, ih]
      simp only [Nat.add_zero, hpermitted, Call.lasts]

/-- A failure opens a breaker that counts enough of them, and leaves an open one
as it is. -/
theorem Move.failing {after : CircuitBreaker} {count : ℕ}
    (hmove : Move config now breaker .recordFailure after)
    (hstate : breaker.state = .opened ∧ breaker.lastStateChange = now ∨
      breaker.state = .closed ∧ breaker.consecutiveFailures.toNat = count ∧
        (count = 0 ∨ count < config.failureThreshold.toNat)) :
    after.state = .opened ∧ after.lastStateChange = now ∨
      after.state = .closed ∧ after.consecutiveFailures.toNat = count + 1 ∧
        (count + 1 = 0 ∨ count + 1 < config.failureThreshold.toNat) := by
  cases hmove with
  | quiet hcall rejected => exact absurd rfl hcall.2
  | probe hcall hopen hover => exact absurd rfl hcall.2
  | trip hcause => exact Or.inl ⟨rfl, rfl⟩
  | fail hcause =>
      rcases hstate with hopen | ⟨hclosed, hcount, hless⟩
      · exact Or.inl hopen
      · have hfew : breaker.consecutiveFailures + 1 < config.failureThreshold :=
          (hcause.resolve_left (by simp [hclosed])).2
        have hnext : (breaker.consecutiveFailures + 1).toNat = count + 1 := by
          have hbound := config.failureThreshold.toNat_lt
          rw [UInt32.toNat_add, hcount, UInt32.toNat_one]
          exact Nat.mod_eq_of_lt (by omega)
        refine Or.inr ⟨hclosed, hnext, Or.inr ?_⟩
        rw [← hnext]
        exact UInt32.lt_iff_toNat_lt.mp hfew

/-- After some failures with no time between them a new breaker is open, or still
counts them. -/
theorem run_failures (config : CircuitBreakerConfig) (start : Instant) (count : ℕ) :
    let session := (run config start (List.replicate count ⟨0, .recordFailure⟩)).1
    session.now = start ∧
      (session.state.state = .opened ∧ session.state.lastStateChange = start ∨
        session.state.state = .closed ∧ session.state.consecutiveFailures.toNat = count ∧
          (count = 0 ∨ count < config.failureThreshold.toNat)) := by
  induction count with
  | zero => exact ⟨rfl, Or.inr ⟨rfl, rfl, Or.inl rfl⟩⟩
  | succ count ih =>
      rw [List.replicate_succ', run_concat]
      generalize (run config start (List.replicate count ⟨0, .recordFailure⟩)).1 =
        session at ih ⊢
      obtain ⟨rfl, hstate⟩ := ih
      exact ⟨rfl, (answer_move config session.now session.state .recordFailure).failing hstate⟩

/-- Enough failures to open a breaker, and the call that finds it cooled down. -/
def outage (config : CircuitBreakerConfig) : List (Timed Call) :=
  List.replicate (config.failureThreshold.toNat + 1) ⟨0, .recordFailure⟩ ++
    [⟨config.recoveryTimeout, .canExecute⟩]

theorem run_outage (config : CircuitBreakerConfig) (start : Instant) :
    (run config start (outage config)).1.state.state = .halfOpen ∧
      ∃ before enter, (run config start (outage config)).2 = before ++ [enter] ∧
        Enters .halfOpen enter := by
  have hfailed := run_failures config start (config.failureThreshold.toNat + 1)
  rw [outage, run_concat]
  generalize run config start
    (List.replicate (config.failureThreshold.toNat + 1) ⟨0, .recordFailure⟩) = failed at hfailed ⊢
  obtain ⟨hnow, hstate⟩ := hfailed
  obtain ⟨hopen, hchange⟩ := hstate.resolve_right fun hclosed => by omega
  -- exactly the recovery timeout has passed since it opened
  have hover : config.recoveryTimeout ≤
      failed.1.now + config.recoveryTimeout - failed.1.state.lastStateChange := by
    rw [hchange, hnow, Nat.add_sub_cancel_left]
  have hprobe : answer config (failed.1.now + config.recoveryTimeout) failed.1.state .canExecute =
      (failed.1.state.enterHalfOpen (failed.1.now + config.recoveryTimeout),
        .executed (.ok ())) := by
    simp [answer, canExecute, hopen, hover]
  simp only [hprobe]
  refine ⟨rfl, _, _, rfl, ?_, rfl⟩
  simp [hopen]

/-- No number bounds what is permitted after an outage. -/
theorem exceeds_trials (config : CircuitBreakerConfig) (limit : ℕ) :
    ¬TrialsBounded config limit := by
  intro hbounded
  obtain ⟨hhalf, before, enter, hhistory, henter⟩ := run_outage config 0
  let session := (run config 0 (outage config)).1
  let trial := shown session.now .canExecute session.state (.executed (.ok ())) session.state
  have hrun : (run config 0 (outage config ++ List.replicate (limit + 1) ⟨0, .canExecute⟩)).2 =
      before ++ enter :: (List.replicate (limit + 1) trial ++ []) := by
    rw [run_trials hhalf, hhistory, List.append_nil, List.append_assoc, List.singleton_append]
  have hle := hbounded 0 _ before enter _ [] hrun henter fun event hevent => by
    rw [List.eq_of_mem_replicate hevent]
    exact ⟨nofun, nofun⟩
  have hpermitted : isPermitted trial = true := rfl
  rw [List.countP_replicate, if_pos hpermitted] at hle
  exact absurd hle (Nat.not_succ_le_self limit)

/-- Under no configuration is there a bound on what a half-open breaker permits
before an outcome is recorded. -/
theorem trials_unbounded (config : CircuitBreakerConfig) :
    ¬∃ limit, TrialsBounded config limit := by
  rintro ⟨limit, hbounded⟩
  exact exceeds_trials config limit hbounded

end Trials

/-- How a call is answered that is made `timed.elapsed` after a session. -/
def answerAfter (config : CircuitBreakerConfig) (start : Instant) (calls : List (Timed Call))
    (timed : Timed Call) : Result :=
  (answer config ((run config start calls).1.now + timed.elapsed)
    (run config start calls).1.state timed.call).2

/-- A call that is rejected after a session is permitted once the seconds have
passed that its hint tells. -/
def CoolDownSuffices (config : CircuitBreakerConfig) (start : Instant)
    (calls : List (Timed Call)) (elapsed : Duration) : Prop :=
  ∀ secs, answerAfter config start calls ⟨elapsed, .canExecute⟩ =
      .executed (.error (.circuitOpen secs)) →
    answerAfter config start (calls ++ [⟨elapsed, .canExecute⟩])
      ⟨Duration.fromSecs secs, .canExecute⟩ = .executed (.ok ())

/-- What is left of the cool-down of an open breaker. -/
def remaining (config : CircuitBreakerConfig) (now : Instant) (breaker : CircuitBreaker) :
    Duration :=
  config.recoveryTimeout - (now - breaker.lastStateChange)

section CoolDown

variable {config : CircuitBreakerConfig} {now : Instant} {breaker : CircuitBreaker}

theorem past_run (config : CircuitBreakerConfig) (start : Instant) (calls : List (Timed Call)) :
    (run config start calls).1.state.lastStateChange ≤ (run config start calls).1.now :=
  (service config).observed.run_induction
    (P := fun session _ => session.state.lastStateChange ≤ session.now) (Nat.le_refl start)
    (fun session _ time call hpast htime =>
      (answer_move config time session.state call).past (hpast.trans htime)) calls

/-- The hint is what is left in whole seconds, rounded down, and at least one. -/
theorem le_hint_iff (remaining : Duration) :
    remaining ≤ Duration.fromSecs (max (Duration.wholeSecs remaining) 1) ↔
      remaining ≤ nanosPerSec ∨ nanosPerSec ∣ remaining := by
  unfold Duration.fromSecs Duration.wholeSecs
  rcases Nat.le_total (remaining / nanosPerSec) 1 with hshort | hlong
  · rw [max_eq_right hshort, one_mul]
    refine ⟨Or.inl, fun h => h.elim id ?_⟩
    rintro ⟨secs, rfl⟩
    rw [Nat.mul_div_cancel_left _ nanosPerSec_pos] at hshort
    exact (Nat.mul_le_mul_left _ hshort).trans (Nat.mul_one _).le
  · rw [max_eq_left hlong]
    constructor
    · intro hle
      exact Or.inr ⟨_, (hle.antisymm (Nat.div_mul_le_self _ _)).trans (Nat.mul_comm _ _)⟩
    · rintro (hsecond | hwhole)
      · exact hsecond.trans (Nat.le_mul_of_pos_left _ hlong)
      · exact (Nat.div_mul_cancel hwhole).ge

/-- A rejected call changes only the count of those rejected. -/
theorem canExecute_cases (config : CircuitBreakerConfig) (now : Instant)
    (breaker : CircuitBreaker) :
    (breaker.state = .opened ∧ 0 < remaining config now breaker ∧
      breaker.canExecute config now =
        ({ breaker with totalRejected := breaker.totalRejected + 1 },
          .error (.circuitOpen
            (max (Duration.wholeSecs (remaining config now breaker)) 1)))) ∨
    ((breaker.state ≠ .opened ∨ remaining config now breaker = 0) ∧
      (breaker.canExecute config now).2 = .ok ()) := by
  unfold canExecute remaining
  cases hstate : breaker.state with
  | closed => exact Or.inr ⟨Or.inl (by decide), rfl⟩
  | halfOpen => exact Or.inr ⟨Or.inl (by decide), rfl⟩
  | opened =>
      by_cases hover : config.recoveryTimeout ≤ now - breaker.lastStateChange
      · refine Or.inr ⟨Or.inr (Nat.sub_eq_zero_of_le hover), ?_⟩
        simp only [if_pos hover]
      · refine Or.inl ⟨rfl, Nat.sub_pos_of_lt (not_le.mp hover), ?_⟩
        simp only [if_neg hover]

theorem canExecute_ok_iff (config : CircuitBreakerConfig) (now : Instant)
    (breaker : CircuitBreaker) :
    (breaker.canExecute config now).2 = .ok () ↔
      breaker.state ≠ .opened ∨ remaining config now breaker = 0 := by
  rcases canExecute_cases config now breaker with ⟨hopen, hleft, heq⟩ | ⟨hfree, hok⟩
  · rw [heq]
    refine iff_of_false (fun h => nomatch h) ?_
    rintro (hstate | hzero)
    · exact hstate hopen
    · exact hleft.ne' hzero
  · exact iff_of_true hok hfree

theorem remaining_add (hpast : breaker.lastStateChange ≤ now) (wait : Duration) :
    remaining config (now + wait) breaker = remaining config now breaker - wait := by
  unfold remaining
  rw [Nat.sub_add_comm hpast, Nat.sub_sub]

/-- A retry meets the same breaker, so much later. -/
theorem retry_ok_iff (hopen : breaker.state = .opened) (hpast : breaker.lastStateChange ≤ now)
    (hleft : 0 < remaining config now breaker) (wait : Duration) :
    ((breaker.canExecute config now).1.canExecute config (now + wait)).2 = .ok () ↔
      remaining config now breaker ≤ wait := by
  rcases canExecute_cases config now breaker with ⟨-, -, hrejected⟩ | ⟨hfree, -⟩
  · have hstate : ¬breaker.state ≠ .opened := not_not.mpr hopen
    have hlater : remaining config (now + wait)
        { breaker with totalRejected := breaker.totalRejected + 1 } =
          remaining config now breaker - wait := remaining_add hpast wait
    rw [hrejected, canExecute_ok_iff, or_iff_right hstate, hlater]
    exact Nat.sub_eq_zero_iff_le
  · rcases hfree with hstate | hzero
    · exact absurd hopen hstate
    · exact absurd hzero hleft.ne'

theorem answerAfter_retry (start : Instant) (calls : List (Timed Call))
    (elapsed wait : Duration) :
    answerAfter config start (calls ++ [⟨elapsed, .canExecute⟩]) ⟨wait, .canExecute⟩ =
      .executed (((run config start calls).1.state.canExecute config
        ((run config start calls).1.now + elapsed)).1.canExecute config
          ((run config start calls).1.now + elapsed + wait)).2 := by
  rw [answerAfter, run_concat]
  rfl

/-- The hint is long enough exactly when no more than a second is left of the
cool-down, or a whole number of seconds. -/
theorem coolDown_suffices_iff (config : CircuitBreakerConfig) (start : Instant)
    (calls : List (Timed Call)) (elapsed : Duration) :
    let session := (run config start calls).1
    let left := remaining config (session.now + elapsed) session.state
    CoolDownSuffices config start calls elapsed ↔
      session.state.state ≠ .opened ∨ left ≤ nanosPerSec ∨ nanosPerSec ∣ left := by
  intro session left
  unfold CoolDownSuffices
  have hpast : session.state.lastStateChange ≤ session.now + elapsed :=
    (past_run config start calls).trans (Nat.le_add_right _ _)
  rcases canExecute_cases config (session.now + elapsed) session.state with
    ⟨hopen, hleft, hrejected⟩ | ⟨hfree, hok⟩
  · have hanswer : answerAfter config start calls ⟨elapsed, .canExecute⟩ =
        .executed (.error (.circuitOpen (max (Duration.wholeSecs left) 1))) := by
      rw [answerAfter]
      simp only [answer]
      rw [hrejected]
    have hretry : ∀ secs, answerAfter config start (calls ++ [⟨elapsed, .canExecute⟩])
        ⟨Duration.fromSecs secs, .canExecute⟩ = .executed (.ok ()) ↔
          left ≤ Duration.fromSecs secs := by
      intro secs
      rw [answerAfter_retry, Result.executed.injEq]
      exact retry_ok_iff hopen hpast hleft _
    have hstate : ¬session.state.state ≠ .opened := not_not.mpr hopen
    rw [or_iff_right hstate, ← le_hint_iff left, ← hretry]
    constructor
    · exact fun hsuffices => hsuffices _ hanswer
    · intro hok secs hhint
      have hsame := hanswer.symm.trans hhint
      simp only [Result.executed.injEq, Except.error.injEq,
        CircuitBreakerError.circuitOpen.injEq] at hsame
      exact hsame ▸ hok
  · refine iff_of_true (fun secs hhint => ?_) ?_
    · have hpermitted : answerAfter config start calls ⟨elapsed, .canExecute⟩ =
          .executed (.ok ()) := congrArg Result.executed hok
      have hboth := hpermitted.symm.trans hhint
      simp at hboth
    · exact hfree.imp_right fun hzero => Or.inl (hzero.trans_le (Nat.zero_le _))

end CoolDown

end CircuitBreaker

namespace BreakerWitness

open CircuitBreaker

/-- However many calls a half-open breaker has permitted, it permits one more. -/
theorem default_trials_unbounded :
    ¬∃ limit, TrialsBounded CircuitBreakerConfig.default limit :=
  fun ⟨limit, hbounded⟩ => exceeds_trials _ limit hbounded

/-- Half a second into the cool-down 29.5 seconds are left, and the hint is 29. -/
theorem half_second_short :
    ¬CoolDownSuffices CircuitBreakerConfig.default 0
      (List.replicate 5 ⟨0, .recordFailure⟩) 500000000 := by
  intro hsuffices
  have hhint : answerAfter CircuitBreakerConfig.default 0
      (List.replicate 5 ⟨0, .recordFailure⟩) ⟨500000000, .canExecute⟩ =
        .executed (.error (.circuitOpen 29)) := by
    decide +kernel
  have hretry : answerAfter CircuitBreakerConfig.default 0
      (List.replicate 5 ⟨0, .recordFailure⟩ ++ [⟨500000000, .canExecute⟩])
      ⟨Duration.fromSecs 29, .canExecute⟩ ≠ .executed (.ok ()) := by
    decide +kernel
  exact hretry (hsuffices 29 hhint)

end BreakerWitness

end KiteX402
