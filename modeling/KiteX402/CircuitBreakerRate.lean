/-
How often the circuit breaker can trip, what it rejects, and that it closes again
once failures cease.
-/
import KiteX402.CircuitBreakerTrials
import KiteX402.TimeWindow
import Mathlib.Algebra.Group.Action.Defs

namespace KiteX402

namespace CircuitBreaker

section Rate

variable (config : CircuitBreakerConfig)

/-- Trips with a recovery between them. -/
def TripsApart (history : List Event) : Prop :=
  (history.filter fun event => Enters .opened event).Pairwise
    fun first second => first.time + config.recoveryTimeout ≤ second.time

/-- An open breaker has been so since a trip. -/
def TrippedAt (breaker : CircuitBreaker) (history : List Event) : Prop :=
  breaker.state = .opened →
    ∃ trip ∈ history, Enters .opened trip ∧ trip.time = breaker.lastStateChange

/-- A rejected call comes before its trip has cooled down. -/
def RejectsInTime (before : List Event) (event : Event) : Prop :=
  ∀ error, event.result.result = .executed (.error error) →
    ∃ trip ∈ before, Enters .opened trip ∧ trip.time ≤ event.time ∧
      event.time < trip.time + config.recoveryTimeout

variable {config} {now time : Instant} {before after : CircuitBreaker} {call : Call}
  {result : Result} {history : List Event}

theorem TripsApart.step (hapart : TripsApart config history)
    (hcooling : Cooling config now before history) (htime : now ≤ time) :
    TripsApart config (history ++ [shown time call before result after]) := by
  unfold TripsApart
  rw [List.filter_append, List.pairwise_append]
  refine ⟨hapart, List.Pairwise.filter _ (List.pairwise_singleton _ _), ?_⟩
  intro first hfirst second hsecond
  obtain ⟨hfirst, htrip⟩ := List.mem_filter.mp hfirst
  obtain ⟨hsecond, hagain⟩ := List.mem_filter.mp hsecond
  obtain rfl := List.mem_singleton.mp hsecond
  obtain ⟨earlier, rest, hsplit⟩ := List.append_of_mem hfirst
  -- before the first trip has cooled down the breaker is open and cannot trip
  have hcooled : ¬ now < first.time + config.recoveryTimeout := fun hearly =>
    (of_decide_eq_true hagain).1
      (hcooling earlier first rest hsplit (of_decide_eq_true htrip) hearly).1
  exact (not_lt.mp hcooled).trans htime

theorem TrippedAt.step (htripped : TrippedAt before history)
    (hmove : Move config time before call after) :
    TrippedAt after (history ++ [shown time call before result after]) := by
  have hkept : before.state = .opened → ∃ trip ∈
      history ++ [shown time call before result after],
      Enters .opened trip ∧ trip.time = before.lastStateChange := by
    intro hopen
    obtain ⟨trip, hmem, htrip, hchange⟩ := htripped hopen
    exact ⟨trip, List.mem_append_left _ hmem, htrip, hchange⟩
  intro hopen
  rcases hmove.trips with ⟨hbefore, hafter, _, _, hchange⟩ | ⟨hstays, _⟩
  · exact ⟨shown time call before result after, by simp, ⟨hbefore, hafter⟩, hchange.symm⟩
  · have hwas : before.state = .opened := by
      by_contra hnot
      exact hstays ⟨hnot, hopen⟩
    cases hmove with
    | quiet hcall rejected => exact hkept hwas
    | probe hcall hopen' hover => contradiction
    | succeed hstate => exact hkept hwas
    | count hstate hless => exact hkept hwas
    | close hstate henough => contradiction
    | fail hstate => exact hkept hwas
    | trip hstate => exact absurd ⟨by rcases hstate with h | ⟨h, _⟩ <;> simp [h], rfl⟩ hstays

theorem TrippedAt.rejects (htripped : TrippedAt before history)
    (hpast : before.lastStateChange ≤ time) :
    RejectsInTime config history (shown time call before (answer config time before call).2
      (answer config time before call).1) := by
  intro error herror
  cases call with
  | canExecute =>
      have herror : (before.canExecute config time).2 = .error error :=
        Result.executed.inj herror
      cases hstate : before.state with
      | opened =>
          obtain ⟨trip, hmem, htrip, hchange⟩ := htripped hstate
          refine ⟨trip, hmem, htrip, hchange ▸ hpast, ?_⟩
          simp only [canExecute, hstate] at herror
          split at herror
          · contradiction
          next hearly =>
            rw [hchange]
            exact (Nat.sub_lt_iff_lt_add' hpast).mp (not_le.mp hearly)
      | _ => simp [canExecute, hstate] at herror
  | _ => contradiction

end Rate

/-- What a session shows about its trips. -/
structure TripsPaced (config : CircuitBreakerConfig) (history : List Event) : Prop where
  paced : ∀ first last, ((history.countP fun event =>
    Enters .opened event ∧ first ≤ event.time ∧ event.time ≤ last) - 1) * config.recoveryTimeout ≤
      last - first
  rejects : Justified (RejectsInTime config) history

theorem TripsApart.paced {config : CircuitBreakerConfig} {history : List Event}
    (hapart : TripsApart config history) (first last : Instant) :
    ((history.countP fun event => Enters .opened event ∧ first ≤ event.time ∧ event.time ≤ last)
      - 1) * config.recoveryTimeout ≤ last - first := by
  rw [List.countP_eq_length_filter]
  generalize htrips : history.filter _ = trips
  have hin : ∀ trip ∈ trips, Enters .opened trip ∧ first ≤ trip.time ∧ trip.time ≤ last := by
    intro trip hmem
    rw [← htrips] at hmem
    exact of_decide_eq_true (List.mem_filter.mp hmem).2
  have hsub : trips.Sublist (history.filter fun event => Enters .opened event) := by
    rw [← htrips]
    refine List.monotone_filter_right history fun event hevent => ?_
    exact decide_eq_true (of_decide_eq_true hevent).1
  have htimes : (trips.map Answered.time).Pairwise
      fun earlier later => earlier + config.recoveryTimeout ≤ later :=
    List.pairwise_map.mpr (hapart.sublist hsub)
  cases trips with
  | nil => simp
  | cons trip rest =>
      have hin' : ∀ time ∈ (trip :: rest).map Answered.time, first ≤ time ∧ time ≤ last :=
        List.forall_mem_map.mpr fun event hmem => (hin event hmem).2
      have hreach := add_nsmul_le_of_apart htimes hin' (by simp)
      rw [List.length_map, smul_eq_mul] at hreach
      exact Nat.le_sub_of_add_le' hreach

/-- However failures and calls come, trips are a recovery apart, and a call is
rejected only within one of a trip. -/
theorem trips_paced (config : CircuitBreakerConfig) (start : Instant)
    (calls : List (Timed Call)) : TripsPaced config (run config start calls).2 := by
  have hrun : Cooling config (run config start calls).1.now (run config start calls).1.state
        (run config start calls).2 ∧
      (run config start calls).1.state.lastStateChange ≤ (run config start calls).1.now ∧
      TrippedAt (run config start calls).1.state (run config start calls).2 ∧
      TripsApart config (run config start calls).2 ∧
      Justified (RejectsInTime config) (run config start calls).2 := by
    apply (service config).observed.run_induction (P := fun session history =>
      Cooling config session.now session.state history ∧
      session.state.lastStateChange ≤ session.now ∧ TrippedAt session.state history ∧
      TripsApart config history ∧ Justified (RejectsInTime config) history)
    · refine ⟨?_, Nat.le_refl start, ?_, List.Pairwise.nil, justified_nil _⟩
      · intro first trip rest hsplit
        simp at hsplit
      · intro hopen
        simp [new] at hopen
    · rintro session history time call ⟨hcooling, hpast, htripped, hapart, hrejects⟩ htime
      have hmove := answer_move config time session.state call
      exact ⟨hcooling.step hpast htime hmove, hmove.past (hpast.trans htime),
        htripped.step hmove, hapart.step hcooling htime,
        hrejects.concat (htripped.rejects (hpast.trans htime))⟩
  obtain ⟨_, _, _, hapart, hrejects⟩ := hrun
  exact ⟨hapart.paced, hrejects⟩

section Recovery

/-- A half-open breaker has not yet counted the successes that close it. -/
def Counting (config : CircuitBreakerConfig) (breaker : CircuitBreaker) : Prop :=
  breaker.state = .halfOpen →
    breaker.consecutiveSuccesses.toNat < max 1 config.halfOpenSuccessThreshold.toNat

/-- The successes that a breaker needs before it is closed, once it is not open. -/
def missing (config : CircuitBreakerConfig) (breaker : CircuitBreaker) : ℕ :=
  match breaker.state with
  | .halfOpen =>
      max 1 config.halfOpenSuccessThreshold.toNat - breaker.consecutiveSuccesses.toNat
  | _ => 0

variable {config : CircuitBreakerConfig} {time : Instant} {before after : CircuitBreaker}
  {call : Call}

/-- The count of successes does not wrap around. -/
theorem Counting.succ_toNat (hcounting : Counting config before)
    (hhalf : before.state = .halfOpen) :
    (before.consecutiveSuccesses + 1).toNat = before.consecutiveSuccesses.toNat + 1 := by
  have hless := hcounting hhalf
  have hbound := config.halfOpenSuccessThreshold.toNat_lt
  rw [UInt32.toNat_add, show (1 : UInt32).toNat = 1 from rfl, Nat.mod_eq_of_lt (by omega)]

theorem Move.counting (hmove : Move config time before call after)
    (hcounting : Counting config before) : Counting config after := by
  intro hhalf
  cases hmove with
  | quiet hcall rejected => exact hcounting hhalf
  | probe hcall hopen hover => exact Nat.lt_of_lt_of_le Nat.zero_lt_one (le_max_left _ _)
  | succeed hstate => exact absurd hhalf hstate
  | count hstate hfew => exact (UInt32.lt_iff_toNat_lt.mp hfew).trans_le (le_max_right _ _)
  | close hstate henough => contradiction
  | fail hstate => exact Nat.lt_of_lt_of_le Nat.zero_lt_one (le_max_left _ _)
  | trip hstate => contradiction

/-- Without a failure a breaker that lets calls through goes on to do so, and a
success brings it closer to being closed. -/
theorem Move.recovering (hmove : Move config time before call after)
    (hcall : call ≠ .recordFailure) (hcounting : Counting config before)
    (hstate : before.state ≠ .opened) :
    after.state ≠ .opened ∧
      missing config after ≤ missing config before - if call = .recordSuccess then 1 else 0 := by
  cases hmove with
  | quiet hquiet rejected =>
      rw [if_neg hquiet.1]
      exact ⟨hstate, Nat.le_refl _⟩
  | probe hquiet hopen hover => exact absurd hopen hstate
  | succeed hhalf =>
      refine ⟨hstate, ?_⟩
      cases hwas : before.state with
      | halfOpen => exact absurd hwas hhalf
      | _ => simp [missing, hwas]
  | count hhalf hfew =>
      refine ⟨hstate, ?_⟩
      simp only [missing, hhalf, hcounting.succ_toNat hhalf, if_true]
      omega
  | close hhalf henough => exact ⟨by simp, Nat.zero_le _⟩
  | fail hwas => contradiction
  | trip hwas => contradiction

/-- Without a failure an open breaker is one that has been open all along. -/
theorem Move.waiting (hmove : Move config time before call after)
    (hcall : call ≠ .recordFailure) (hopen : after.state = .opened) :
    before.state = .opened ∧ after.lastStateChange = before.lastStateChange := by
  cases hmove with
  | quiet hquiet rejected => exact ⟨hopen, rfl⟩
  | probe hquiet hwas hover => contradiction
  | succeed hhalf => exact ⟨hopen, rfl⟩
  | count hhalf hfew => exact ⟨hopen, rfl⟩
  | close hhalf henough => contradiction
  | fail hwas => contradiction
  | trip hwas => contradiction

theorem not_rejected (hstate : before.state ≠ .opened) (error : CircuitBreakerError) :
    (answer config time before call).2 ≠ .executed (.error error) := by
  cases call with
  | canExecute =>
      cases hwas : before.state with
      | opened => exact absurd hwas hstate
      | _ => simp [answer, canExecute, hwas]
  | _ => simp [answer]

/-- The breaker after calls with no failure among them, from any state in which
it lets calls through. -/
theorem run_recovering (now : Instant) {breaker : CircuitBreaker}
    (hcounting : Counting config breaker) (hstate : breaker.state ≠ .opened)
    {rest : List (Timed Call)} (hquiet : ∀ timed ∈ rest, timed.call ≠ .recordFailure) :
    let reached := (service config).observed.run now breaker rest
    Counting config reached.1.state ∧ reached.1.state.state ≠ .opened ∧
      missing config reached.1.state ≤ missing config breaker -
        rest.countP (fun timed => timed.call = .recordSuccess) ∧
      ∀ event ∈ reached.2, ∀ error, event.result.result ≠ .executed (.error error) := by
  induction rest using List.reverseRecOn with
  | nil => exact ⟨hcounting, hstate, Nat.le_refl _, by simp⟩
  | append_singleton rest timed ih =>
      obtain ⟨hcounting, hstate, hmissing, hpassed⟩ :=
        ih fun other hother => hquiet other (List.mem_append_left _ hother)
      have hcall := hquiet timed (by simp)
      rw [Service.run_concat, List.countP_append, List.countP_singleton]
      generalize (service config).observed.run now breaker rest = reached at *
      have hmove := answer_move config (reached.1.now + timed.elapsed) reached.1.state
        timed.call
      obtain ⟨hnext, hless⟩ := hmove.recovering hcall hcounting hstate
      refine ⟨hmove.counting hcounting, hnext, hless.trans ?_, ?_⟩
      · simp only [decide_eq_true_eq]
        omega
      · intro event hmem
        rcases List.mem_append.mp hmem with hmem | hmem
        · exact hpassed event hmem
        · rw [List.mem_singleton.mp hmem]
          exact not_rejected hstate

/-- A breaker that waits without a failure has not been opened meanwhile. -/
theorem run_waiting (now : Instant) (breaker : CircuitBreaker) {waiting : List (Timed Call)}
    (hquiet : ∀ timed ∈ waiting, timed.call ≠ .recordFailure)
    (hopen : ((service config).observed.run now breaker waiting).1.state.state = .opened) :
    breaker.state = .opened ∧
      ((service config).observed.run now breaker waiting).1.state.lastStateChange =
        breaker.lastStateChange := by
  induction waiting using List.reverseRecOn with
  | nil => exact ⟨hopen, rfl⟩
  | append_singleton waiting timed ih =>
      rw [Service.run_concat] at hopen ⊢
      generalize hreached : (service config).observed.run now breaker waiting = reached at *
      have hmove := answer_move config (reached.1.now + timed.elapsed) reached.1.state timed.call
      obtain ⟨hwas, hsame⟩ := hmove.waiting (hquiet timed (by simp)) hopen
      obtain ⟨hfirst, hchange⟩ :=
        ih (fun other hother => hquiet other (List.mem_append_left _ hother)) hwas
      exact ⟨hfirst, hsame.trans hchange⟩

theorem counting_run (config : CircuitBreakerConfig) (start : Instant)
    (calls : List (Timed Call)) : Counting config (run config start calls).1.state :=
  (service config).observed.run_induction (P := fun session _ => Counting config session.state)
    (fun hhalf => by simp [new] at hhalf)
    (fun session _ time call hcounting _ =>
      (answer_move config time session.state call).counting hcounting) calls

theorem run_append (config : CircuitBreakerConfig) (start : Instant)
    (calls more : List (Timed Call)) :
    run config start (calls ++ more) =
      let session := (run config start calls).1
      let reached := (service config).observed.run session.now session.state more
      (reached.1, (run config start calls).2 ++ reached.2) :=
  (service config).observed.machine.run_append _ _ _

theorem missing_le (config : CircuitBreakerConfig) (breaker : CircuitBreaker) :
    missing config breaker ≤ max 1 config.halfOpenSuccessThreshold.toNat := by
  unfold missing
  split
  · exact Nat.sub_le _ _
  · exact Nat.zero_le _

theorem closed_of_missing {breaker : CircuitBreaker} (hcounting : Counting config breaker)
    (hstate : breaker.state ≠ .opened) (hmissing : missing config breaker = 0) :
    breaker.state = .closed := by
  cases hwas : breaker.state with
  | closed => rfl
  | opened => exact absurd hwas hstate
  | halfOpen =>
      have hless := hcounting hwas
      simp only [missing, hwas] at hmissing
      omega

/-- A breaker that has cooled down lets a call through. -/
theorem canExecute_cooled {breaker : CircuitBreaker} (hcooled : breaker.state = .opened →
      config.recoveryTimeout ≤ time - breaker.lastStateChange) :
    (breaker.canExecute config time).2 = .ok () ∧
      (breaker.canExecute config time).1.state ≠ .opened := by
  unfold canExecute
  cases hwas : breaker.state with
  | opened => simp [if_pos (hcooled hwas), enterHalfOpen]
  | _ => simp [hwas]

/-- Once failures cease the breaker closes: the first call after the cool-down is
let through, so is every later one, and the successes that the configuration asks
for bring it back. -/
theorem breaker_recovers (config : CircuitBreakerConfig) (start : Instant)
    (calls waiting rest : List (Timed Call)) (elapsed : Duration)
    (hquiet : ∀ timed ∈ waiting ++ rest, timed.call ≠ .recordFailure)
    (hcooled : (run config start calls).1.now + config.recoveryTimeout ≤
      (run config start (calls ++ waiting)).1.now + elapsed)
    (henough : max 1 config.halfOpenSuccessThreshold.toNat ≤
      rest.countP fun timed => timed.call = .recordSuccess) :
    (run config start (calls ++ waiting ++ ⟨elapsed, .canExecute⟩ :: rest)).1.state.state =
        .closed ∧
      ∃ later, (run config start (calls ++ waiting ++ ⟨elapsed, .canExecute⟩ :: rest)).2 =
          (run config start (calls ++ waiting)).2 ++ later ∧
        ∀ event ∈ later, ∀ error, event.result.result ≠ .executed (.error error) := by
  have hfirst : ∀ timed ∈ waiting, timed.call ≠ .recordFailure :=
    fun timed hmem => hquiet timed (List.mem_append_left _ hmem)
  have hlast : ∀ timed ∈ rest, timed.call ≠ .recordFailure :=
    fun timed hmem => hquiet timed (List.mem_append_right _ hmem)
  have hcounting := counting_run config start (calls ++ waiting)
  -- the breaker that the probe finds has been open since before the wait, if at all
  have hready : (run config start (calls ++ waiting)).1.state.state = .opened →
      config.recoveryTimeout ≤ (run config start (calls ++ waiting)).1.now + elapsed -
        (run config start (calls ++ waiting)).1.state.lastStateChange := by
    intro hopen
    have hpast := past_run config start calls
    have hchange : (run config start (calls ++ waiting)).1.state.lastStateChange =
        (run config start calls).1.state.lastStateChange := by
      rw [run_append] at hopen ⊢
      exact (run_waiting _ _ hfirst hopen).2
    rw [hchange]
    apply Nat.le_sub_of_add_le'
    exact (Nat.add_le_add_right hpast _).trans hcooled
  rw [run_append config start (calls ++ waiting)]
  generalize run config start (calls ++ waiting) = reached at hcooled hcounting hready
  obtain ⟨hpassed, hprobed⟩ := canExecute_cooled hready
  have hprobe := (answer_move config (reached.1.now + elapsed) reached.1.state
    .canExecute).counting hcounting
  obtain ⟨hcounted, hstate, hmissing, hafter⟩ :=
    run_recovering (reached.1.now + elapsed) hprobe hprobed hlast
  have hdone := hmissing.trans_eq
    (Nat.sub_eq_zero_of_le ((missing_le config _).trans henough))
  refine ⟨closed_of_missing hcounted hstate (Nat.le_zero.mp hdone), _, rfl, ?_⟩
  intro event hmem error
  rcases List.mem_cons.mp hmem with rfl | hmem
  · simp [Service.observed, service, answer, hpassed]
  · exact hafter event hmem error

end Recovery

end CircuitBreaker

namespace BreakerRateWitness

open CircuitBreaker

/-- After an outage of five failures two successes close the breaker again. -/
theorem default_recovers :
    (run CircuitBreakerConfig.default 0 (List.replicate 5 ⟨1, .recordFailure⟩ ++
      [⟨3, .canExecute⟩] ++ ⟨Duration.fromSecs 30, .canExecute⟩ ::
        [⟨1, .recordSuccess⟩, ⟨1, .canExecute⟩, ⟨1, .recordSuccess⟩])).1.state.state = .closed ∧
      ∃ later, (run CircuitBreakerConfig.default 0 (List.replicate 5 ⟨1, .recordFailure⟩ ++
          [⟨3, .canExecute⟩] ++ ⟨Duration.fromSecs 30, .canExecute⟩ ::
            [⟨1, .recordSuccess⟩, ⟨1, .canExecute⟩, ⟨1, .recordSuccess⟩])).2 =
          (run CircuitBreakerConfig.default 0
            (List.replicate 5 ⟨1, .recordFailure⟩ ++ [⟨3, .canExecute⟩])).2 ++ later ∧
        ∀ event ∈ later, ∀ error, event.result.result ≠ .executed (.error error) :=
  breaker_recovers _ _ _ _ _ _ (by decide) (by decide) (by decide)

end BreakerRateWitness

end KiteX402
