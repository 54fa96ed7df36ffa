/-
What polling the state of the circuit breaker changes: a run against the same
run without its polls.
-/
import KiteX402.CircuitBreakerTrials

namespace KiteX402

namespace CircuitBreaker

/-- The next call, kept at its time; the time that a poll takes is added to what
has passed before it. -/
def skipState (skipped : List (Timed Call) × Duration) (timed : Timed Call) :
    List (Timed Call) × Duration :=
  match timed.call with
  | .state pause => (skipped.1, skipped.2 + timed.elapsed + pause)
  | call => (skipped.1 ++ [⟨skipped.2 + timed.elapsed, call⟩], 0)

/-- The calls without those of `state`. -/
def withoutState (calls : List (Timed Call)) : List (Timed Call) :=
  (calls.foldl skipState ([], 0)).1

/-- The time that has passed since the last call that is kept. -/
def skippedTime (calls : List (Timed Call)) : Duration :=
  (calls.foldl skipState ([], 0)).2

/-- What a caller sees of a call: its answer, and the trips so far. -/
structure Observation where
  time : Instant
  call : Call
  result : Result
  totalTrips : UInt64
deriving DecidableEq

/-- Polls aside. -/
def observe (event : Event) : Option Observation :=
  match event.call with
  | .state _ => none
  | call => some ⟨event.time, call, event.result.result, event.result.after.totalTrips⟩

def observations (history : List Event) : List Observation := history.filterMap observe

/-- It was a poll that brought the breaker into half open, and no call has been
let through since. -/
def Polled (history : List Event) : Prop :=
  ∃ before poll after pause, history = before ++ poll :: after ∧ poll.call = .state pause ∧
    Enters .halfOpen poll ∧ ∀ event ∈ after, event.call ≠ .canExecute

/-- No outcome is recorded while the breaker is half open because of a poll. -/
def NotSteered (config : CircuitBreakerConfig) (start : Instant) (calls : List (Timed Call)) :
    Prop :=
  Justified (fun before timed =>
    timed.call = .recordSuccess ∨ timed.call = .recordFailure →
      ¬Polled (run config start before).2) calls

section Skipped

theorem withoutState_concat_state (calls : List (Timed Call)) (elapsed pause : Duration) :
    withoutState (calls ++ [⟨elapsed, .state pause⟩]) = withoutState calls ∧
      skippedTime (calls ++ [⟨elapsed, .state pause⟩]) =
        skippedTime calls + elapsed + pause := by
  unfold withoutState skippedTime
  rw [List.foldl_concat]
  exact ⟨rfl, rfl⟩

theorem withoutState_concat {call : Call} (hcall : ∀ pause, call ≠ .state pause)
    (calls : List (Timed Call)) (elapsed : Duration) :
    withoutState (calls ++ [⟨elapsed, call⟩]) =
        withoutState calls ++ [⟨skippedTime calls + elapsed, call⟩] ∧
      skippedTime (calls ++ [⟨elapsed, call⟩]) = 0 := by
  unfold withoutState skippedTime
  rw [List.foldl_concat]
  cases call with
  | state pause => exact absurd rfl (hcall pause)
  | canExecute => exact ⟨rfl, rfl⟩
  | recordSuccess => exact ⟨rfl, rfl⟩
  | recordFailure => exact ⟨rfl, rfl⟩

theorem observations_concat (history : List Event) (event : Event) :
    observations (history ++ [event]) = observations history ++ (observe event).toList := by
  rw [observations, List.filterMap_append]
  cases hobserve : observe event <;> simp [observations, hobserve]

theorem Polled.concat {history : List Event} (hpolled : Polled history) {event : Event}
    (hcall : event.call ≠ .canExecute) : Polled (history ++ [event]) := by
  obtain ⟨before, poll, after, pause, rfl, hpoll, henters, hafter⟩ := hpolled
  refine ⟨before, poll, after ++ [event], pause, by simp, hpoll, henters, ?_⟩
  intro other hother
  rcases List.mem_append.mp hother with hother | hlast
  · exact hafter other hother
  · rw [List.mem_singleton.mp hlast]
    exact hcall

end Skipped

/-- The same breaker with another time of its last change. -/
def changedAt (change : Instant) (breaker : CircuitBreaker) : CircuitBreaker :=
  { breaker with lastStateChange := change }

/-- A polled breaker against one that is not: the same but for when it left its
last state, or half open where the other has cooled down. -/
inductive Agrees (config : CircuitBreakerConfig) (now : Instant) (history : List Event) :
    CircuitBreaker → CircuitBreaker → Prop
  | same {breaker : CircuitBreaker} (change : Instant)
      (hchange : breaker.state = .opened → change = breaker.lastStateChange) :
      Agrees config now history (breaker.changedAt change) breaker
  | polled {breaker : CircuitBreaker} (change : Instant) (hopen : breaker.state = .opened)
      (hover : config.recoveryTimeout ≤ now - breaker.lastStateChange)
      (hpolled : Polled history) :
      Agrees config now history (breaker.enterHalfOpen change) breaker

section Step

variable {config : CircuitBreakerConfig} {now time : Instant} {history : List Event}
  {noisy quiet breaker : CircuitBreaker} {result : Result}

theorem Agrees.refl (config : CircuitBreakerConfig) (now : Instant) (history : List Event)
    (breaker : CircuitBreaker) : Agrees config now history breaker breaker :=
  .same breaker.lastStateChange fun _ => rfl

theorem Agrees.trips (hagrees : Agrees config now history noisy quiet) :
    noisy.totalTrips = quiet.totalTrips := by
  cases hagrees <;> rfl

theorem Agrees.later (hagrees : Agrees config now history noisy quiet) (htime : now ≤ time)
    (event : Event) (hcall : event.call ≠ .canExecute) :
    Agrees config time (history ++ [event]) noisy quiet := by
  cases hagrees with
  | same change hchange => exact .same change hchange
  | polled change hopen hover hpolled =>
      exact .polled change hopen (hover.trans (Nat.sub_le_sub_right htime _))
        (hpolled.concat hcall)

/-- A poll leaves a breaker as it is, or finds that it has cooled down. -/
theorem answer_state_cases (config : CircuitBreakerConfig) (time : Instant)
    (breaker : CircuitBreaker) (pause : Duration) :
    (answer config time breaker (.state pause)).1 = breaker ∨
      breaker.state = .opened ∧ config.recoveryTimeout ≤ time - breaker.lastStateChange ∧
        (answer config time breaker (.state pause)).1 = breaker.enterHalfOpen (time + pause) := by
  simp only [answer, observeState]
  split
  next hover => exact Or.inr ⟨hover.1, hover.2, rfl⟩
  next => exact Or.inl rfl

/-- A poll moves only the breaker that is polled. -/
theorem Agrees.poll (hagrees : Agrees config now history noisy quiet) (htime : now ≤ time)
    (pause : Duration) (result : Result) :
    Agrees config (time + pause)
      (history ++ [shown time (.state pause) noisy result
        (answer config time noisy (.state pause)).1])
      (answer config time noisy (.state pause)).1 quiet := by
  have hlater : now ≤ time + pause := htime.trans (Nat.le_add_right _ _)
  rcases answer_state_cases config time noisy pause with hsame | ⟨hopen, hover, hmoves⟩
  · rw [hsame]
    exact hagrees.later hlater _ (by simp)
  · rw [hmoves]
    cases hagrees with
    | polled change => simp [enterHalfOpen] at hopen
    | same change hchange =>
        obtain rfl := hchange hopen
        refine .polled (time + pause) hopen
          (hover.trans (Nat.sub_le_sub_right (Nat.le_add_right _ _) _)) ?_
        refine ⟨history, _, [], pause, rfl, rfl, ⟨?_, rfl⟩, by simp⟩
        intro hhalf
        have hboth := hopen.symm.trans hhalf
        contradiction

theorem answer_canExecute_of_ne (hstate : breaker.state ≠ .opened) :
    answer config time breaker .canExecute = (breaker, .executed (.ok ())) := by
  cases hcase : breaker.state with
  | opened => exact absurd hcase hstate
  | closed => simp [answer, canExecute, hcase]
  | halfOpen => simp [answer, canExecute, hcase]

/-- A call is let through, or rejected, alike, and the breakers are the same after
it. -/
theorem Agrees.execute (hagrees : Agrees config now history noisy quiet) (htime : now ≤ time)
    (later : List Event) :
    (answer config time noisy .canExecute).2 = (answer config time quiet .canExecute).2 ∧
      Agrees config time later (answer config time noisy .canExecute).1
        (answer config time quiet .canExecute).1 := by
  cases hagrees with
  | polled change hopen hover hpolled =>
      have hlater : config.recoveryTimeout ≤ time - quiet.lastStateChange :=
        hover.trans (Nat.sub_le_sub_right htime _)
      have hprobe : answer config time quiet .canExecute =
          (quiet.enterHalfOpen time, .executed (.ok ())) := by
        simp [answer, canExecute, hopen, hlater]
      have hhalf : ∀ since, (quiet.enterHalfOpen since).state ≠ .opened := by
        simp [enterHalfOpen]
      have hprobed : Agrees config time later ((quiet.enterHalfOpen time).changedAt change)
          (quiet.enterHalfOpen time) := .same change fun h => absurd h (hhalf time)
      rw [hprobe, answer_canExecute_of_ne (hhalf change)]
      exact ⟨rfl, hprobed⟩
  | same change hchange =>
      by_cases hopen : quiet.state = .opened
      · obtain rfl := hchange hopen
        exact ⟨rfl, .refl config time later _⟩
      · have hother : (quiet.changedAt change).state ≠ .opened := hopen
        rw [answer_canExecute_of_ne hopen, answer_canExecute_of_ne hother]
        exact ⟨rfl, .same change hchange⟩

/-- Outside of an open breaker the time of the last change decides nothing. -/
theorem answer_changedAt {call : Call} (hcall : call = .recordSuccess ∨ call = .recordFailure)
    (hstate : breaker.state ≠ .opened) (change : Instant) :
    (answer config time (breaker.changedAt change) call).1 = (answer config time breaker call).1 ∨
      (answer config time (breaker.changedAt change) call).1 =
          (answer config time breaker call).1.changedAt change ∧
        (answer config time breaker call).1.state = breaker.state := by
  rcases hcall with rfl | rfl
  · by_cases hhalf : breaker.state = .halfOpen
    · by_cases henough : config.halfOpenSuccessThreshold ≤ breaker.consecutiveSuccesses + 1
      · exact Or.inl (by simp [answer, recordSuccess, changedAt, hhalf, henough])
      · exact Or.inr (by simp [answer, recordSuccess, changedAt, hhalf, henough])
    · exact Or.inr (by simp [answer, recordSuccess, changedAt, hhalf])
  · cases hcase : breaker.state with
    | opened => exact absurd hcase hstate
    | halfOpen => exact Or.inl (by simp [answer, recordFailure, changedAt, trip, hcase])
    | closed =>
        by_cases henough : config.failureThreshold ≤ breaker.consecutiveFailures + 1
        · exact Or.inl (by simp [answer, recordFailure, changedAt, trip, hcase, henough])
        · exact Or.inr (by simp [answer, recordFailure, changedAt, hcase, henough])

/-- So does what is recorded, unless a poll alone brought the breaker into half
open. -/
theorem Agrees.record (hagrees : Agrees config now history noisy quiet)
    (hnot : ¬Polled history) {call : Call} (hcall : call = .recordSuccess ∨ call = .recordFailure)
    (later : List Event) :
    (answer config time noisy call).2 = (answer config time quiet call).2 ∧
      Agrees config time later (answer config time noisy call).1
        (answer config time quiet call).1 := by
  refine ⟨by rcases hcall with rfl | rfl <;> rfl, ?_⟩
  cases hagrees with
  | polled change hopen hover hpolled => exact absurd hpolled hnot
  | same change hchange =>
      by_cases hopen : quiet.state = .opened
      · obtain rfl := hchange hopen
        exact .refl config time later _
      · rcases answer_changedAt hcall hopen change with hsame | ⟨hchanged, hstate⟩
        · rw [hsame]
          exact .refl config time later _
        · rw [hchanged]
          exact .same change fun h => absurd (hstate.symm.trans h) hopen

end Step

/-- A session and its history after one more call. -/
def next (config : CircuitBreakerConfig) (reached : Session CircuitBreaker × List Event)
    (timed : Timed Call) : Session CircuitBreaker × List Event :=
  let time := reached.1.now + timed.elapsed
  let answered := answer config time reached.1.state timed.call
  (⟨time + timed.call.lasts, answered.1⟩,
    reached.2 ++ [shown time timed.call reached.1.state answered.2 answered.1])

/-- A polled run beside the one that has not been polled since `skipped` ago. -/
structure Beside (config : CircuitBreakerConfig) (skipped : Duration)
    (noisy quiet : Session CircuitBreaker × List Event) : Prop where
  time : quiet.1.now + skipped = noisy.1.now
  state : Agrees config noisy.1.now noisy.2 noisy.1.state quiet.1.state
  seen : observations quiet.2 = observations noisy.2

namespace Beside

variable {config : CircuitBreakerConfig} {skipped : Duration}
  {noisy quiet : Session CircuitBreaker × List Event}

theorem poll (hbeside : Beside config skipped noisy quiet) (elapsed pause : Duration) :
    Beside config (skipped + elapsed + pause)
      (next config noisy ⟨elapsed, .state pause⟩) quiet := by
  constructor
  · rw [← Nat.add_assoc, ← Nat.add_assoc, hbeside.time]
    rfl
  · exact hbeside.state.poll (Nat.le_add_right _ _) pause _
  · rw [hbeside.seen, next, observations_concat]
    exact (List.append_nil _).symm

/-- A call that is answered alike in both runs is made at the same time in both. -/
theorem call (hbeside : Beside config skipped noisy quiet) {call : Call} (elapsed : Duration)
    (hlasts : call.lasts = 0)
    (hanswer : ∀ later, let time := noisy.1.now + elapsed
      (answer config time noisy.1.state call).2 = (answer config time quiet.1.state call).2 ∧
        Agrees config time later (answer config time noisy.1.state call).1
          (answer config time quiet.1.state call).1) :
    Beside config 0 (next config noisy ⟨elapsed, call⟩)
      (next config quiet ⟨skipped + elapsed, call⟩) := by
  have htime : quiet.1.now + (skipped + elapsed) = noisy.1.now + elapsed := by
    rw [← Nat.add_assoc, hbeside.time]
  unfold next
  rw [htime]
  constructor
  · rfl
  · simp only [hlasts, Nat.add_zero]
    exact (hanswer _).2
  · obtain ⟨hresult, hagrees⟩ := hanswer []
    simp only [observations_concat, hbeside.seen, observe, hresult, hagrees.trips]

end Beside

section Run

variable {config : CircuitBreakerConfig} {start : Instant} {calls : List (Timed Call)}

theorem run_concat_next (config : CircuitBreakerConfig) (start : Instant)
    (calls : List (Timed Call)) (timed : Timed Call) :
    run config start (calls ++ [timed]) = next config (run config start calls) timed :=
  run_concat config start calls timed

theorem notSteered_concat {timed : Timed Call}
    (hsteered : NotSteered config start (calls ++ [timed])) :
    NotSteered config start calls ∧
      (timed.call = .recordSuccess ∨ timed.call = .recordFailure →
        ¬Polled (run config start calls).2) := by
  obtain ⟨hbefore, hlast⟩ := justified_append.mp hsteered
  refine ⟨hbefore, ?_⟩
  simpa only [List.append_nil] using hlast [] timed [] rfl

/-- Without polls nothing is steered. -/
theorem notSteered_of_forall (hcalls : ∀ timed ∈ calls, ∀ pause, timed.call ≠ .state pause) :
    NotSteered config start calls := by
  rintro before timed after rfl - ⟨first, poll, rest, pause, hhistory, hpoll, -, -⟩
  have hmade : Call.state pause ∈ before.map Timed.call := by
    rw [← (service config).observed.run_calls start (new start) before]
    refine List.mem_map.mpr ⟨poll, ?_, hpoll⟩
    exact hhistory ▸ List.mem_append_right _ List.mem_cons_self
  obtain ⟨other, hother, hcall⟩ := List.mem_map.mp hmade
  exact hcalls other (List.mem_append_left _ hother) pause hcall

/-- Nor is it right after a call that asks to be let through. -/
theorem not_polled_concat {history : List Event} {event : Event}
    (hcall : event.call = .canExecute) : ¬Polled (history ++ [event]) := by
  rintro ⟨before, poll, after, pause, hhistory, hpoll, -, hafter⟩
  rcases concat_eq_split hhistory with ⟨-, rfl, -⟩ | ⟨rest, rfl, -⟩
  · exact nomatch hcall.symm.trans hpoll
  · exact hafter event (by simp) hcall

theorem beside_run (hsteered : NotSteered config start calls) :
    Beside config (skippedTime calls) (run config start calls)
      (run config start (withoutState calls)) := by
  induction calls using List.reverseRecOn with
  | nil => exact ⟨rfl, .refl _ _ _ _, rfl⟩
  | append_singleton calls timed ih =>
      obtain ⟨hbefore, hlast⟩ := notSteered_concat hsteered
      have hbeside := ih hbefore
      obtain ⟨elapsed, call⟩ := timed
      have htime : (run config start calls).1.now ≤ (run config start calls).1.now + elapsed :=
        Nat.le_add_right _ _
      by_cases hpoll : ∃ pause, call = .state pause
      · obtain ⟨pause, rfl⟩ := hpoll
        obtain ⟨hkept, hskipped⟩ := withoutState_concat_state calls elapsed pause
        rw [hkept, hskipped, run_concat_next]
        exact hbeside.poll elapsed pause
      · obtain ⟨hkept, hskipped⟩ := withoutState_concat (not_exists.mp hpoll) calls elapsed
        rw [hkept, hskipped, run_concat_next, run_concat_next]
        cases call with
        | state pause => exact absurd ⟨pause, rfl⟩ hpoll
        | canExecute =>
            exact hbeside.call elapsed rfl fun later => hbeside.state.execute htime later
        | recordSuccess =>
            exact hbeside.call elapsed rfl fun later =>
              hbeside.state.record (hlast (Or.inl rfl)) (Or.inl rfl) later
        | recordFailure =>
            exact hbeside.call elapsed rfl fun later =>
              hbeside.state.record (hlast (Or.inr rfl)) (Or.inr rfl) later

/-- Deleting all polls from a session changes no answer and no count of trips,
while no outcome is recorded for a breaker that a poll brought into half open. -/
theorem polls_unobserved (hsteered : NotSteered config start calls) :
    observations (run config start (withoutState calls)).2 =
        observations (run config start calls).2 ∧
      (run config start (withoutState calls)).1.state.totalTrips =
        (run config start calls).1.state.totalTrips :=
  ⟨(beside_run hsteered).seen, (beside_run hsteered).state.trips.symm⟩

end Run

end CircuitBreaker

namespace BreakerWitness

open CircuitBreaker

/-- The breaker opens, is polled when it has cooled down, and probed. -/
def polledProbe : List (Timed Call) :=
  List.replicate 5 ⟨1, .recordFailure⟩ ++ [⟨Duration.fromSecs 30, .state 2⟩] ++
    [⟨1, .canExecute⟩] ++ [⟨1, .recordFailure⟩]

theorem polledProbe_unobserved :
    observations (run CircuitBreakerConfig.default 0 (withoutState polledProbe)).2 =
        observations (run CircuitBreakerConfig.default 0 polledProbe).2 ∧
      (run CircuitBreakerConfig.default 0 (withoutState polledProbe)).1.state.totalTrips =
        (run CircuitBreakerConfig.default 0 polledProbe).1.state.totalTrips := by
  have hfailures : NotSteered CircuitBreakerConfig.default 0
      (List.replicate 5 ⟨1, .recordFailure⟩) :=
    notSteered_of_forall fun timed htimed pause => by
      rw [List.eq_of_mem_replicate htimed]
      exact nofun
  refine polls_unobserved (((hfailures.concat ?_).concat ?_).concat fun _ => ?_)
  · simp
  · simp
  · rw [run_concat_next]
    exact not_polled_concat rfl

/-- A call that began before the trip fails after a poll. -/
def lateFailure : List (Timed Call) :=
  List.replicate 5 ⟨1, .recordFailure⟩ ++
    [⟨Duration.fromSecs 30, .state 2⟩, ⟨1, .recordFailure⟩, ⟨1, .canExecute⟩]

/-- Polled, the breaker trips a second time and rejects the call that it lets
through otherwise. -/
theorem lateFailure_observed :
    ¬(observations (run CircuitBreakerConfig.default 0 (withoutState lateFailure)).2 =
        observations (run CircuitBreakerConfig.default 0 lateFailure).2 ∧
      (run CircuitBreakerConfig.default 0 (withoutState lateFailure)).1.state.totalTrips =
        (run CircuitBreakerConfig.default 0 lateFailure).1.state.totalTrips) := by
  decide +kernel

end BreakerWitness

end KiteX402
