/-
The sliding-window limiter: the times of the requests that were admitted, by
key, behind a mutex that a panic poisons for good.
-/
import KiteX402.Service
import KiteX402.TimeWindow
import Mathlib.Data.Finmap

namespace KiteX402

structure SlidingWindowConfig where
  maxRequests : ℕ
  windowDuration : Duration

/-- `SlidingWindowConfig::default()`. -/
def SlidingWindowConfig.default : SlidingWindowConfig := ⟨60, Duration.fromSecs 60⟩

/-- `state` is the `HashMap<String, VecDeque<Instant>>`. -/
structure SlidingWindowLimiter where
  state : Finmap fun _ : String => List Instant
  poisoned : Bool

namespace SlidingWindowLimiter

/-- `SlidingWindowLimiter::new`. -/
def new : SlidingWindowLimiter := ⟨∅, false⟩

inductive Panic where
  /-- `lock().unwrap()` after another panic. -/
  | lockPoisoned
  /-- `front().unwrap()` of an empty queue. -/
  | noFront
  /-- The sum of an `Instant` and a `Duration` is not representable. -/
  | instantOverflow
deriving DecidableEq

/-- `Ok` is `remaining`, `Err` is `retryAfter`; a reset returns nothing. -/
inductive Outcome where
  | remaining (quota : ℕ)
  | retryAfter (wait : Duration)
  | cleared
  | panicked (panic : Panic)
deriving DecidableEq

def Outcome.isPanic : Outcome → Bool
  | .panicked _ => true
  | _ => false

/-- The queue of a key, `or_default`. -/
def queue (limiter : SlidingWindowLimiter) (key : String) : List Instant :=
  (limiter.state.lookup key).getD []

variable (config : SlidingWindowConfig) (clock : MonotonicClock)

/-- Where the window that ends now begins. -/
def cutoff (now : Instant) : Instant :=
  (Instant.checkedSub now config.windowDuration).getD now

/-- The times of a key that are still in the window. -/
def timestamps (limiter : SlidingWindowLimiter) (key : String) (now : Instant) : List Instant :=
  keptSince (cutoff config now) (limiter.queue key)

/-- `SlidingWindowLimiter::check_and_record`. -/
def checkAndRecord (limiter : SlidingWindowLimiter) (key : String) (now : Instant) :
    SlidingWindowLimiter × Outcome :=
  if limiter.poisoned then (limiter, .panicked .lockPoisoned)
  else
    let timestamps := limiter.timestamps config key now
    if config.maxRequests ≤ timestamps.length then
      let state := limiter.state.insert key timestamps
      match timestamps.head? with
      | none => (⟨state, true⟩, .panicked .noFront)
      | some earliest =>
          match clock.checkedAdd earliest config.windowDuration with
          | none => (⟨state, true⟩, .panicked .instantOverflow)
          | some expiry => (⟨state, false⟩, .retryAfter (expiry - now))
    else
      let timestamps := timestamps ++ [now]
      (⟨limiter.state.insert key timestamps, false⟩,
        .remaining (config.maxRequests - timestamps.length))

/-- `SlidingWindowLimiter::reset`. -/
def reset (limiter : SlidingWindowLimiter) (key : String) : SlidingWindowLimiter × Outcome :=
  if limiter.poisoned then (limiter, .panicked .lockPoisoned)
  else ({ limiter with state := limiter.state.erase key }, .cleared)

inductive Call where
  | checkAndRecord (key : String)
  | reset (key : String)
deriving DecidableEq

def Call.key : Call → String
  | .checkAndRecord key | .reset key => key

def answer (now : Instant) (limiter : SlidingWindowLimiter) : Call → SlidingWindowLimiter × Outcome
  | .checkAndRecord key => limiter.checkAndRecord config clock key now
  | .reset key => limiter.reset key

def service : Service SlidingWindowLimiter Call Outcome := ⟨answer config clock, fun _ => 0⟩

/-- A session with a new limiter; its calls are those of all threads, each under
the lock. -/
def run (start : Instant) (calls : List (Timed Call)) :
    Session SlidingWindowLimiter × List (Answered Call Outcome) :=
  (service config clock).run start new calls

theorem run_concat (start : Instant) (calls : List (Timed Call)) (timed : Timed Call) :
    run config clock start (calls ++ [timed]) =
      let session := (run config clock start calls).1
      let time := session.now + timed.elapsed
      let answered := answer config clock time session.state timed.call
      (⟨time, answered.1⟩,
        (run config clock start calls).2 ++ [⟨time, timed.call, answered.2⟩]) :=
  (service config clock).run_concat start new calls timed

section Cases

variable {config : SlidingWindowConfig} {clock : MonotonicClock}
  {limiter : SlidingWindowLimiter} {key : String} {now : Instant}

/-- A call on a key whose quota is used up finds its oldest request, and can
represent what it has to wait for. -/
def Answerable (config : SlidingWindowConfig) (clock : MonotonicClock)
    (limiter : SlidingWindowLimiter) (now : Instant) : Call → Prop
  | .checkAndRecord key =>
      config.maxRequests ≤ (limiter.timestamps config key now).length →
        ∃ earliest, (limiter.timestamps config key now).head? = some earliest ∧
          earliest + config.windowDuration ≤ clock.latest
  | .reset _ => True

/-- What a call makes of a limiter whose mutex is not poisoned. -/
inductive Checked (config : SlidingWindowConfig) (clock : MonotonicClock)
    (limiter : SlidingWindowLimiter) (key : String) (now : Instant) :
    SlidingWindowLimiter × Outcome → Prop
  | admitted
      (hfew : (limiter.timestamps config key now).length < config.maxRequests) :
      Checked config clock limiter key now
        (⟨limiter.state.insert key (limiter.timestamps config key now ++ [now]), false⟩,
          .remaining (config.maxRequests - (limiter.timestamps config key now).length - 1))
  | limited {earliest : Instant}
      (hfull : config.maxRequests ≤ (limiter.timestamps config key now).length)
      (hearliest : (limiter.timestamps config key now).head? = some earliest)
      (hfits : earliest + config.windowDuration ≤ clock.latest) :
      Checked config clock limiter key now
        (⟨limiter.state.insert key (limiter.timestamps config key now), false⟩,
          .retryAfter (earliest + config.windowDuration - now))
  | panicked {panic : Panic}
      (hfull : config.maxRequests ≤ (limiter.timestamps config key now).length)
      (hnone : ∀ earliest, (limiter.timestamps config key now).head? = some earliest →
        clock.latest < earliest + config.windowDuration) :
      Checked config clock limiter key now
        (⟨limiter.state.insert key (limiter.timestamps config key now), true⟩, .panicked panic)

theorem checked (config : SlidingWindowConfig) (clock : MonotonicClock)
    (hsound : limiter.poisoned = false) (key : String) (now : Instant) :
    Checked config clock limiter key now (limiter.checkAndRecord config clock key now) := by
  simp only [checkAndRecord, hsound, Bool.false_eq_true, if_false]
  by_cases hfull : config.maxRequests ≤ (limiter.timestamps config key now).length
  · rw [if_pos hfull]
    cases hhead : (limiter.timestamps config key now).head? with
    | none => exact .panicked hfull fun earliest h => nomatch hhead.symm.trans h
    | some earliest =>
        by_cases hfits : earliest + config.windowDuration ≤ clock.latest
        · have hsum : clock.checkedAdd earliest config.windowDuration =
              some (earliest + config.windowDuration) := if_pos hfits
          simp only [hsum]
          exact .limited hfull hhead hfits
        · have hsum : clock.checkedAdd earliest config.windowDuration = none := if_neg hfits
          simp only [hsum]
          refine .panicked hfull fun other hother => ?_
          obtain rfl := Option.some.inj (hhead.symm.trans hother)
          exact not_le.mp hfits
  · rw [if_neg hfull, List.length_append, List.length_singleton, ← Nat.sub_sub]
    exact .admitted (not_le.mp hfull)

theorem checkAndRecord_of_poisoned (hpoisoned : limiter.poisoned = true) (key : String)
    (now : Instant) :
    limiter.checkAndRecord config clock key now = (limiter, .panicked .lockPoisoned) := by
  rw [checkAndRecord, if_pos hpoisoned]

/-- The mutex is poisoned once a call has panicked, and no sooner. -/
theorem answer_poisoned (limiter : SlidingWindowLimiter) (now : Instant) (call : Call) :
    (answer config clock now limiter call).1.poisoned =
      (limiter.poisoned || (answer config clock now limiter call).2.isPanic) := by
  cases hpoisoned : limiter.poisoned with
  | true => cases call <;> simp [answer, checkAndRecord, reset, hpoisoned]
  | false =>
      cases call with
      | checkAndRecord key =>
          have hchecked := checked config clock hpoisoned key now
          simp only [answer, Bool.false_or]
          generalize limiter.checkAndRecord config clock key now = answered at hchecked ⊢
          cases hchecked <;> rfl
      | reset key => simp [answer, reset, hpoisoned, Outcome.isPanic]

/-- Where the mutex is not poisoned a call panics just when it cannot be
answered. -/
theorem isPanic_answer_iff (hsound : limiter.poisoned = false) (now : Instant) (call : Call) :
    (answer config clock now limiter call).2.isPanic = false ↔
      Answerable config clock limiter now call := by
  cases call with
  | checkAndRecord key =>
      have hchecked := checked config clock hsound key now
      simp only [answer, Answerable]
      generalize limiter.checkAndRecord config clock key now = answered at hchecked ⊢
      cases hchecked with
      | admitted hfew => exact iff_of_true rfl fun hfull => absurd hfull (not_le.mpr hfew)
      | limited hfull hearliest hfits => exact iff_of_true rfl fun _ => ⟨_, hearliest, hfits⟩
      | panicked hfull hnone =>
          refine iff_of_false (by simp [Outcome.isPanic]) fun hanswerable => ?_
          obtain ⟨earliest, hearliest, hfits⟩ := hanswerable hfull
          exact absurd hfits (not_le.mpr (hnone earliest hearliest))
  | reset key => simp [answer, reset, hsound, Outcome.isPanic, Answerable]

end Cases

end SlidingWindowLimiter

end KiteX402
