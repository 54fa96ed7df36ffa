/-
What the sliding-window limiter admits, when it panics, and what its hint is
worth.
-/
import KiteX402.SlidingLimiter

namespace KiteX402

namespace SlidingWindowLimiter

abbrev Event := Answered Call Outcome

/-- Every call of a session can be answered, in the state it finds. -/
def AllAnswerable (config : SlidingWindowConfig) (clock : MonotonicClock) (start : Instant)
    (calls : List (Timed Call)) : Prop :=
  Justified (fun before timed => Answerable config clock (run config clock start before).1.state
    ((run config clock start before).1.now + timed.elapsed) timed.call) calls

section Panics

variable {config : SlidingWindowConfig} {clock : MonotonicClock} {start : Instant}
  {calls : List (Timed Call)}

theorem poisoned_run (config : SlidingWindowConfig) (clock : MonotonicClock) (start : Instant)
    (calls : List (Timed Call)) :
    (run config clock start calls).1.state.poisoned =
      (run config clock start calls).2.any (·.result.isPanic) := by
  induction calls using List.reverseRecOn with
  | nil => rfl
  | append_singleton calls timed ih =>
      rw [run_concat, List.any_append, ← ih]
      simp only [List.any_cons, List.any_nil, Bool.or_false]
      exact answer_poisoned _ _ _

theorem allAnswerable_concat {timed : Timed Call} :
    AllAnswerable config clock start (calls ++ [timed]) ↔
      AllAnswerable config clock start calls ∧
        Answerable config clock (run config clock start calls).1.state
          ((run config clock start calls).1.now + timed.elapsed) timed.call := by
  rw [AllAnswerable, justified_append]
  simp [AllAnswerable]

/-- The mutex stays sound exactly while all calls can be answered. -/
theorem sound_run_iff :
    (run config clock start calls).1.state.poisoned = false ↔
      AllAnswerable config clock start calls := by
  induction calls using List.reverseRecOn with
  | nil => exact iff_of_true rfl (justified_nil _)
  | append_singleton calls timed ih =>
      rw [run_concat, allAnswerable_concat, ← ih]
      simp only [answer_poisoned, Bool.or_eq_false_iff]
      exact and_congr_right fun hsound => isPanic_answer_iff hsound _ _

/-- No call of a session panics, and none finds the mutex poisoned, exactly when
all of them can be answered. -/
theorem never_panics_iff :
    ((∀ event ∈ (run config clock start calls).2, event.result.isPanic = false) ∧
        (run config clock start calls).1.state.poisoned = false) ↔
      AllAnswerable config clock start calls := by
  rw [← sound_run_iff, and_iff_right_iff_imp, poisoned_run, List.any_eq_false]
  exact fun hnone event hmem => eq_false_of_ne_true (hnone event hmem)

end Panics

/-- The time at which a call on the key was admitted. -/
def admission (key : String) (event : Event) : Option Instant :=
  match event.call, event.result with
  | .checkAndRecord other, .remaining _ => if other = key then some event.time else none
  | _, _ => none

def admissions (key : String) (history : List Event) : List Instant :=
  history.filterMap (admission key)

/-- The earlier requests in the closed window that ends now. -/
def windowCount (config : SlidingWindowConfig) (key : String) (history : List Event)
    (now : Instant) : ℕ :=
  ((admissions key history).filter fun time =>
    now - config.windowDuration ≤ time ∧ time ≤ now).length

/-- A call on the key is admitted just when the window that it ends holds fewer
requests than allowed, and is told how many more would be. -/
def AnswersByWindow (config : SlidingWindowConfig) (key : String) (history : List Event)
    (event : Event) : Prop :=
  event.call = .checkAndRecord key → ∀ quota, event.result = .remaining quota ↔
    windowCount config key history event.time < config.maxRequests ∧
      quota = config.maxRequests - windowCount config key history event.time - 1

/-- The queue of the key has the admissions of its window, and perhaps older
ones. -/
structure Logged (config : SlidingWindowConfig) (key : String) (now : Instant)
    (limiter : SlidingWindowLimiter) (history : List Event) : Prop where
  sorted : (admissions key history).Pairwise (· ≤ ·)
  past : ∀ time ∈ admissions key history, time ≤ now
  queue : ∃ since ≤ now - config.windowDuration,
    limiter.queue key = (admissions key history).filter (since ≤ ·)
  spaced : Spaced config.windowDuration config.maxRequests (admissions key history)

section Window

variable {config : SlidingWindowConfig} {clock : MonotonicClock} {key : String}
  {now time : Instant} {limiter : SlidingWindowLimiter} {history : List Event}

theorem admissions_concat (history : List Event) (event : Event) :
    admissions key (history ++ [event]) =
      admissions key history ++ (admission key event).toList := by
  rw [admissions, List.filterMap_append]
  cases hadmission : admission key event <;> simp [admissions, hadmission]

theorem admission_of_ne {event : Event} (hkey : event.call.key ≠ key) :
    admission key event = none := by
  obtain ⟨time, call, result⟩ := event
  cases call with
  | checkAndRecord other =>
      have hother : other ≠ key := hkey
      cases result <;> simp [admission, hother]
  | reset other => simp [admission]

theorem queue_insert_self (times : List Instant) (poisoned : Bool) :
    (⟨limiter.state.insert key times, poisoned⟩ : SlidingWindowLimiter).queue key = times := by
  rw [queue, Finmap.lookup_insert, Option.getD_some]

/-- Calls on other keys leave a queue alone. -/
theorem queue_answer_of_ne {call : Call} (hkey : call.key ≠ key) :
    (answer config clock time limiter call).1.queue key = limiter.queue key := by
  cases hpoisoned : limiter.poisoned with
  | true => cases call <;> simp [answer, checkAndRecord, reset, hpoisoned]
  | false =>
      cases call with
      | checkAndRecord other =>
          have hne : key ≠ other := Ne.symm hkey
          have hchecked := checked config clock hpoisoned other time
          simp only [answer]
          generalize limiter.checkAndRecord config clock other time = answered at hchecked ⊢
          cases hchecked <;> rw [queue, Finmap.lookup_insert_of_ne _ hne, queue]
      | reset other =>
          have hne : key ≠ other := Ne.symm hkey
          simp only [answer, reset, hpoisoned, Bool.false_eq_true, if_false]
          rw [queue, Finmap.lookup_erase_ne hne, queue]

theorem logged_new (config : SlidingWindowConfig) (key : String) (start : Instant) :
    Logged config key start new [] where
  sorted := List.Pairwise.nil
  past _ hmem := absurd hmem List.not_mem_nil
  queue := ⟨0, Nat.zero_le _, rfl⟩
  spaced := justified_nil _

namespace Logged

/-- What is left of the queue are the admissions in the window. -/
theorem timestamps_eq (hlogged : Logged config key now limiter history) (htime : now ≤ time)
    (hwindow : config.windowDuration ≤ time) :
    limiter.timestamps config key time =
      (admissions key history).filter (time - config.windowDuration ≤ ·) := by
  obtain ⟨since, hsince, hqueue⟩ := hlogged.queue
  have hcutoff : cutoff config time = time - config.windowDuration := by
    rw [cutoff, Instant.checkedSub, if_pos hwindow, Option.getD_some]
  rw [timestamps, hcutoff, hqueue]
  exact keptSince_filter hlogged.sorted (hsince.trans (Nat.sub_le_sub_right htime _))

theorem windowCount_eq (hlogged : Logged config key now limiter history) (htime : now ≤ time)
    (hwindow : config.windowDuration ≤ time) :
    windowCount config key history time = (limiter.timestamps config key time).length := by
  rw [hlogged.timestamps_eq htime hwindow, windowCount]
  congr 1
  refine List.filter_congr fun earlier hearlier => ?_
  simp [(hlogged.past earlier hearlier).trans htime]

/-- A call that is not admitted changes no more than its queue, which it cuts
back to the window. -/
theorem keep (hlogged : Logged config key now limiter history) (htime : now ≤ time)
    {next : SlidingWindowLimiter} {event : Event} (hevent : admission key event = none)
    (hqueue : next.queue key = limiter.queue key ∨
      next.queue key = (admissions key history).filter (time - config.windowDuration ≤ ·)) :
    Logged config key time next (history ++ [event]) := by
  have hsame : admissions key (history ++ [event]) = admissions key history := by
    rw [admissions_concat, hevent, Option.toList_none, List.append_nil]
  constructor
  · rw [hsame]
    exact hlogged.sorted
  · rw [hsame]
    exact fun earlier hearlier => (hlogged.past earlier hearlier).trans htime
  · rw [hsame]
    rcases hqueue with hqueue | hqueue
    · obtain ⟨since, hsince, hheld⟩ := hlogged.queue
      exact ⟨since, hsince.trans (Nat.sub_le_sub_right htime _), hqueue.trans hheld⟩
    · exact ⟨_, le_rfl, hqueue⟩
  · rw [hsame]
    exact hlogged.spaced

theorem record (hlogged : Logged config key now limiter history) (htime : now ≤ time)
    {next : SlidingWindowLimiter} {event : Event} (hevent : admission key event = some time)
    (hqueue : next.queue key =
      (admissions key history).filter (time - config.windowDuration ≤ ·) ++ [time])
    (hfew : ((admissions key history).filter
      (time - config.windowDuration ≤ ·)).length < config.maxRequests) :
    Logged config key time next (history ++ [event]) := by
  have hnext : admissions key (history ++ [event]) = admissions key history ++ [time] := by
    rw [admissions_concat, hevent, Option.toList_some]
  constructor
  · rw [hnext, List.pairwise_append]
    refine ⟨hlogged.sorted, List.pairwise_singleton _ _, fun earlier hearlier last hlast => ?_⟩
    rw [List.mem_singleton.mp hlast]
    exact (hlogged.past earlier hearlier).trans htime
  · rw [hnext]
    intro earlier hearlier
    rcases List.mem_append.mp hearlier with hearlier | hlast
    · exact (hlogged.past earlier hearlier).trans htime
    · exact (List.mem_singleton.mp hlast).le
  · refine ⟨time - config.windowDuration, le_rfl, ?_⟩
    rw [hqueue, hnext, List.filter_append, List.filter_singleton,
      decide_eq_true (Nat.sub_le _ _), cond_true]
  · rw [hnext]
    refine hlogged.spaced.concat ?_
    simpa only [Nat.sub_le_iff_le_add] using hfew

theorem step (hlogged : Logged config key now limiter history) (htime : now ≤ time)
    {call : Call} (hreset : call ≠ .reset key)
    (hwindow : call = .checkAndRecord key → config.windowDuration ≤ time) :
    Logged config key time (answer config clock time limiter call).1
      (history ++ [⟨time, call, (answer config clock time limiter call).2⟩]) := by
  by_cases hkey : call.key = key
  · cases call with
    | reset other => exact absurd (congrArg Call.reset hkey) hreset
    | checkAndRecord other =>
        obtain rfl : other = key := hkey
        have htimes := hlogged.timestamps_eq htime (hwindow rfl)
        cases hpoisoned : limiter.poisoned with
        | true =>
            simp only [answer, checkAndRecord_of_poisoned hpoisoned]
            exact hlogged.keep htime rfl (Or.inl rfl)
        | false =>
            have hchecked := checked config clock hpoisoned other time
            simp only [answer]
            generalize limiter.checkAndRecord config clock other time = answered at hchecked ⊢
            cases hchecked with
            | admitted hfew =>
                rw [htimes] at hfew ⊢
                exact hlogged.record htime (if_pos rfl) (queue_insert_self _ _) hfew
            | limited hfull hearliest hfits =>
                exact hlogged.keep htime rfl (Or.inr ((queue_insert_self _ _).trans htimes))
            | panicked hfull hnone =>
                exact hlogged.keep htime rfl (Or.inr ((queue_insert_self _ _).trans htimes))
  · exact hlogged.keep htime (admission_of_ne hkey) (Or.inl (queue_answer_of_ne hkey))

/-- Where the mutex is not poisoned, calls are answered by the window. -/
theorem law (hlogged : Logged config key now limiter history) (htime : now ≤ time)
    (hsound : limiter.poisoned = false) (call : Call)
    (hwindow : call = .checkAndRecord key → config.windowDuration ≤ time) :
    AnswersByWindow config key history
      ⟨time, call, (answer config clock time limiter call).2⟩ := by
  intro hcall quota
  obtain rfl : call = .checkAndRecord key := hcall
  have hchecked := checked config clock hsound key time
  rw [hlogged.windowCount_eq htime (hwindow rfl)]
  simp only [answer]
  generalize limiter.checkAndRecord config clock key time = answered at hchecked ⊢
  cases hchecked with
  | admitted hfew =>
      rw [Outcome.remaining.injEq]
      exact ⟨fun heq => ⟨hfew, heq.symm⟩, fun h => h.2.symm⟩
  | limited hfull hearliest hfits =>
      exact iff_of_false (by simp) fun h => absurd h.1 (not_lt.mpr hfull)
  | panicked hfull hnone =>
      exact iff_of_false (by simp) fun h => absurd h.1 (not_lt.mpr hfull)

end Logged

/-- While all calls can be answered, a key that is not reset is admitted by its
window, and no interval of the length of the window holds more admissions than
allowed. -/
theorem admits_by_window {start : Instant} {calls : List (Timed Call)}
    (hwindow : ∀ event ∈ (run config clock start calls).2,
      event.call = .checkAndRecord key → config.windowDuration ≤ event.time)
    (hreset : ∀ timed ∈ calls, timed.call ≠ .reset key)
    (hanswerable : AllAnswerable config clock start calls) :
    Justified (AnswersByWindow config key) (run config clock start calls).2 ∧
      ∀ first, ((admissions key (run config clock start calls).2).filter fun time =>
        first ≤ time ∧ time ≤ first + config.windowDuration).length ≤ config.maxRequests := by
  have hrun : Logged config key (run config clock start calls).1.now
        (run config clock start calls).1.state (run config clock start calls).2 ∧
      Justified (AnswersByWindow config key) (run config clock start calls).2 := by
    induction calls using List.reverseRecOn with
    | nil => exact ⟨logged_new config key start, justified_nil _⟩
    | append_singleton calls timed ih =>
        have hbefore := (allAnswerable_concat.mp hanswerable).1
        have hsound : (run config clock start calls).1.state.poisoned = false :=
          sound_run_iff.mpr hbefore
        rw [run_concat] at hwindow ⊢
        obtain ⟨hwindow, hlast⟩ := List.forall_mem_append.mp hwindow
        obtain ⟨hreset, hnoReset⟩ := List.forall_mem_append.mp hreset
        obtain ⟨hlogged, hlaws⟩ := ih hwindow hreset hbefore
        have htime : (run config clock start calls).1.now ≤
            (run config clock start calls).1.now + timed.elapsed := Nat.le_add_right _ _
        have hnow := hlast _ (List.mem_singleton_self _)
        exact ⟨hlogged.step htime (hnoReset timed (List.mem_singleton_self _)) hnow,
          hlaws.concat (hlogged.law htime hsound timed.call hnow)⟩
  exact ⟨hrun.2, hrun.1.spaced.length_within_le⟩

end Window

/-- How a call is answered that is made `timed.elapsed` after a session. -/
def answerAfter (config : SlidingWindowConfig) (clock : MonotonicClock) (start : Instant)
    (calls : List (Timed Call)) (timed : Timed Call) : Outcome :=
  (answer config clock ((run config clock start calls).1.now + timed.elapsed)
    (run config clock start calls).1.state timed.call).2

/-- The hint that a session ends with is worth the wait: whatever happens to other
keys meanwhile, a request is admitted once exactly so much time has passed. -/
def HintSuffices (config : SlidingWindowConfig) (clock : MonotonicClock) (start : Instant)
    (calls : List (Timed Call)) (key : String) (hint : Duration) : Prop :=
  0 < hint ∧ ∀ others wait, (∀ other ∈ others, other.call.key ≠ key) →
    (run config clock start (calls ++ others)).1.now + wait =
      (run config clock start calls).1.now + hint →
    ∃ quota, answerAfter config clock start (calls ++ others) ⟨wait, .checkAndRecord key⟩ =
      .remaining quota

section Hint

variable {config : SlidingWindowConfig} {clock : MonotonicClock} {key : String}
  {now : Instant} {limiter : SlidingWindowLimiter} {start : Instant} {calls : List (Timed Call)}

theorem cutoff_le_add (config : SlidingWindowConfig) (now : Instant) :
    now ≤ cutoff config now + config.windowDuration := by
  unfold cutoff Instant.checkedSub
  split
  next hfits => exact (Nat.sub_add_cancel hfits).ge
  next => exact Nat.le_add_right _ _

theorem cutoff_add (config : SlidingWindowConfig) (earliest : Instant) :
    cutoff config (earliest + config.windowDuration) = earliest := by
  rw [cutoff, Instant.checkedSub, if_pos (Nat.le_add_left _ _), Option.getD_some,
    Nat.add_sub_cancel]

/-- A refused call leaves a full queue, and its hint ends a window after the
oldest time in it. -/
theorem queue_of_retryAfter {hint : Duration}
    (hrefused : (limiter.checkAndRecord config clock key now).2 = .retryAfter hint) :
    config.maxRequests ≤ ((limiter.checkAndRecord config clock key now).1.queue key).length ∧
      ∃ earliest, ((limiter.checkAndRecord config clock key now).1.queue key).head? =
          some earliest ∧ now + hint = earliest + config.windowDuration := by
  cases hpoisoned : limiter.poisoned with
  | true =>
      rw [checkAndRecord_of_poisoned hpoisoned] at hrefused
      contradiction
  | false =>
      have hchecked := checked config clock hpoisoned key now
      generalize limiter.checkAndRecord config clock key now = answered at hchecked hrefused ⊢
      cases hchecked with
      | admitted hfew => contradiction
      | panicked hfull hnone => contradiction
      | limited hfull hearliest hfits =>
          rw [queue_insert_self]
          refine ⟨hfull, _, hearliest, ?_⟩
          rw [← Outcome.retryAfter.inj hrefused]
          have hsince := cutoff_le_of_head? hearliest
          exact Nat.add_sub_cancel'
            ((cutoff_le_add config now).trans (Nat.add_le_add_right hsince _))

/-- A window after its oldest time a full queue is still full. -/
theorem not_remaining_of_head? {earliest : Instant}
    (hfull : config.maxRequests ≤ (limiter.queue key).length)
    (hearliest : (limiter.queue key).head? = some earliest) (quota : ℕ) :
    (limiter.checkAndRecord config clock key (earliest + config.windowDuration)).2 ≠
      .remaining quota := by
  cases hpoisoned : limiter.poisoned with
  | true =>
      rw [checkAndRecord_of_poisoned hpoisoned]
      exact fun h => nomatch h
  | false =>
      have hkept : limiter.timestamps config key (earliest + config.windowDuration) =
          limiter.queue key := by
        rw [timestamps, cutoff_add, keptSince_of_head? hearliest]
      have hchecked := checked config clock hpoisoned key (earliest + config.windowDuration)
      generalize limiter.checkAndRecord config clock key (earliest + config.windowDuration) =
        answered at hchecked ⊢
      cases hchecked with
      | admitted hfew =>
          rw [hkept] at hfew
          exact absurd hfull (not_le.mpr hfew)
      | limited hfull hearliest hfits => exact fun h => nomatch h
      | panicked hfull hnone => exact fun h => nomatch h

/-- Later than that a queue within the quota has room. -/
theorem remaining_of_head? {earliest : Instant} (hsound : limiter.poisoned = false)
    (hbound : (limiter.queue key).length ≤ config.maxRequests)
    (hearliest : (limiter.queue key).head? = some earliest)
    (hpast : earliest + config.windowDuration < now) :
    ∃ quota, (limiter.checkAndRecord config clock key now).2 = .remaining quota := by
  have hcutoff : cutoff config now = now - config.windowDuration := by
    rw [cutoff, Instant.checkedSub, if_pos ((Nat.le_add_left _ _).trans hpast.le),
      Option.getD_some]
  have hroom : (limiter.timestamps config key now).length < config.maxRequests := by
    rw [timestamps, hcutoff]
    exact (length_keptSince_lt hearliest (Nat.lt_sub_of_add_lt hpast)).trans_le hbound
  have hchecked := checked config clock hsound key now
  generalize limiter.checkAndRecord config clock key now = answered at hchecked ⊢
  cases hchecked with
  | admitted hfew => exact ⟨_, rfl⟩
  | limited hfull hearliest hfits => exact absurd hfull (not_le.mpr hroom)
  | panicked hfull hnone => exact absurd hfull (not_le.mpr hroom)

/-- A queue never holds more than the quota. -/
theorem length_queue_answer_le (hbound : (limiter.queue key).length ≤ config.maxRequests)
    (now : Instant) (call : Call) :
    ((answer config clock now limiter call).1.queue key).length ≤ config.maxRequests := by
  by_cases hkey : call.key = key
  · cases hpoisoned : limiter.poisoned with
    | true => cases call <;> simpa [answer, checkAndRecord, reset, hpoisoned] using hbound
    | false =>
        cases call with
        | reset other =>
            obtain rfl : other = key := hkey
            simp [answer, reset, hpoisoned, queue, Finmap.lookup_erase]
        | checkAndRecord other =>
            obtain rfl : other = key := hkey
            have hkept : (limiter.timestamps config other now).length ≤ config.maxRequests :=
              (List.dropWhile_sublist _).length_le.trans hbound
            have hchecked := checked config clock hpoisoned other now
            simp only [answer]
            generalize limiter.checkAndRecord config clock other now = answered at hchecked ⊢
            cases hchecked with
            | admitted hfew =>
                rw [queue_insert_self, List.length_append]
                exact hfew
            | limited hfull hearliest hfits =>
                rw [queue_insert_self]
                exact hkept
            | panicked hfull hnone =>
                rw [queue_insert_self]
                exact hkept
  · rw [queue_answer_of_ne hkey]
    exact hbound

theorem length_queue_run_le (config : SlidingWindowConfig) (clock : MonotonicClock)
    (start : Instant) (calls : List (Timed Call)) (key : String) :
    ((run config clock start calls).1.state.queue key).length ≤ config.maxRequests :=
  (service config clock).run_induction
    (P := fun session _ => (session.state.queue key).length ≤ config.maxRequests)
    (Nat.zero_le _)
    (fun _ _ now call hbound _ => length_queue_answer_le hbound now call) calls

theorem queue_run_others (others : List (Timed Call))
    (hothers : ∀ other ∈ others, other.call.key ≠ key) :
    (run config clock start (calls ++ others)).1.state.queue key =
      (run config clock start calls).1.state.queue key := by
  induction others using List.reverseRecOn with
  | nil => rw [List.append_nil]
  | append_singleton others other ih =>
      obtain ⟨hothers, hlast⟩ := List.forall_mem_append.mp hothers
      rw [← List.append_assoc, run_concat, ← ih hothers]
      exact queue_answer_of_ne (hlast other (List.mem_singleton_self _))

/-- What a refused call leaves in its queue, and what is still there after calls
on other keys. -/
theorem queue_run_of_retryAfter {elapsed hint : Duration} {others : List (Timed Call)}
    (hrefused : answerAfter config clock start calls ⟨elapsed, .checkAndRecord key⟩ =
      .retryAfter hint)
    (hothers : ∀ other ∈ others, other.call.key ≠ key) :
    let refused := calls ++ [⟨elapsed, .checkAndRecord key⟩]
    let queue := (run config clock start (refused ++ others)).1.state.queue key
    config.maxRequests ≤ queue.length ∧ ∃ earliest, queue.head? = some earliest ∧
      (run config clock start refused).1.now + hint = earliest + config.windowDuration := by
  intro refused queue
  have hqueue : queue = ((run config clock start calls).1.state.checkAndRecord config clock key
      ((run config clock start calls).1.now + elapsed)).1.queue key := by
    refine (queue_run_others others hothers).trans ?_
    rw [run_concat]
    rfl
  have hnow : (run config clock start refused).1.now =
      (run config clock start calls).1.now + elapsed := by
    rw [run_concat]
  rw [hqueue, hnow]
  exact queue_of_retryAfter hrefused

/-- The hint of a refused request is never worth the wait: the pruning keeps a time
that is exactly a window old, so that no retry at the hinted time is admitted. -/
theorem hint_never_suffices {elapsed hint : Duration}
    (hrefused : answerAfter config clock start calls ⟨elapsed, .checkAndRecord key⟩ =
      .retryAfter hint) :
    let refused := calls ++ [⟨elapsed, .checkAndRecord key⟩]
    ¬HintSuffices config clock start refused key hint ∧
      ∀ others wait, (∀ other ∈ others, other.call.key ≠ key) →
        (run config clock start (refused ++ others)).1.now + wait =
          (run config clock start refused).1.now + hint →
        ∀ quota, answerAfter config clock start (refused ++ others)
          ⟨wait, .checkAndRecord key⟩ ≠ .remaining quota := by
  intro refused
  have hretry : ∀ others wait, (∀ other ∈ others, other.call.key ≠ key) →
      (run config clock start (refused ++ others)).1.now + wait =
        (run config clock start refused).1.now + hint →
      ∀ quota, answerAfter config clock start (refused ++ others)
        ⟨wait, .checkAndRecord key⟩ ≠ .remaining quota := by
    intro others wait hothers htime
    obtain ⟨hfull, earliest, hearliest, hexpiry⟩ := queue_run_of_retryAfter hrefused hothers
    rw [answerAfter, htime, hexpiry]
    exact not_remaining_of_head? hfull hearliest
  refine ⟨fun hsuffices => ?_, hretry⟩
  obtain ⟨quota, hquota⟩ := hsuffices.2 [] hint (by simp) (by rw [List.append_nil])
  exact hretry [] hint (by simp) (by rw [List.append_nil]) quota hquota

/-- Any later retry is admitted, unless the mutex was poisoned meanwhile. -/
theorem admitted_past_hint {elapsed hint wait : Duration} {others : List (Timed Call)}
    (hrefused : answerAfter config clock start calls ⟨elapsed, .checkAndRecord key⟩ =
      .retryAfter hint)
    (hothers : ∀ other ∈ others, other.call.key ≠ key)
    (hanswerable : AllAnswerable config clock start
      (calls ++ [⟨elapsed, .checkAndRecord key⟩] ++ others))
    (hpast : (run config clock start (calls ++ [⟨elapsed, .checkAndRecord key⟩])).1.now + hint <
      (run config clock start (calls ++ [⟨elapsed, .checkAndRecord key⟩] ++ others)).1.now +
        wait) :
    ∃ quota, answerAfter config clock start (calls ++ [⟨elapsed, .checkAndRecord key⟩] ++ others)
      ⟨wait, .checkAndRecord key⟩ = .remaining quota := by
  obtain ⟨-, earliest, hearliest, hexpiry⟩ := queue_run_of_retryAfter hrefused hothers
  rw [hexpiry] at hpast
  exact remaining_of_head? (sound_run_iff.mpr hanswerable)
    (length_queue_run_le config clock start _ key) hearliest hpast

end Hint

end SlidingWindowLimiter

namespace SlidingWitness

open SlidingWindowLimiter

/-- The clock of a platform whose seconds are signed 64-bit numbers. -/
def linux : MonotonicClock := ⟨Duration.maximum⟩

/-- One request a minute. -/
def single : SlidingWindowConfig := ⟨1, Duration.fromSecs 60⟩

/-- The clock reads a thousand seconds. -/
def booted : Instant := Duration.fromSecs (2 ^ 63 + 1000)

def burst : List (Timed Call) :=
  [⟨0, .checkAndRecord "a"⟩, ⟨1, .checkAndRecord "b"⟩, ⟨2, .checkAndRecord "a"⟩,
    ⟨Duration.fromSecs 61, .checkAndRecord "a"⟩]

theorem burst_admits_by_window :
    Justified (AnswersByWindow single "a") (run single linux booted burst).2 ∧
      ∀ first, ((admissions "a" (run single linux booted burst).2).filter fun time =>
        first ≤ time ∧ time ≤ first + single.windowDuration).length ≤ single.maxRequests := by
  refine admits_by_window (by decide +kernel) (by decide) (sound_run_iff.mp ?_)
  decide +kernel

/-- A window longer than what is left of the clock. -/
def wide : SlidingWindowConfig := ⟨1, Duration.fromSecs (2 ^ 63)⟩

/-- The second call cannot represent what it has to wait for; the third finds the
mutex poisoned. -/
def overflowing : List (Timed Call) :=
  [⟨0, .checkAndRecord "a"⟩, ⟨1, .checkAndRecord "a"⟩, ⟨1, .checkAndRecord "b"⟩]

theorem overflowing_not_by_window :
    1 ≤ wide.maxRequests ∧
      (∀ event ∈ (run wide linux booted overflowing).2, wide.windowDuration ≤ event.time) ∧
      (∀ timed ∈ overflowing, timed.call ≠ .reset "b") ∧
      ¬Justified (AnswersByWindow wide "b") (run wide linux booted overflowing).2 := by
  refine ⟨by decide, by decide +kernel, by decide, fun hlaws => ?_⟩
  have hlast := hlaws
    [⟨booted, .checkAndRecord "a", .remaining 0⟩,
      ⟨booted + 1, .checkAndRecord "a", .panicked .instantOverflow⟩]
    ⟨booted + 2, .checkAndRecord "b", .panicked .lockPoisoned⟩ [] (by decide +kernel)
  have hremaining := (hlast rfl 0).mpr (by decide +kernel)
  contradiction

theorem burst_hint_never_suffices :
    let refused := [⟨0, .checkAndRecord "a"⟩] ++ [⟨Duration.fromSecs 30, .checkAndRecord "a"⟩]
    ¬HintSuffices single linux booted refused "a" (Duration.fromSecs 30) ∧
      ∀ others wait, (∀ other ∈ others, other.call.key ≠ "a") →
        (run single linux booted (refused ++ others)).1.now + wait =
          (run single linux booted refused).1.now + Duration.fromSecs 30 →
        ∀ quota, answerAfter single linux booted (refused ++ others)
          ⟨wait, .checkAndRecord "a"⟩ ≠ .remaining quota :=
  hint_never_suffices (by decide +kernel)

/-- After half a minute the hint is half a minute, and a retry is refused then. -/
theorem hint_one_tick_short :
    answerAfter single linux booted [⟨0, .checkAndRecord "a"⟩]
        ⟨Duration.fromSecs 30, .checkAndRecord "a"⟩ = .retryAfter (Duration.fromSecs 30) ∧
      ¬HintSuffices single linux booted
        [⟨0, .checkAndRecord "a"⟩, ⟨Duration.fromSecs 30, .checkAndRecord "a"⟩] "a"
        (Duration.fromSecs 30) := by
  refine ⟨by decide +kernel, fun hsuffices => ?_⟩
  obtain ⟨quota, hquota⟩ := hsuffices.2 [] (Duration.fromSecs 30) (by simp) (by simp)
  have hrefused : answerAfter single linux booted
      [⟨0, .checkAndRecord "a"⟩, ⟨Duration.fromSecs 30, .checkAndRecord "a"⟩]
      ⟨Duration.fromSecs 30, .checkAndRecord "a"⟩ = .retryAfter 0 := by
    decide +kernel
  exact nomatch hrefused.symm.trans hquota

/-- Without a quota the first request finds an empty queue. -/
theorem no_quota_panics :
    ¬((∀ event ∈ (run ⟨0, Duration.fromSecs 60⟩ linux booted
          [⟨0, .checkAndRecord "a"⟩, ⟨1, .checkAndRecord "b"⟩]).2,
        event.result.isPanic = false) ∧
      (run ⟨0, Duration.fromSecs 60⟩ linux booted
        [⟨0, .checkAndRecord "a"⟩, ⟨1, .checkAndRecord "b"⟩]).1.state.poisoned = false) := by
  decide +kernel

end SlidingWitness

end KiteX402
