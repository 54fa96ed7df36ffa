/-
Concurrent requests that share one replay guard, under every interleaving of
their steps, with a clock that does not run backwards.
-/
import KiteX402.GateEffect
import Mathlib.Logic.Function.Basic

namespace KiteX402

/-- The requests that share a guard, each with the configuration of its route. -/
structure GateSystem where
  rt : Runtime
  guard : PaymentNonceReplayGuard
  requests : ℕ → PaymentConfig × Request

namespace GateSystem

def cfg (sys : GateSystem) (i : ℕ) : PaymentConfig :=
  (sys.requests i).1.withNonceGuard sys.guard

def req (sys : GateSystem) (i : ℕ) : Request := (sys.requests i).2

def key (sys : GateSystem) (i : ℕ) : Option String := paymentKey sys.rt (sys.req i)

end GateSystem

structure SystemState where
  world : GateWorld
  clock : Instant
  phases : ℕ → GatePhase

/-- One request takes a step, `elapsed` after the last step of any.  If the step
reserves, it read the clock `lag` before it got the lock. -/
structure SystemAction where
  request : ℕ
  elapsed : Duration
  lag : Duration
  input : GateInput

structure SystemEvent where
  request : ℕ
  time : Instant
  event : GateEvent

def GateInput.readAt (reserveAt : Instant) : GateInput → GateInput
  | .poll wallClock _ => .poll wallClock reserveAt
  | input => input

theorem GateInput.reserveAt_readAt_le {reading now : Instant} (hreading : reading ≤ now)
    (input : GateInput) : (input.readAt reading).reserveAt ≤ now := by
  cases input with
  | poll wallClock reserveAt => exact hreading
  | _ => exact Nat.zero_le now

/-- No request has been polled yet. -/
def SystemState.start (world : GateWorld) (clock : Instant) : SystemState :=
  ⟨world, clock, fun _ => .arrived⟩

section System

variable (sys : GateSystem)

/-- The step of the request that acts. -/
def systemMove (state : SystemState) (action : SystemAction) :
    (GateWorld × GatePhase) × List GateEvent :=
  let now := state.clock + action.elapsed
  gateStep sys.rt (sys.cfg action.request) (sys.req action.request) state.world
    (state.phases action.request) now (action.input.readAt (now - action.lag))

def systemMachine : Machine SystemState SystemAction SystemEvent :=
  ⟨fun state action =>
    let now := state.clock + action.elapsed
    let next := systemMove sys state action
    (⟨next.1.1, now, Function.update state.phases action.request next.1.2⟩,
      next.2.map fun event => ⟨action.request, now, event⟩)⟩

/-- What one request did. -/
def traceOf (i : ℕ) (events : List SystemEvent) : List GateEvent :=
  (events.filter fun event => event.request = i).map SystemEvent.event

/-- What happened to the guard. -/
def guardTrace (events : List SystemEvent) : List GuardEvent :=
  guardEvents (events.map SystemEvent.event)

theorem traceOf_append (i : ℕ) (first last : List SystemEvent) :
    traceOf i (first ++ last) = traceOf i first ++ traceOf i last := by
  simp [traceOf]

theorem traceOf_stamp_self (i : ℕ) (now : Instant) (events : List GateEvent) :
    traceOf i (events.map fun event => ⟨i, now, event⟩) = events := by
  simp [traceOf, List.filter_map, Function.comp_def]

theorem traceOf_stamp_of_ne {i j : ℕ} (hne : j ≠ i) (now : Instant)
    (events : List GateEvent) :
    traceOf i (events.map fun event => ⟨j, now, event⟩) = [] := by
  simp [traceOf, hne]

theorem mem_traceOf {i : ℕ} {event : GateEvent} {events : List SystemEvent} :
    event ∈ traceOf i events ↔ ∃ time, ⟨i, time, event⟩ ∈ events := by
  constructor
  · intro hmem
    obtain ⟨stamped, hstamped, rfl⟩ := List.mem_map.mp hmem
    obtain ⟨hmem, hrequest⟩ := List.mem_filter.mp hstamped
    obtain ⟨request, time, event⟩ := stamped
    have heq : request = i := by simpa using hrequest
    exact ⟨time, heq ▸ hmem⟩
  · rintro ⟨time, hmem⟩
    exact List.mem_map.mpr ⟨_, List.mem_filter.mpr ⟨hmem, by simp⟩, rfl⟩

theorem guardTrace_append (first last : List SystemEvent) :
    guardTrace (first ++ last) = guardTrace first ++ guardTrace last := by
  simp [guardTrace, guardEvents]

theorem guardTrace_stamp (i : ℕ) (now : Instant) (events : List GateEvent) :
    guardTrace (events.map fun event => ⟨i, now, event⟩) = guardEvents events := by
  simp [guardTrace, Function.comp_def]

theorem traceOf_split {i : ℕ} {time : Instant} {event : GateEvent}
    (before after : List SystemEvent) :
    traceOf i (before ++ ⟨i, time, event⟩ :: after) =
      traceOf i before ++ event :: traceOf i after := by
  simp [traceOf]

theorem mem_guardEvents {event : GuardEvent} {events : List GateEvent} :
    event ∈ guardEvents events ↔ .guard event ∈ events := by
  constructor
  · intro hmem
    obtain ⟨inner, hinner, hevent⟩ := List.mem_filterMap.mp hmem
    cases inner with
    | guard inner =>
        cases hevent
        exact hinner
    | _ => contradiction
  · intro hmem
    exact List.mem_filterMap.mpr ⟨.guard event, hmem, rfl⟩

theorem mem_stamp {i j : ℕ} {time now : Instant} {event : GateEvent}
    {events : List GateEvent} :
    (⟨i, time, event⟩ : SystemEvent) ∈
        events.map (fun event => ⟨j, now, event⟩) ↔
      i = j ∧ time = now ∧ event ∈ events := by
  simp only [List.mem_map, SystemEvent.mk.injEq]
  constructor
  · rintro ⟨_, hmem, rfl, rfl, rfl⟩
    exact ⟨rfl, rfl, hmem⟩
  · rintro ⟨rfl, rfl, hmem⟩
    exact ⟨event, hmem, rfl, rfl, rfl⟩

theorem mem_guardTrace {event : GuardEvent} {events : List SystemEvent} :
    event ∈ guardTrace events ↔ ∃ i time, ⟨i, time, .guard event⟩ ∈ events := by
  rw [guardTrace, mem_guardEvents, List.mem_map]
  constructor
  · rintro ⟨⟨i, time, _⟩, hmem, rfl⟩
    exact ⟨i, time, hmem⟩
  · rintro ⟨i, time, hmem⟩
    exact ⟨_, hmem, rfl⟩

/-- A step of the system is a step of one request on the guard. -/
theorem systemMove_effect (state : SystemState) (action : SystemAction) :
    let now := state.clock + action.elapsed
    let next := systemMove sys state action
    ∃ reserveAt ≤ now,
      GuardEffect sys.guard sys.rt.clock (sys.key action.request) state.world.store
        now reserveAt (state.phases action.request).reservation
        next.1.2.reservation next.1.1.store (guardEvents next.2) :=
  ⟨_, GateInput.reserveAt_readAt_le (Nat.sub_le _ action.lag) action.input,
    gateStep_effect rfl state.world _ _ _⟩

end System

namespace GuardEffect

variable {guard : PaymentNonceReplayGuard} {clock : MonotonicClock}
  {key : Option String} {store store' : NonceStore} {now reserveAt : Instant}
  {held held' : Option PaymentNonceReservation} {events : List GuardEvent}

theorem allocated_le
    (heffect : GuardEffect guard clock key store now reserveAt held held' store'
      events) : store.allocated ≤ store'.allocated := by
  cases heffect with
  | reserved => exact Nat.le_succ _
  | letGo handle flag =>
      rcases guard.drop_cases clock store { handle with retain := flag } now with
        ⟨_, hdrop⟩ | ⟨_, _, hdrop⟩ | ⟨_, _, _, hdrop⟩ | ⟨_, _, _, _, hdrop⟩ <;>
        rw [hdrop] <;> exact le_rfl
  | _ => exact le_rfl

/-- A step reserves at most one generation, which is fresh. -/
theorem of_reserved_mem
    (heffect : GuardEffect guard clock key store now reserveAt held held' store'
      events) {own : String} {reading : Instant} {generation : Generation}
    (hmem : .reserved own reading generation ∈ events) :
    generation = store.allocated ∧ store.allocated < store'.allocated := by
  cases heffect with
  | reserved =>
      cases List.mem_singleton.mp hmem
      exact ⟨rfl, Nat.lt_succ_self _⟩
  | idle => simp at hmem
  | retained => simp at hmem
  | refused => simp at hmem
  | letGo => simp at hmem

/-- The handle held after a step is the one held before, or fresh. -/
theorem generation_held
    (heffect : GuardEffect guard clock key store now reserveAt held held' store'
      events) {handle' : PaymentNonceReservation} (hheld' : held' = some handle') :
    (∃ handle, held = some handle ∧ handle.generation = handle'.generation) ∨
      handle'.generation = store.allocated := by
  cases heffect with
  | idle => exact Or.inl ⟨handle', hheld', rfl⟩
  | retained handle =>
      cases hheld'
      exact Or.inl ⟨handle, rfl, rfl⟩
  | reserved =>
      cases hheld'
      exact Or.inr rfl
  | refused => contradiction
  | letGo => contradiction

theorem dropped_now
    (heffect : GuardEffect guard clock key store now reserveAt held held' store'
      events) {handle : PaymentNonceReservation} {ended : Instant}
    (hmem : .dropped handle ended ∈ events) : ended = now := by
  cases heffect with
  | letGo =>
      cases List.mem_singleton.mp hmem
      rfl
  | _ => simp at hmem

theorem cleared_notMem
    (heffect : GuardEffect guard clock key store now reserveAt held held' store'
      events) : .cleared ∉ events := by
  cases heffect <;> simp

theorem attempt_le
    (heffect : GuardEffect guard clock key store now reserveAt held held' store'
      events) (hread : reserveAt ≤ now) {event : GuardEvent} (hmem : event ∈ events)
    {own : String} {reading : Instant} (hattempt : event.attempt = some (own, reading)) :
    reading ≤ now := by
  cases heffect with
  | reserved | refused =>
      cases List.mem_singleton.mp hmem
      cases hattempt
      exact hread
  | letGo =>
      cases List.mem_singleton.mp hmem
      contradiction
  | _ => simp at hmem

/-- The guard follows every step of a request by a step of its own, and the
handles of other requests stay alive. -/
theorem protects
    (heffect : GuardEffect guard clock key store now reserveAt held held' store'
      events) {handles : List PaymentNonceReservation} {prior : List GuardEvent}
    (hprotects : GuardProtects guard ⟨store, handles⟩ prior)
    (hheld : ∀ handle, held = some handle → handle ∈ handles) :
    ∃ handles', GuardProtects guard ⟨store', handles'⟩ (prior ++ events) ∧
      (∀ handle, held' = some handle → handle ∈ handles') ∧
      ∀ other ∈ handles, (∀ handle, held = some handle → other ≠ handle) →
        other ∈ handles' := by
  cases heffect with
  | idle =>
      refine ⟨handles, ?_, hheld, fun other hother _ => hother⟩
      rwa [List.append_nil]
  | retained handle =>
      have hmem := hheld handle rfl
      have hstep := hprotects.step guard clock (.retainOnDrop handle)
      simp only [guardMachine, GuardState.step, if_pos hmem] at hstep
      refine ⟨_, hstep, ?_, fun other hother hne => ?_⟩
      · rintro _ ⟨⟩
        exact List.mem_cons_self
      · exact List.mem_cons_of_mem _
          ((List.mem_erase_of_ne (hne handle rfl)).mpr hother)
  | reserved own _ hown hroom =>
      have heq : guard.reserveKey store own reserveAt =
          (.ok ⟨own, store.allocated, false⟩, (store.expire reserveAt).occupy own) := by
        simp [PaymentNonceReplayGuard.reserveKey, hown, hroom]
      have hstep := hprotects.step guard clock (.reserveKey own reserveAt)
      simp only [guardMachine, GuardState.step, heq] at hstep
      refine ⟨_, hstep, ?_, fun other hother _ => List.mem_cons_of_mem _ hother⟩
      rintro _ ⟨⟩
      exact List.mem_cons_self
  | refused own error _ hrefused =>
      have hstep := hprotects.step guard clock (.reserveKey own reserveAt)
      simp only [guardMachine, GuardState.step, hrefused] at hstep
      exact ⟨handles, hstep, hheld, fun other hother _ => hother⟩
  | letGo handle flag hflag =>
      have hmem := hheld handle rfl
      refine ⟨handles.erase handle, ?_, by simp, fun other hother hne =>
        (List.mem_erase_of_ne (hne handle rfl)).mpr hother⟩
      rcases hflag with rfl | rfl
      · have hstep := hprotects.step guard clock (.release handle now)
        simpa only [guardMachine, GuardState.step, GuardState.letGo, if_pos hmem]
          using hstep
      · have hstep := hprotects.step guard clock (.drop handle now)
        simpa only [guardMachine, GuardState.step, GuardState.letGo, if_pos hmem]
          using hstep

end GuardEffect

/-- What holds after every run of the requests: each has a trace of its own,
the guard has protected every reservation, and the clock has not run
backwards.  `prior` is what happened to the guard before. -/
structure SystemInvariant (sys : GateSystem) (prior : List GuardEvent)
    (state : SystemState) (events : List SystemEvent) : Prop where
  histories : ∀ i, GateHistory sys.rt (sys.cfg i) (sys.req i) (state.phases i)
    (traceOf i events)
  guarded : ∃ handles, GuardProtects sys.guard ⟨state.world.store, handles⟩
      (prior ++ guardTrace events) ∧
    ∀ i handle, (state.phases i).reservation = some handle → handle ∈ handles
  owners : ∀ i j first second, (state.phases i).reservation = some first →
    (state.phases j).reservation = some second →
    first.generation = second.generation → i = j
  generations : ∀ i time own reading generation,
    ⟨i, time, .guard (.reserved own reading generation)⟩ ∈ events →
    generation < state.world.store.allocated
  reservers : ∀ i time own reading j time' own' reading' generation,
    ⟨i, time, .guard (.reserved own reading generation)⟩ ∈ events →
    ⟨j, time', .guard (.reserved own' reading' generation)⟩ ∈ events → i = j
  stamped : ∀ event ∈ events, event.time ≤ state.clock
  ordered : events.Pairwise fun first second => first.time ≤ second.time
  readings : ∀ i time event, ⟨i, time, .guard event⟩ ∈ events →
    ∀ own reading, event.attempt = some (own, reading) → reading ≤ time
  drops : ∀ i time handle ended,
    ⟨i, time, .guard (.dropped handle ended)⟩ ∈ events → ended = time
  uncleared : .cleared ∉ guardTrace events

namespace SystemInvariant

variable {sys : GateSystem} {prior : List GuardEvent} {state : SystemState}
  {events : List SystemEvent}

theorem start {handles : List PaymentNonceReservation} {world : GateWorld}
    (hprotects : GuardProtects sys.guard ⟨world.store, handles⟩ prior)
    (clock : Instant) :
    SystemInvariant sys prior (.start world clock) [] where
  histories i := .arrived
  guarded := ⟨handles, by simpa [guardTrace, SystemState.start] using hprotects, nofun⟩
  owners := nofun
  generations := by simp
  reservers := by simp
  stamped := by simp
  ordered := List.Pairwise.nil
  readings := by simp
  drops := by simp
  uncleared := by simp [guardTrace]

/-- A held reservation was allocated. -/
theorem generation_lt (hinv : SystemInvariant sys prior state events) {i : ℕ}
    {handle : PaymentNonceReservation}
    (hheld : (state.phases i).reservation = some handle) :
    handle.generation < state.world.store.allocated := by
  obtain ⟨handles, hprotects, hmem⟩ := hinv.guarded
  exact hprotects.invariant.handle_allocated handle (hmem i handle hheld)

theorem step_histories (hinv : SystemInvariant sys prior state events)
    (action : SystemAction) (i : ℕ) :
    GateHistory sys.rt (sys.cfg i) (sys.req i)
      (((systemMachine sys).step state action).1.phases i)
      (traceOf i (events ++ ((systemMachine sys).step state action).2)) := by
  rw [traceOf_append]
  simp only [systemMachine]
  by_cases hi : action.request = i
  · subst hi
    rw [Function.update_self, traceOf_stamp_self]
    exact (hinv.histories action.request).step state.world _ _
  · rw [Function.update_of_ne (Ne.symm hi), traceOf_stamp_of_ne hi, List.append_nil]
    exact hinv.histories i

theorem step_guarded (hinv : SystemInvariant sys prior state events)
    (action : SystemAction) :
    let next := (systemMachine sys).step state action
    ∃ handles, GuardProtects sys.guard ⟨next.1.world.store, handles⟩
        (prior ++ guardTrace (events ++ next.2)) ∧
      ∀ i handle, (next.1.phases i).reservation = some handle →
        handle ∈ handles := by
  obtain ⟨handles, hprotects, hmem⟩ := hinv.guarded
  obtain ⟨reserveAt, _, heffect⟩ := systemMove_effect sys state action
  obtain ⟨handles', hprotects', hheld', hothers⟩ :=
    heffect.protects hprotects (hmem action.request)
  refine ⟨handles', ?_, fun i handle hheld => ?_⟩
  · rw [guardTrace_append, ← List.append_assoc]
    simp only [systemMachine, guardTrace_stamp]
    exact hprotects'
  · simp only [systemMachine] at hheld
    by_cases hi : i = action.request
    · subst hi
      rw [Function.update_self] at hheld
      exact hheld' handle hheld
    · rw [Function.update_of_ne hi] at hheld
      apply hothers handle (hmem i handle hheld)
      rintro own hown rfl
      exact hi (hinv.owners i action.request handle handle hheld hown rfl)

theorem step_owners (hinv : SystemInvariant sys prior state events)
    (action : SystemAction) :
    let next := (systemMachine sys).step state action
    ∀ i j first second, (next.1.phases i).reservation = some first →
      (next.1.phases j).reservation = some second →
      first.generation = second.generation → i = j := by
  obtain ⟨reserveAt, _, heffect⟩ := systemMove_effect sys state action
  -- What the acting request holds is its own, or newer than all that is held.
  have hown : ∀ handle other j, j ≠ action.request →
      (systemMove sys state action).1.2.reservation = some handle →
      (state.phases j).reservation = some other →
      handle.generation ≠ other.generation := by
    intro handle other j hj hheld hother hgen
    rcases heffect.generation_held hheld with ⟨before, hbefore, hsame⟩ | hfresh
    · exact hj (hinv.owners j action.request other before hother hbefore
        (hgen.symm.trans hsame.symm))
    · have hlt := hinv.generation_lt hother
      rw [← hgen, hfresh] at hlt
      exact lt_irrefl _ hlt
  intro next i j first second hfirst hsecond hgen
  simp only [next, systemMachine] at hfirst hsecond
  by_cases hi : i = action.request <;> by_cases hj : j = action.request
  · rw [hi, hj]
  · subst hi
    rw [Function.update_self] at hfirst
    rw [Function.update_of_ne hj] at hsecond
    exact absurd hgen (hown first second j hj hfirst hsecond)
  · subst hj
    rw [Function.update_self] at hsecond
    rw [Function.update_of_ne hi] at hfirst
    exact absurd hgen.symm (hown second first i hi hsecond hfirst)
  · rw [Function.update_of_ne hi] at hfirst
    rw [Function.update_of_ne hj] at hsecond
    exact hinv.owners i j first second hfirst hsecond hgen

/-- A reservation in the trace of a step was in the trace before, or is the
step's own and fresh. -/
theorem reserved_cases (sys : GateSystem) (state : SystemState)
    (action : SystemAction) {i : ℕ} {time reading : Instant} {own : String}
    {generation : Generation}
    (hmem : ⟨i, time, .guard (.reserved own reading generation)⟩ ∈
      events ++ ((systemMachine sys).step state action).2) :
    ⟨i, time, .guard (.reserved own reading generation)⟩ ∈ events ∨
      (i = action.request ∧ generation = state.world.store.allocated ∧
        state.world.store.allocated <
          ((systemMachine sys).step state action).1.world.store.allocated) := by
  rcases List.mem_append.mp hmem with hmem | hmem
  · exact Or.inl hmem
  · right
    obtain ⟨rfl, _, hmem⟩ := mem_stamp.mp hmem
    obtain ⟨reserveAt, _, heffect⟩ := systemMove_effect sys state action
    exact ⟨rfl, heffect.of_reserved_mem (mem_guardEvents.mpr hmem)⟩

theorem step (hinv : SystemInvariant sys prior state events)
    (action : SystemAction) :
    SystemInvariant sys prior ((systemMachine sys).step state action).1
      (events ++ ((systemMachine sys).step state action).2) where
  histories := hinv.step_histories action
  guarded := hinv.step_guarded action
  owners := hinv.step_owners action
  generations i time own reading generation hmem := by
    obtain ⟨reserveAt, _, heffect⟩ := systemMove_effect sys state action
    rcases reserved_cases sys state action hmem with hmem | ⟨_, rfl, hlt⟩
    · exact (hinv.generations i time own reading generation hmem).trans_le
        heffect.allocated_le
    · exact hlt
  reservers i time own reading j time' own' reading' generation hfirst hsecond := by
    rcases reserved_cases sys state action hfirst with hfirst | ⟨hi, hfresh, _⟩ <;>
      rcases reserved_cases sys state action hsecond with hsecond | ⟨hj, hfresh', _⟩
    · exact hinv.reservers _ _ _ _ _ _ _ _ _ hfirst hsecond
    · exact absurd hfresh' (hinv.generations _ _ _ _ _ hfirst).ne
    · exact absurd hfresh (hinv.generations _ _ _ _ _ hsecond).ne
    · rw [hi, hj]
  stamped event hmem := by
    rcases List.mem_append.mp hmem with hmem | hmem
    · exact (hinv.stamped event hmem).trans (Nat.le_add_right _ _)
    · obtain ⟨_, htime, _⟩ := mem_stamp.mp hmem
      exact htime.le
  ordered := by
    rw [List.pairwise_append]
    refine ⟨hinv.ordered, ?_, fun first hfirst second hsecond => ?_⟩
    · apply List.pairwise_of_forall_mem_list
      intro first hfirst second hsecond
      obtain ⟨_, hfirst, _⟩ := mem_stamp.mp hfirst
      obtain ⟨_, hsecond, _⟩ := mem_stamp.mp hsecond
      rw [hfirst, hsecond]
    · obtain ⟨_, htime, _⟩ := mem_stamp.mp hsecond
      rw [htime]
      exact (hinv.stamped first hfirst).trans (Nat.le_add_right _ _)
  readings i time event hmem own reading hattempt := by
    rcases List.mem_append.mp hmem with hmem | hmem
    · exact hinv.readings i time event hmem own reading hattempt
    · obtain ⟨_, rfl, hevent⟩ := mem_stamp.mp hmem
      obtain ⟨reserveAt, hread, heffect⟩ := systemMove_effect sys state action
      exact heffect.attempt_le hread (mem_guardEvents.mpr hevent) hattempt
  drops i time handle ended hmem := by
    rcases List.mem_append.mp hmem with hmem | hmem
    · exact hinv.drops i time handle ended hmem
    · obtain ⟨_, rfl, hevent⟩ := mem_stamp.mp hmem
      obtain ⟨reserveAt, _, heffect⟩ := systemMove_effect sys state action
      exact heffect.dropped_now (mem_guardEvents.mpr hevent)
  uncleared := by
    obtain ⟨reserveAt, _, heffect⟩ := systemMove_effect sys state action
    rw [guardTrace_append, List.mem_append, not_or]
    refine ⟨hinv.uncleared, ?_⟩
    simp only [systemMachine, guardTrace_stamp]
    exact heffect.cleared_notMem

end SystemInvariant

/-- Every interleaving, from any state the guard has reached. -/
theorem systemMachine_run_invariant (sys : GateSystem) (calls : List GuardCall)
    (metrics : PaymentMetrics) (clock : Instant) (actions : List SystemAction) :
    let reached := (callMachine sys.guard sys.rt.clock).run GuardState.initial calls
    let run := (systemMachine sys).run (.start ⟨reached.1.store, metrics⟩ clock) actions
    SystemInvariant sys reached.2 run.1 run.2 := by
  intro reached run
  exact (systemMachine sys).run_induction (P := SystemInvariant sys reached.2)
    (.start (callMachine_run_protects sys.guard sys.rt.clock calls) clock)
    (fun _ _ action hinv => hinv.step action) actions

end KiteX402
