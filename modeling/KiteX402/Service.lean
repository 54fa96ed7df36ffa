/-
Services whose calls run one at a time and read a clock that never goes back.
A session is the list of calls made, each with the time that passed before it.
-/
import KiteX402.Clock
import KiteX402.Machine

namespace KiteX402

universe u v

variable {S : Type u} {C R : Type v}

/-- A call and the time between the end of the one before and its start. -/
structure Timed (C : Type v) where
  elapsed : Duration
  call : C

/-- A call as it was answered. -/
structure Answered (C R : Type v) where
  time : Instant
  call : C
  result : R
deriving DecidableEq

/-- The clock as last read, and the state of the service. -/
structure Session (S : Type u) where
  now : Instant
  state : S

/-- A service; a call may read the clock again at its end, `lasts` after its
start. -/
structure Service (S : Type u) (C R : Type v) where
  answer : Instant → S → C → S × R
  lasts : C → Duration

namespace Service

variable (service : Service S C R)

def machine : Machine (Session S) (Timed C) (Answered C R) :=
  ⟨fun session timed =>
    let time := session.now + timed.elapsed
    let answered := service.answer time session.state timed.call
    (⟨time + service.lasts timed.call, answered.1⟩,
      [⟨time, timed.call, answered.2⟩])⟩

/-- The state and the history after a list of calls. -/
def run (start : Instant) (state : S) (calls : List (Timed C)) :
    Session S × List (Answered C R) :=
  service.machine.run ⟨start, state⟩ calls

@[simp] theorem run_nil (start : Instant) (state : S) :
    service.run start state [] = (⟨start, state⟩, []) := rfl

theorem run_concat (start : Instant) (state : S) (calls : List (Timed C))
    (timed : Timed C) :
    service.run start state (calls ++ [timed]) =
      let session := (service.run start state calls).1
      let time := session.now + timed.elapsed
      let answered := service.answer time session.state timed.call
      (⟨time + service.lasts timed.call, answered.1⟩,
        (service.run start state calls).2 ++ [⟨time, timed.call, answered.2⟩]) :=
  service.machine.run_concat _ _ _

/-- Induction over sessions. -/
theorem run_induction {P : Session S → List (Answered C R) → Prop}
    {start : Instant} {state : S} (hstart : P ⟨start, state⟩ [])
    (hstep : ∀ session history time call, P session history → session.now ≤ time →
      P ⟨time + service.lasts call, (service.answer time session.state call).1⟩
        (history ++ [⟨time, call, (service.answer time session.state call).2⟩]))
    (calls : List (Timed C)) :
    P (service.run start state calls).1 (service.run start state calls).2 :=
  service.machine.run_induction hstart
    (fun session history timed hsession =>
      hstep session history (session.now + timed.elapsed) timed.call hsession
        (Nat.le_add_right _ _)) calls

/-- The history has the calls that were made. -/
theorem run_calls (start : Instant) (state : S) (calls : List (Timed C)) :
    (service.run start state calls).2.map Answered.call = calls.map Timed.call := by
  induction calls using List.reverseRecOn with
  | nil => rfl
  | append_singleton calls timed ih =>
      rw [run_concat, List.map_append, List.map_append, ← ih]
      rfl

/-- Services that last as long read the clock alike, whatever they answer. -/
theorem run_stamps {S' : Type u} {R' : Type v} (other : Service S' C R')
    (hlasts : service.lasts = other.lasts) (start : Instant) (state : S) (state' : S')
    (calls : List (Timed C)) :
    (service.run start state calls).1.now = (other.run start state' calls).1.now ∧
      (service.run start state calls).2.map (fun event => (event.time, event.call)) =
        (other.run start state' calls).2.map fun event => (event.time, event.call) := by
  induction calls using List.reverseRecOn with
  | nil => exact ⟨rfl, rfl⟩
  | append_singleton calls timed ih =>
      obtain ⟨hnow, hstamps⟩ := ih
      rw [run_concat, run_concat]
      simp only [hnow, hlasts, List.map_append, hstamps, List.map_cons, List.map_nil, and_self]

end Service

section Observed

/-- An answer with the state before and after the call. -/
structure Observed (S R : Type v) where
  before : S
  result : R
  after : S

/-- A service that shows its state. -/
def Service.observed {S : Type v} (service : Service S C R) :
    Service S C (Observed S R) where
  answer now state call :=
    let answered := service.answer now state call
    (answered.1, ⟨state, answered.2, answered.1⟩)
  lasts := service.lasts

end Observed

section Determined

/-- A call with its time, without its answer. -/
def Answered.stamp (event : Answered C R) : Instant × C := (event.time, event.call)

theorem Justified.filter {E : Type v} {P : List E → E → Prop} {p : E → Bool}
    {events : List E}
    (h : Justified (fun before event => p event = true → P (before.filter p) event)
      events) : Justified P (events.filter p) := by
  induction events using List.reverseRecOn with
  | nil => exact justified_nil P
  | append_singleton events event ih =>
      obtain ⟨hevents, hlast⟩ := justified_append.mp h
      have hevent : p event = true → P (events.filter p) event := by
        have hnow := hlast [] event [] rfl
        simpa only [List.append_nil] using hnow
      rw [List.filter_append, List.filter_singleton]
      cases hp : p event with
      | true => exact (ih hevents).concat (hevent hp)
      | false =>
          rw [cond_false, List.append_nil]
          exact ih hevents

/-- Answers that the earlier calls determine are the same where the calls are. -/
theorem eq_of_determined {spec : List (Answered C R) → Instant → C → R}
    {first second : List (Answered C R)}
    (hfirst : Justified (fun before event =>
      event.result = spec before event.time event.call) first)
    (hsecond : Justified (fun before event =>
      event.result = spec before event.time event.call) second)
    (hstamps : first.map Answered.stamp = second.map Answered.stamp) :
    first = second := by
  induction first using List.reverseRecOn generalizing second with
  | nil =>
      rw [List.map_nil, eq_comm, List.map_eq_nil_iff] at hstamps
      exact hstamps.symm
  | append_singleton first event ih =>
      cases second using List.reverseRecOn with
      | nil => simp at hstamps
      | append_singleton second other =>
          rw [List.map_append, List.map_append] at hstamps
          obtain ⟨hbefore, hlast⟩ := List.append_inj' hstamps rfl
          have hsame := ih (justified_append.mp hfirst).1
            (justified_append.mp hsecond).1 hbefore
          subst hsame
          obtain ⟨htime, hcall⟩ := Prod.ext_iff.mp (List.cons_eq_cons.mp hlast).1
          have hevent : event.result = spec first event.time event.call :=
            hfirst first event [] rfl
          have hother : other.result = spec first other.time other.call :=
            hsecond first other [] rfl
          simp only [Answered.stamp] at htime hcall
          rw [htime, hcall, ← hother] at hevent
          cases event
          cases other
          simp only at htime hcall hevent
          rw [htime, hcall, hevent]

end Determined

end KiteX402
