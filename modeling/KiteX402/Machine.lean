/-
Deterministic machines that emit events.  A step is total: an action that does
not apply leaves the state as it is and emits nothing, so every list of
actions is a run.
-/
import Mathlib.Data.List.Induction

namespace KiteX402

universe u v w

variable {S : Type u} {A B : Type v} {E : Type w}

/-- A system that moves on actions and reports each move as events. -/
structure Machine (S : Type u) (A : Type v) (E : Type w) where
  step : S → A → S × List E

/-- The state reached by a list of actions, with the events it emitted. -/
def Machine.run (M : Machine S A E) (state : S) : List A → S × List E
  | [] => (state, [])
  | action :: rest =>
      let next := M.step state action
      let tail := M.run next.1 rest
      (tail.1, next.2 ++ tail.2)

@[simp] theorem Machine.run_nil (M : Machine S A E) (state : S) :
    M.run state [] = (state, []) := rfl

theorem Machine.run_cons (M : Machine S A E) (state : S) (action : A)
    (rest : List A) :
    M.run state (action :: rest) =
      ((M.run (M.step state action).1 rest).1,
        (M.step state action).2 ++ (M.run (M.step state action).1 rest).2) := rfl

@[simp] theorem Machine.run_singleton (M : Machine S A E) (state : S)
    (action : A) : M.run state [action] = M.step state action := by
  simp [Machine.run_cons]

theorem Machine.run_append (M : Machine S A E) (state : S)
    (first last : List A) :
    M.run state (first ++ last) =
      ((M.run (M.run state first).1 last).1,
        (M.run state first).2 ++ (M.run (M.run state first).1 last).2) := by
  induction first generalizing state with
  | nil => simp
  | cons action rest ih =>
      simp only [List.cons_append, Machine.run_cons, ih, List.append_assoc]

theorem Machine.run_concat (M : Machine S A E) (state : S)
    (actions : List A) (action : A) :
    M.run state (actions ++ [action]) =
      ((M.step (M.run state actions).1 action).1,
        (M.run state actions).2 ++ (M.step (M.run state actions).1 action).2) := by
  rw [Machine.run_append, Machine.run_singleton]

/-- Induction over runs: a property of the state and of the events so far that
every step preserves holds after every run. -/
theorem Machine.run_induction (M : Machine S A E) {P : S → List E → Prop}
    {start : S} (hstart : P start [])
    (hstep : ∀ state events action, P state events →
      P (M.step state action).1 (events ++ (M.step state action).2))
    (actions : List A) :
    P (M.run start actions).1 (M.run start actions).2 := by
  induction actions using List.reverseRecOn with
  | nil => exact hstart
  | append_singleton rest action ih =>
      rw [Machine.run_concat]
      exact hstep _ _ action ih

/-- The invariant rule: the special case in which the property looks at the
state only. -/
theorem Machine.run_invariant (M : Machine S A E) {P : S → Prop} {start : S}
    (hstart : P start)
    (hstep : ∀ state action, P state → P (M.step state action).1)
    (actions : List A) : P (M.run start actions).1 :=
  M.run_induction (P := fun state _ => P state) hstart
    (fun state _ action => hstep state action) actions

/-- Where an event sits in a trace that has just grown by one event: it is the
new one, or it was in the trace before. -/
theorem concat_eq_split {events before after : List E} {last event : E}
    (h : events ++ [last] = before ++ event :: after) :
    (before = events ∧ event = last ∧ after = []) ∨
      ∃ rest, after = rest ++ [last] ∧ events = before ++ event :: rest := by
  induction after using List.reverseRecOn with
  | nil =>
      obtain ⟨hbefore, hlast⟩ := List.append_inj' h rfl
      exact Or.inl ⟨hbefore.symm, (List.cons_eq_cons.mp hlast).1.symm, rfl⟩
  | append_singleton rest final _ =>
      have hsplit : events ++ [last] = (before ++ event :: rest) ++ [final] := by
        simpa using h
      obtain ⟨hevents, hlast⟩ := List.append_inj' hsplit rfl
      exact Or.inr ⟨rest, by rw [(List.cons_eq_cons.mp hlast).1], hevents⟩

/-- Where an event that came before another one stands. -/
theorem split_of_mem {events before after : List E} {first event : E}
    (hevents : events = before ++ event :: after) (hmem : first ∈ before) :
    ∃ start rest, before = start ++ first :: rest ∧
      events = start ++ first :: (rest ++ event :: after) := by
  obtain ⟨start, rest, rfl⟩ := List.append_of_mem hmem
  exact ⟨start, rest, rfl, by rw [hevents, List.append_assoc, List.cons_append]⟩

/-- Every event of a trace is justified by the events before it. -/
def Justified (P : List E → E → Prop) (events : List E) : Prop :=
  ∀ before event after, events = before ++ event :: after → P before event

@[simp] theorem justified_nil (P : List E → E → Prop) : Justified P [] := by
  intro before event after h
  simp at h

@[simp] theorem justified_cons {P : List E → E → Prop} {event : E}
    {rest : List E} :
    Justified P (event :: rest) ↔
      P [] event ∧ Justified (fun before => P (event :: before)) rest := by
  constructor
  · intro h
    refine ⟨h [] event rest rfl, fun before other after heq => ?_⟩
    exact h (event :: before) other after (by rw [heq]; rfl)
  · rintro ⟨hfirst, hrest⟩ before other after heq
    cases before with
    | nil =>
        obtain ⟨rfl, _⟩ := List.cons_eq_cons.mp heq
        exact hfirst
    | cons head before =>
        obtain ⟨rfl, htail⟩ := List.cons_eq_cons.mp heq
        exact hrest before other after htail

theorem justified_of_forall {P : List E → E → Prop} {events : List E}
    (h : ∀ event ∈ events, ∀ before, P before event) : Justified P events := by
  rintro before event after rfl
  exact h event (by simp) before

theorem justified_append {P : List E → E → Prop} {first last : List E} :
    Justified P (first ++ last) ↔
      Justified P first ∧ Justified (fun before => P (first ++ before)) last := by
  induction first generalizing P with
  | nil => simp
  | cons event rest ih =>
      simp only [List.cons_append, justified_cons, ih, and_assoc]

theorem Justified.concat {P : List E → E → Prop} {events : List E} {last : E}
    (hevents : Justified P events) (hlast : P events last) :
    Justified P (events ++ [last]) := by
  intro before event after h
  rcases concat_eq_split h with ⟨rfl, rfl, _⟩ | ⟨rest, _, hsplit⟩
  · exact hlast
  · exact hevents before event rest hsplit

theorem Justified.mono {P Q : List E → E → Prop} {events : List E}
    (hevents : Justified P events) (h : ∀ before event, P before event → Q before event) :
    Justified Q events :=
  fun before event after heq => h before event (hevents before event after heq)

/-- Of what must not have happened before there is only one. -/
theorem Justified.unique {p : E → Prop} {events : List E}
    (h : Justified (fun before event => p event → ∀ other ∈ before, ¬p other) events)
    {first second : E} (hfirst : first ∈ events) (hsecond : second ∈ events)
    (hp : p first) (hp' : p second) : first = second := by
  obtain ⟨before, after, rfl⟩ := List.append_of_mem hfirst
  rcases List.mem_append.mp hsecond with hmem | hmem
  · exact absurd hp' (h before first after rfl hp second hmem)
  · rcases List.mem_cons.mp hmem with rfl | hmem
    · rfl
    · obtain ⟨middle, rest, rfl⟩ := List.append_of_mem hmem
      have hearlier : first ∈ before ++ first :: middle := by simp
      exact absurd hp (h (before ++ first :: middle) second rest (by simp) hp' first
        hearlier)

/-- What must not have happened before happens at most once. -/
theorem Justified.countP_le_one {p : E → Bool} {events : List E}
    (h : Justified (fun before event => p event = true → before.countP p = 0)
      events) : events.countP p ≤ 1 := by
  induction events using List.reverseRecOn with
  | nil => simp
  | append_singleton rest last ih =>
      obtain ⟨hrest, hlast⟩ := justified_append.mp h
      have hbefore : p last = true → rest.countP p = 0 := by
        simpa using hlast
      have hcount := ih hrest
      rw [List.countP_append, List.countP_singleton]
      split
      next hp =>
        have hzero := hbefore hp
        omega
      next => omega

/-- `N` is built from `M`: each of its steps is some run of `M`. -/
def Machine.Expands (M : Machine S A E) (N : Machine S B E) : Prop :=
  ∀ state action, ∃ actions, N.step state action = M.run state actions

theorem Machine.Expands.run_eq {M : Machine S A E} {N : Machine S B E}
    (hexpand : M.Expands N) (state : S) (actions : List B) :
    ∃ expanded, N.run state actions = M.run state expanded := by
  induction actions generalizing state with
  | nil => exact ⟨[], rfl⟩
  | cons action rest ih =>
      obtain ⟨first, hfirst⟩ := hexpand state action
      obtain ⟨last, hlast⟩ := ih (N.step state action).1
      refine ⟨first ++ last, ?_⟩
      rw [Machine.run_cons, Machine.run_append, hlast, hfirst]

/-- `N` is `M` with more to it: what shows of each of its steps is a step of
`M`. -/
def Machine.Shows {T : Type u} {F : Type w} (N : Machine T B F) (M : Machine S A E)
    (state : T → S) (event : F → Option E) : Prop :=
  ∀ current action, ∃ shown,
    M.step (state current) shown =
      (state (N.step current action).1, (N.step current action).2.filterMap event)

theorem Machine.Shows.run_eq {T : Type u} {F : Type w} {N : Machine T B F}
    {M : Machine S A E} {state : T → S} {event : F → Option E}
    (hshows : N.Shows M state event) (current : T) (actions : List B) :
    ∃ shown, M.run (state current) shown =
      (state (N.run current actions).1, (N.run current actions).2.filterMap event) := by
  induction actions generalizing current with
  | nil => exact ⟨[], rfl⟩
  | cons action rest ih =>
      obtain ⟨first, hfirst⟩ := hshows current action
      obtain ⟨last, hlast⟩ := ih (N.step current action).1
      refine ⟨first :: last, ?_⟩
      rw [Machine.run_cons, hfirst, hlast, Machine.run_cons, List.filterMap_append]

/-- Where no step turns the clock back and every event is stamped with the clock of
its step, the events of a run are in the order of their times. -/
theorem Machine.run_ordered (M : Machine S A E) {clock : S → ℕ} {time : E → ℕ}
    (hclock : ∀ state action, clock state ≤ clock (M.step state action).1)
    (htime : ∀ state action, ∀ event ∈ (M.step state action).2,
      time event = clock (M.step state action).1) (start : S) (actions : List A) :
    (M.run start actions).2.Pairwise fun first second => time first ≤ time second := by
  have hstart : (∀ event ∈ ([] : List E), time event ≤ clock start) ∧
      List.Pairwise (fun first second => time first ≤ time second) [] :=
    ⟨by simp, List.Pairwise.nil⟩
  refine (M.run_induction (P := fun state events =>
    (∀ event ∈ events, time event ≤ clock state) ∧
      events.Pairwise fun first second => time first ≤ time second) hstart
    (fun state events action ⟨hpast, hordered⟩ => ?_) actions).2
  have hnow := htime state action
  have hearlier : ∀ event ∈ events, time event ≤ clock (M.step state action).1 :=
    fun event hmem => Nat.le_trans (hpast event hmem) (hclock state action)
  refine ⟨?_, List.pairwise_append.mpr ⟨hordered, ?_, ?_⟩⟩
  · intro event hmem
    rcases List.mem_append.mp hmem with hmem | hmem
    · exact hearlier event hmem
    · exact Nat.le_of_eq (hnow event hmem)
  · refine List.pairwise_of_forall_mem_list fun first hfirst second hsecond => ?_
    exact Nat.le_of_eq ((hnow first hfirst).trans (hnow second hsecond).symm)
  · intro first hfirst second hsecond
    rw [hnow second hsecond]
    exact hearlier first hfirst

/-- What only comes right after something else comes no more often. -/
theorem Justified.countP_le_dropLast {p q : E → Bool} {events : List E}
    (h : Justified (fun before event => p event = true →
      ∃ last, before.getLast? = some last ∧ q last = true) events) :
    events.countP p ≤ events.dropLast.countP q := by
  induction events using List.reverseRecOn with
  | nil => exact Nat.le_refl _
  | append_singleton rest event ih =>
      obtain ⟨hrest, hlast⟩ := justified_append.mp h
      have hevent : p event = true → ∃ last, rest.getLast? = some last ∧ q last = true := by
        simpa using hlast
      have hcount := ih hrest
      rw [List.dropLast_concat, List.countP_append, List.countP_singleton]
      split
      next hp =>
        obtain ⟨last, hsome, hq⟩ := hevent hp
        obtain ⟨start, rfl⟩ := List.getLast?_eq_some_iff.mp hsome
        rw [List.dropLast_concat] at hcount
        simpa [List.countP_append, hq] using hcount
      next => exact Nat.le_trans hcount (List.dropLast_sublist rest).countP_le

/-- What the steps of a run add up to, each weighed in the state it is taken. -/
def Machine.total (M : Machine S A E) (weight : S → A → ℕ) (state : S) : List A → ℕ
  | [] => 0
  | action :: rest =>
      weight state action + M.total weight (M.step state action).1 rest

theorem Machine.total_eq_zero (M : Machine S A E) {Q : A → Prop} {weight : S → A → ℕ}
    (hzero : ∀ state action, Q action → weight state action = 0)
    (actions : List A) (hactions : ∀ action ∈ actions, Q action) :
    ∀ state, M.total weight state actions = 0 := by
  induction actions with
  | nil => exact fun state => rfl
  | cons action rest ih =>
      intro state
      have hhead := hzero state action (hactions action (by simp))
      have htail := ih (fun other hother => hactions other (by simp [hother]))
        (M.step state action).1
      rw [Machine.total, hhead, htail]

/-- The potential rule.  Unless a run is done, and then it stays done, every
action that `pays` lowers the potential by `cost`, and no step raises it by more
than what it gains. -/
theorem Machine.run_potential (M : Machine S A E) {P : S → Prop} {Q : A → Prop}
    (done : S → Prop) (potential : S → ℕ) (gained : S → A → ℕ)
    (pays : A → Bool) (cost : ℕ)
    (hstep : ∀ state action, P state → Q action →
      P (M.step state action).1 ∧
        (done state → done (M.step state action).1) ∧
        (done (M.step state action).1 ∨
          potential (M.step state action).1 + (if pays action then cost else 0) ≤
            potential state + gained state action))
    (actions : List A) (hactions : ∀ action ∈ actions, Q action) :
    ∀ state, P state →
      (done state → done (M.run state actions).1) ∧
        (done (M.run state actions).1 ∨
          potential (M.run state actions).1 + cost * actions.countP pays ≤
            potential state + M.total gained state actions) := by
  induction actions with
  | nil => exact fun state _ => ⟨id, Or.inr (by simp [Machine.total])⟩
  | cons action rest ih =>
      intro state hstate
      obtain ⟨hnext, hdone, hpotential⟩ :=
        hstep state action hstate (hactions action (by simp))
      obtain ⟨hstays, hrest⟩ :=
        ih (fun other hother => hactions other (by simp [hother])) _ hnext
      simp only [Machine.run_cons]
      refine ⟨fun h => hstays (hdone h), ?_⟩
      rcases hpotential with hfinished | hpaid
      · exact Or.inl (hstays hfinished)
      · refine hrest.imp_right fun hspent => ?_
        have hcount : cost * (action :: rest).countP pays =
            cost * rest.countP pays + (if pays action then cost else 0) := by
          rw [List.countP_cons]
          split <;> simp [Nat.mul_add]
        have htotal : M.total gained state (action :: rest) =
            gained state action + M.total gained (M.step state action).1 rest := rfl
        omega

theorem Machine.total_concat (M : Machine S A E) (weight : S → A → ℕ) (state : S)
    (actions : List A) (action : A) :
    M.total weight state (actions ++ [action]) =
      M.total weight state actions + weight (M.run state actions).1 action := by
  induction actions generalizing state with
  | nil => exact Nat.add_comm _ _
  | cons first rest ih =>
      simp only [List.cons_append, Machine.total, Machine.run_cons, ih, Nat.add_assoc]

/-- The ranking rule.  Where every step lowers the rank by its weight, the steps
of a run weigh no more than the rank that it starts with. -/
theorem Machine.run_rank (M : Machine S A E) {P : S → List E → Prop} {start : S}
    (rank : S → ℕ) (weight : S → A → ℕ) (hstart : P start [])
    (hstep : ∀ state events action, P state events →
      P (M.step state action).1 (events ++ (M.step state action).2) ∧
        rank (M.step state action).1 + weight state action ≤ rank state)
    (actions : List A) :
    rank (M.run start actions).1 + M.total weight start actions ≤ rank start := by
  induction actions using List.reverseRecOn with
  | nil => exact Nat.le_refl _
  | append_singleton rest action ih =>
      have hreached := M.run_induction hstart
        (fun state events action h => (hstep state events action h).1) rest
      have hlast := (hstep _ _ action hreached).2
      rw [Machine.run_concat, Machine.total_concat]
      dsimp only
      omega

/-- Where a step keeps a property just under a condition, a run has it in every
state that it passes exactly when all of its steps meet the condition. -/
theorem Machine.run_invariant_iff (M : Machine S A E) {P : S → Prop} {Q : S → A → Prop}
    {start : S} (hstart : P start)
    (hstep : ∀ state action, P state → (P (M.step state action).1 ↔ Q state action))
    (actions : List A) :
    (∀ before after, actions = before ++ after → P (M.run start before).1) ↔
      Justified (fun before action => Q (M.run start before).1 action) actions := by
  constructor
  · intro hprefixes before action after hsplit
    have hbefore := hprefixes before (action :: after) hsplit
    have hnext := hprefixes (before ++ [action]) after (by simp [hsplit])
    rw [Machine.run_concat] at hnext
    exact (hstep _ action hbefore).mp hnext
  · intro hsteps before after hsplit
    induction before using List.reverseRecOn generalizing after with
    | nil => exact hstart
    | append_singleton before action ih =>
        have hbefore := ih (action :: after) (by simp [hsplit])
        rw [Machine.run_concat]
        exact (hstep _ action hbefore).mpr (hsteps before action after (by simp [hsplit]))

end KiteX402
