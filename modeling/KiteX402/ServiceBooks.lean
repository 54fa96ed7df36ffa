/-
The books of the service: the permits of the concurrency limiter, the gauge of
requests in flight, and the counters of the metrics endpoint.
-/
import KiteX402.ServiceSystem
import Mathlib.Algebra.Order.Ring.Nat

namespace KiteX402

namespace Wrapper

/-- Between the guard of the logger and its drop. -/
def Phase.isInside : Phase → Bool
  | .arrived | .departed => false
  | _ => true

/-- Between `try_acquire` and the drop of the permit. -/
def Phase.holdsPermit : Phase → Bool
  | .seated _ | .gated _ _ _ | .returning _ _ => true
  | _ => false

theorem Phase.isInside_of_holdsPermit {phase : Phase} (h : phase.holdsPermit = true) :
    phase.isInside = true := by
  cases phase with
  | seated | gated | returning => rfl
  | _ => contradiction

/-- The kinds of status that the logger tells apart. -/
inductive StatusClass where
  | serverError
  | paymentRequired
  | clientError
  | successful
deriving DecidableEq

def statusClass (status : ℕ) : StatusClass :=
  if 500 ≤ status ∧ status < 600 then .serverError
  else if status = 402 then .paymentRequired
  else if 400 ≤ status ∧ status < 500 then .clientError
  else .successful

def Event.isEntered : Event → Bool
  | .entered _ _ => true
  | _ => false

def Event.isReplied : Event → Bool
  | .replied _ => true
  | _ => false

/-- A reply left the logger with a status of the kind. -/
def Event.isReply (kind : StatusClass) : Event → Bool
  | .replied response => statusClass response.status = kind
  | _ => false

def Event.isDropped : Event → Bool
  | .dropped => true
  | _ => false

/-- How many events of a kind there were. -/
def count (kind : Event → Bool) (records : List Record) : ℕ :=
  records.countP fun record => kind record.event

theorem count_append_stamp (kind : Event → Bool) (records : List Record) (i : ℕ)
    (now : Instant) (events : List Event) :
    count kind (records ++ stamp i now events) = count kind records + events.countP kind := by
  rw [count, List.countP_append, stamp, List.countP_map]
  rfl

/-- A reply is of one kind. -/
theorem toNat_isReplied (event : Event) :
    event.isReplied.toNat =
      (event.isReply .serverError).toNat + (event.isReply .paymentRequired).toNat +
        (event.isReply .clientError).toNat + (event.isReply .successful).toNat := by
  cases event with
  | replied response =>
      simp only [Event.isReply, Event.isReplied]
      cases statusClass response.status <;> rfl
  | _ => rfl

theorem count_cons (kind : Event → Bool) (record : Record) (records : List Record) :
    count kind (record :: records) = count kind records + (kind record.event).toNat := by
  rw [count, count, List.countP_cons]
  cases kind record.event <;> rfl

theorem count_isReplied (records : List Record) :
    count Event.isReplied records =
      count (Event.isReply .serverError) records +
        count (Event.isReply .paymentRequired) records +
        count (Event.isReply .clientError) records +
        count (Event.isReply .successful) records := by
  induction records with
  | nil => rfl
  | cons record rest ih =>
      have hsplit := toNat_isReplied record.event
      simp only [count_cons]
      omega

section Counters

variable (metrics : ServiceMetrics) (status : ℕ)

theorem record_eq :
    metrics.record status =
      match statusClass status with
      | .serverError => { metrics with serverErrors := metrics.serverErrors + 1 }
      | .paymentRequired => { metrics with paidChallenges := metrics.paidChallenges + 1 }
      | .clientError => metrics
      | .successful => { metrics with successfulRequests := metrics.successfulRequests + 1 } := by
  unfold ServiceMetrics.record statusClass
  split_ifs <;> rfl

theorem record_serverErrors :
    (metrics.record status).serverErrors =
      metrics.serverErrors + UInt64.ofNat (decide (statusClass status = .serverError)).toNat := by
  rw [record_eq]
  cases statusClass status <;> simp

theorem record_paidChallenges :
    (metrics.record status).paidChallenges = metrics.paidChallenges +
      UInt64.ofNat (decide (statusClass status = .paymentRequired)).toNat := by
  rw [record_eq]
  cases statusClass status <;> simp

theorem record_successfulRequests :
    (metrics.record status).successfulRequests = metrics.successfulRequests +
      UInt64.ofNat (decide (statusClass status = .successful)).toNat := by
  rw [record_eq]
  cases statusClass status <;> simp

@[simp] theorem record_totalRequests :
    (metrics.record status).totalRequests = metrics.totalRequests := by
  rw [record_eq]
  cases statusClass status <;> rfl

@[simp] theorem record_activeRequests :
    (metrics.record status).activeRequests = metrics.activeRequests := by
  rw [record_eq]
  cases statusClass status <;> rfl

end Counters

section Moves

variable {cfg : Config} {arrival : Arrival} {world world' : World} {now reading : Instant}
  {phase phase' : Phase} {events : List Event}

/-- A permit that is taken is held, and one that is given back is not. -/
theorem Moves.permits
    (hmoves : Moves cfg arrival world now reading phase world' phase' events) :
    world'.permits + phase'.holdsPermit.toNat = world.permits + phase.holdsPermit.toNat := by
  cases hmoves with
  | seated id hmetered hroom => exact Nat.sub_add_cancel hroom
  | _ => rfl

/-- What a move does to the books. -/
structure Booked (world : World) (phase : Phase) (world' : World) (phase' : Phase)
    (events : List Event) : Prop where
  active : world'.metrics.activeRequests + Int64.ofNat phase.isInside.toNat =
    world.metrics.activeRequests + Int64.ofNat phase'.isInside.toNat
  total : world'.metrics.totalRequests =
    world.metrics.totalRequests + UInt64.ofNat (events.countP Event.isEntered)
  serverErrors : world'.metrics.serverErrors = world.metrics.serverErrors +
    UInt64.ofNat (events.countP (Event.isReply .serverError))
  paidChallenges : world'.metrics.paidChallenges = world.metrics.paidChallenges +
    UInt64.ofNat (events.countP (Event.isReply .paymentRequired))
  successfulRequests : world'.metrics.successfulRequests = world.metrics.successfulRequests +
    UInt64.ofNat (events.countP (Event.isReply .successful))
  balance : events.countP Event.isEntered + phase.isInside.toNat =
    phase'.isInside.toNat + events.countP Event.isReplied + events.countP Event.isDropped

/-- A move that no counter sees. -/
theorem Booked.of_unseen (hmetrics : world'.metrics = world.metrics)
    (hinside : phase'.isInside = phase.isInside)
    (hevents : ∀ event ∈ events, event.isEntered = false ∧ event.isReplied = false ∧
      event.isDropped = false) :
    Booked world phase world' phase' events := by
  have hnone : ∀ kind : Event → Bool, (∀ event ∈ events, kind event = false) →
      events.countP kind = 0 := by
    intro kind hkind
    rw [List.countP_eq_zero]
    intro event hevent
    rw [hkind event hevent]
    exact Bool.false_ne_true
  have hreply : ∀ kind : StatusClass, events.countP (Event.isReply kind) = 0 := by
    intro kind
    apply hnone
    intro event hevent
    have hreplied := (hevents event hevent).2.1
    cases event with
    | replied => contradiction
    | _ => rfl
  have hentered := hnone _ fun event hevent => (hevents event hevent).1
  have hreplied := hnone _ fun event hevent => (hevents event hevent).2.1
  have hdropped := hnone _ fun event hevent => (hevents event hevent).2.2
  constructor <;> simp [hmetrics, hinside, hreply, hentered, hreplied, hdropped]

/-- The outer layers keep the status and the body of a reply. -/
theorem finishReply_kept (hinner : cfg.answersPreflight arrival = false) (id : String)
    (response : Response) :
    (finishReply cfg arrival id response).status = response.status ∧
      (finishReply cfg arrival id response).body = response.body := by
  have hsecure : (securityHeadersMiddleware cfg.security response).status = response.status ∧
      (securityHeadersMiddleware cfg.security response).body = response.body := by
    unfold securityHeadersMiddleware
    split <;> exact ⟨rfl, rfl⟩
  unfold finishReply corsMiddleware
  rw [← hsecure.1, ← hsecure.2]
  cases henabled : cfg.cors.isEnabled with
  | false => exact ⟨rfl, rfl⟩
  | true =>
      rw [Config.answersPreflight, henabled, Bool.true_and] at hinner
      simp [hinner]

/-- A request inside the service was no preflight. -/
theorem Moves.inner
    (hmoves : Moves cfg arrival world now reading phase world' phase' events)
    (hinner : phase.isInside = true → cfg.answersPreflight arrival = false) :
    phase'.isInside = true → cfg.answersPreflight arrival = false := by
  cases hmoves with
  | entered unixMillis id counter hentered => exact fun _ => hentered
  | stayed => exact hinner
  | forgotten | preflight | departed | dropped => exact fun h => absurd h Bool.false_ne_true
  | _ => exact fun _ => hinner rfl

theorem Moves.booked
    (hmoves : Moves cfg arrival world now reading phase world' phase' events)
    (hinner : phase.isInside = true → cfg.answersPreflight arrival = false) :
    Booked world phase world' phase' events := by
  have hunseen : ∀ {A : Type} (wrap : A → Event) (inner : List A),
      (∀ inner, (wrap inner).isEntered = false ∧ (wrap inner).isReplied = false ∧
        (wrap inner).isDropped = false) →
      ∀ event ∈ inner.map wrap, event.isEntered = false ∧ event.isReplied = false ∧
        event.isDropped = false := by
    intro A wrap inner hwrap event hevent
    obtain ⟨inner, -, rfl⟩ := List.mem_map.mp hevent
    exact hwrap inner
  cases hmoves with
  | entered unixMillis id counter =>
      constructor <;> simp [ServiceMetrics.enter, Phase.isInside, Event.isEntered,
        Event.isReply, Event.isReplied, Event.isDropped]
  | departed id response =>
      have hkind : ∀ kind : StatusClass,
          [Event.replied (finishReply cfg arrival id response)].countP (Event.isReply kind) =
            (decide (statusClass response.status = kind)).toNat := by
        intro kind
        rw [List.countP_singleton, Event.isReply, (finishReply_kept (hinner rfl) id response).1]
        cases decide (statusClass response.status = kind) <;> rfl
      constructor
      · simp [ServiceMetrics.leave, Phase.isInside]
      · simp [ServiceMetrics.leave, Event.isEntered]
      · rw [hkind]
        exact record_serverErrors _ _
      · rw [hkind]
        exact record_paidChallenges _ _
      · rw [hkind]
        exact record_successfulRequests _ _
      · rfl
  | dropped id =>
      constructor <;> simp [ServiceMetrics.leave, Phase.isInside, Event.isEntered,
        Event.isReply, Event.isReplied, Event.isDropped]
  | admitted id layer remaining buckets calls =>
      exact .of_unseen rfl rfl (hunseen _ calls fun _ => ⟨rfl, rfl, rfl⟩)
  | refused id layer response buckets calls =>
      exact .of_unseen rfl rfl (hunseen _ calls fun _ => ⟨rfl, rfl, rfl⟩)
  | gated id remaining phase input gate phase' events =>
      exact .of_unseen rfl rfl (hunseen _ events fun _ => ⟨rfl, rfl, rfl⟩)
  | through id remaining phase input gate events =>
      exact .of_unseen rfl rfl (hunseen _ events fun _ => ⟨rfl, rfl, rfl⟩)
  | _ => exact .of_unseen rfl rfl (by simp [Event.isEntered, Event.isReplied, Event.isDropped])

end Moves

/-- The books agree with where the requests stand and with what happened. -/
structure Books (cfg : Config) (arrivals : ℕ → Arrival) (state : State)
    (records : List Record) : Prop where
  finite : (standing Phase.isInside state.phases).Finite
  inner : ∀ i, (state.phases i).isInside = true → cfg.answersPreflight (arrivals i) = false
  permits : state.world.permits + census Phase.holdsPermit state.phases = cfg.maxConcurrent
  active : state.world.metrics.activeRequests =
    Int64.ofNat (census Phase.isInside state.phases)
  total : state.world.metrics.totalRequests = UInt64.ofNat (count Event.isEntered records)
  serverErrors : state.world.metrics.serverErrors =
    UInt64.ofNat (count (Event.isReply .serverError) records)
  paidChallenges : state.world.metrics.paidChallenges =
    UInt64.ofNat (count (Event.isReply .paymentRequired) records)
  successfulRequests : state.world.metrics.successfulRequests =
    UInt64.ofNat (count (Event.isReply .successful) records)
  balance : count Event.isEntered records = census Phase.isInside state.phases +
    count Event.isReplied records + count Event.isDropped records

namespace Books

variable {cfg : Config} {arrivals : ℕ → Arrival} {state : State} {records : List Record}

theorem start (cfg : Config) (arrivals : ℕ → Arrival) (clock : Instant) :
    Books cfg arrivals (.start cfg clock) [] := by
  have hinside : census Phase.isInside (State.start cfg clock).phases = 0 :=
    census_eq_zero fun _ => rfl
  have hpermits : census Phase.holdsPermit (State.start cfg clock).phases = 0 :=
    census_eq_zero fun _ => rfl
  have hnobody : standing Phase.isInside (State.start cfg clock).phases = ∅ := by
    ext i
    simp [mem_standing, State.start, Phase.isInside]
  refine ⟨?_, fun i hi => absurd hi Bool.false_ne_true, ?_, ?_, rfl, rfl, rfl, rfl, ?_⟩
  · rw [hnobody]
    exact Set.finite_empty
  · rw [hpermits]
    rfl
  · rw [hinside]
    rfl
  · rw [hinside]
    rfl

theorem finite_permits (hbooks : Books cfg arrivals state records) :
    (standing Phase.holdsPermit state.phases).Finite :=
  hbooks.finite.subset fun _ hi => Phase.isInside_of_holdsPermit hi

/-- A counter that follows the events of a move follows those of the run. -/
theorem counter_step {counter counter' : UInt64} {kind : Event → Bool} {i : ℕ} {now : Instant}
    {events : List Event} (hcounter : counter = UInt64.ofNat (count kind records))
    (hmove : counter' = counter + UInt64.ofNat (events.countP kind)) :
    counter' = UInt64.ofNat (count kind (records ++ stamp i now events)) := by
  rw [hmove, hcounter, count_append_stamp, UInt64.ofNat_add]

theorem step (hbooks : Books cfg arrivals state records) {i : ℕ} {now reading : Instant}
    {world : World} {phase : Phase} {events : List Event}
    (hmoves : Moves cfg (arrivals i) state.world now reading (state.phases i) world phase
      events) :
    Books cfg arrivals ⟨world, now, Function.update state.phases i phase⟩
      (records ++ stamp i now events) := by
  have hbooked := hmoves.booked (hbooks.inner i)
  have hinside := census_update hbooks.finite i phase
  have hholders := census_update hbooks.finite_permits i phase
  have hpermits := hmoves.permits
  have hinner := (Function.forall_update_iff state.phases fun j place =>
    place.isInside = true → cfg.answersPreflight (arrivals j) = false).mpr
      ⟨hmoves.inner (hbooks.inner i), fun j _ => hbooks.inner j⟩
  refine ⟨standing_finite_update hbooks.finite i phase, hinner, ?_, ?_,
    counter_step hbooks.total hbooked.total,
    counter_step hbooks.serverErrors hbooked.serverErrors,
    counter_step hbooks.paidChallenges hbooked.paidChallenges,
    counter_step hbooks.successfulRequests hbooked.successfulRequests, ?_⟩
  · have hbefore := hbooks.permits
    simp only at hholders ⊢
    omega
  · -- The gauge moves with the census, also where it wraps.
    have hgauge := hbooked.active
    rw [hbooks.active, ← Int64.ofNat_add, ← hinside, Int64.ofNat_add] at hgauge
    exact (Int64.add_left_inj _).mp hgauge
  · have hbefore := hbooks.balance
    have hbalance := hbooked.balance
    simp only [count_append_stamp]
    omega

theorem of_run (cfg : Config) (arrivals : ℕ → Arrival) (clock : Instant)
    (actions : List Action) :
    Books cfg arrivals (run cfg arrivals clock actions).1 (run cfg arrivals clock actions).2 :=
  run_induction cfg arrivals (start cfg arrivals clock)
    (fun _ _ _ _ _ _ _ _ hbooks _ _ hmoves => hbooks.step hmoves) actions

end Books

/-- The permits of the concurrency limiter are neither lost nor made. -/
structure PermitsKept (cfg : Config) (arrivals : ℕ → Arrival) (state : State) : Prop where
  conserved : state.world.permits + census Phase.holdsPermit state.phases = cfg.maxConcurrent
  /-- A metered request is turned away exactly when all permits are held. -/
  turnedAway : ∀ i id elapsed lag, (arrivals i).metered = true →
    state.phases i = .entered id →
      let next := (machine cfg arrivals).step state ⟨i, elapsed, lag, .proceed⟩
      if census Phase.holdsPermit state.phases = cfg.maxConcurrent then
        next.1.phases i = .departing id (some (serviceBusy cfg.rt.codec)) ∧
          next.1.world = state.world
      else
        next.1.phases i = .seated id ∧
          census Phase.holdsPermit next.1.phases = census Phase.holdsPermit state.phases + 1
  returned : (∀ i, (state.phases i).holdsPermit = false) →
    state.world.permits = cfg.maxConcurrent

/-- Whatever the interleaving, and wherever requests are dropped or panic: at most
as many requests as there are permits are at the rate limiter or behind it, a
request is turned away only when so many are, and all permits come back. -/
theorem permits_kept (cfg : Config) (arrivals : ℕ → Arrival) (clock : Instant)
    (actions : List Action) :
    PermitsKept cfg arrivals (run cfg arrivals clock actions).1 := by
  have hbooks := Books.of_run cfg arrivals clock actions
  generalize (run cfg arrivals clock actions).1 = state at hbooks
  have hconserved := hbooks.permits
  refine ⟨hconserved, fun i id elapsed lag hmetered hentered => ?_, fun hnone => ?_⟩
  · intro next
    have hstep : next = (machine cfg arrivals).step state ⟨i, elapsed, lag, .proceed⟩ := rfl
    simp only [machine, move, hentered, step, route, hmetered, if_true] at hstep
    by_cases hfull : census Phase.holdsPermit state.phases = cfg.maxConcurrent
    · have hnone : state.world.permits = 0 := by omega
      rw [if_pos hfull, hstep, if_pos hnone]
      exact ⟨Function.update_self _ _ _, rfl⟩
    · have hroom : state.world.permits ≠ 0 := by omega
      rw [if_neg hfull, hstep, if_neg hroom]
      refine ⟨Function.update_self _ _ _, ?_⟩
      have hcensus := census_update hbooks.finite_permits i (Phase.seated id)
      rw [hentered] at hcensus
      exact hcensus
  · rw [census_eq_zero hnone] at hconserved
    exact hconserved

/-- What the metrics endpoint shows is what happened, up to the wrapping of 64
bits. -/
structure CountersAgree (state : State) (records : List Record) : Prop where
  active : state.world.metrics.activeRequests =
    Int64.ofNat (census Phase.isInside state.phases)
  total : state.world.metrics.totalRequests = UInt64.ofNat (count Event.isEntered records)
  serverErrors : state.world.metrics.serverErrors =
    UInt64.ofNat (count (Event.isReply .serverError) records)
  paidChallenges : state.world.metrics.paidChallenges =
    UInt64.ofNat (count (Event.isReply .paymentRequired) records)
  successfulRequests : state.world.metrics.successfulRequests =
    UInt64.ofNat (count (Event.isReply .successful) records)
  /-- Every request that came in is in flight, was answered in one of four ways,
  or was dropped. -/
  accounted : state.world.metrics.totalRequests =
    UInt64.ofNat (census Phase.isInside state.phases) + state.world.metrics.serverErrors +
      state.world.metrics.paidChallenges + state.world.metrics.successfulRequests +
      UInt64.ofNat (count (Event.isReply .clientError) records) +
      UInt64.ofNat (count Event.isDropped records)

theorem counters_agree (cfg : Config) (arrivals : ℕ → Arrival) (clock : Instant)
    (actions : List Action) :
    CountersAgree (run cfg arrivals clock actions).1 (run cfg arrivals clock actions).2 := by
  have hbooks := Books.of_run cfg arrivals clock actions
  generalize run cfg arrivals clock actions = run at hbooks
  refine ⟨hbooks.active, hbooks.total, hbooks.serverErrors, hbooks.paidChallenges,
    hbooks.successfulRequests, ?_⟩
  have hsum : count Event.isEntered run.2 = census Phase.isInside run.1.phases +
      count (Event.isReply .serverError) run.2 +
      count (Event.isReply .paymentRequired) run.2 +
      count (Event.isReply .successful) run.2 + count (Event.isReply .clientError) run.2 +
      count Event.isDropped run.2 := by
    have hbalance := hbooks.balance
    have hsplit := count_isReplied run.2
    omega
  rw [hbooks.total, hbooks.serverErrors, hbooks.paidChallenges, hbooks.successfulRequests, hsum]
  simp only [UInt64.ofNat_add]

end Wrapper

end KiteX402
