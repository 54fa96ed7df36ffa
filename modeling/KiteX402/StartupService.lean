/-
What the bounds of a start come to in every run of the whole service: how much it
holds at a time, and how often one payment is charged.
-/
import KiteX402.ServiceBooks
import KiteX402.ServiceQuota
import KiteX402.StartupExchange

namespace KiteX402

section Unguarded

variable {rt : Runtime} {cfg : PaymentConfig} {req : Request}

theorem finish_store_of_unguarded (hguard : cfg.nonceGuard = none) (world : GateWorld)
    (held : Option PaymentNonceReservation) (now : Instant) (last : GateEvent) :
    (finish rt cfg world held now last).1.1.store = world.store := by
  simp only [finish, hguard]

/-- Without a guard nothing is remembered. -/
theorem gateStep_store_of_unguarded (hguard : cfg.nonceGuard = none) (world : GateWorld)
    (phase : GatePhase) (now : Instant) (input : GateInput) :
    (gateStep rt cfg req world phase now input).1.1.store = world.store := by
  have hfinish : ∀ (world : GateWorld) held last,
      (finish rt cfg world held now last).1.1.store = world.store :=
    fun world held last => finish_store_of_unguarded hguard world held now last
  cases phase with
  | arrived =>
      cases input with
      | poll wallClock reserveAt =>
          simp only [gateStep, arrive, hguard]
          split
          · exact world.record_store cfg _
          · split
            · exact (GateWorld.record_store _ cfg _).trans (world.record_store cfg _)
            · exact world.record_store cfg _
          · exact world.record_store cfg _
      | _ => rfl
  | verifying attempt =>
      cases input with
      | verified result =>
          simp only [gateStep, afterVerify]
          cases result with
          | error text => simp only [hfinish, GateWorld.record_store]
          | ok verify =>
              dsimp only
              split
              · exact world.record_store cfg _
              · simp only [hfinish, GateWorld.record_store]
      | cancel => exact hfinish world attempt.reservation .cancelled
      | _ => rfl
  | handling attempt =>
      cases input with
      | handled response =>
          simp only [gateStep, afterHandler]
          split
          · exact hfinish world _ _
          · rfl
      | cancel => exact hfinish world attempt.reservation .cancelled
      | _ => rfl
  | settling attempt response =>
      cases input with
      | settled result elapsed =>
          simp only [gateStep, afterSettle]
          cases result <;> simp only [hfinish, GateWorld.record_store]
      | cancel => exact hfinish world attempt.reservation .cancelled
      | _ => rfl
  | ended => rfl

end Unguarded

theorem GateEvent.exists_of_isSettleCalled {event : GateEvent}
    (h : event.isSettleCalled = true) :
    ∃ payload requirements, event = .settleCalled payload requirements := by
  cases event with
  | settleCalled payload requirements => exact ⟨payload, requirements, rfl⟩
  | _ => exact absurd h Bool.false_ne_true

namespace SystemInvariant

variable {sys : GateSystem} {prior : List GuardEvent} {state : SystemState}
  {events before after : List SystemEvent}

/-- Two charges of one key are the whole ttl apart. -/
theorem charged_apart (hinv : SystemInvariant sys prior state events) {i j : ℕ} {key : String}
    (hi : sys.key i = some key) (hj : sys.key j = some key) {first second : Instant}
    {payload payload' : PaymentPayload} {requirements requirements' : PaymentRequirements}
    (hevents : events = before ++ ⟨j, second, .settleCalled payload' requirements'⟩ :: after)
    (hcharged : ⟨i, first, .settleCalled payload requirements⟩ ∈ before) :
    first + sys.guard.ttl ≤ second := by
  obtain ⟨own, hown, hmay⟩ :=
    hinv.replaySafe.charge before _ after hevents payload' requirements' rfl
  obtain rfl : own = key := Option.some.inj (hown.symm.trans hj)
  obtain ⟨ended, handle, dropped, hdropped, hapart⟩ :=
    hmay i first payload requirements hi hcharged
  refine (Nat.add_le_add_right ?_ _).trans hapart
  -- While it was charged the first held its key, so it let go of it afterwards.
  obtain ⟨start, rest, hsplit, hfirst⟩ := split_of_mem hevents hcharged
  obtain ⟨-, -, -, hheld⟩ := hinv.holdsKey_of_protected hfirst rfl
  rw [hsplit] at hdropped
  rcases List.mem_append.mp hdropped with hstart | hrest
  · exact absurd hstart (hheld ended handle dropped)
  · rcases List.mem_cons.mp hrest with heq | hrest
    · exact (congrArg SystemEvent.time heq).ge
    · have hordered := hinv.ordered
      rw [hfirst, List.pairwise_append] at hordered
      exact (List.pairwise_cons.mp hordered.2.1).1 _ (List.mem_append_left _ hrest)

end SystemInvariant

namespace Wrapper

section Unused

variable {cfg : Config} {arrival : Arrival} {world world' : World} {now reading : Instant}
  {phase phase' : Phase} {events : List Event}

/-- Without a limiter there are no buckets. -/
theorem Moves.buckets_of_unlimited (hlimiter : cfg.limiter = none)
    (hmoves : Moves cfg arrival world now reading phase world' phase' events) :
    world'.buckets = world.buckets := by
  cases hmoves with
  | admitted id layer remaining buckets calls hsome =>
      rw [hlimiter] at hsome
      contradiction
  | refused id layer response buckets calls hsome =>
      rw [hlimiter] at hsome
      contradiction
  | _ => rfl

theorem Moves.store_of_unguarded (hguard : cfg.payment.nonceGuard = none)
    (hmoves : Moves cfg arrival world now reading phase world' phase' events) :
    world'.gate.store = world.gate.store := by
  have hgate : ∀ {id phase input gate next events},
      gateStep cfg.rt cfg.payment (arrival.tagged id) world.gate phase now input =
        ((gate, next), events) → gate.store = world.gate.store := by
    intro id phase input gate next events hstep
    have hstore := @gateStep_store_of_unguarded cfg.rt _ (arrival.tagged id) hguard world.gate
      phase now input
    rwa [hstep] at hstore
  cases hmoves with
  | gated id remaining phase input gate next events hstep => exact hgate hstep
  | through id remaining phase input gate events hstep => exact hgate hstep
  | _ => rfl

end Unused

section Sizes

variable (cfg : Config) (arrivals : ℕ → Arrival) (clock : Instant) (actions : List Action)

/-- A bound on the limiter's clients, whatever limiter there is, bounds the buckets. -/
theorem buckets_size_le {bound : ℕ}
    (hbound : ∀ layer, cfg.limiter = some layer → layer.config.maxClients ≤ bound) :
    (run cfg arrivals clock actions).1.world.buckets.size ≤ bound := by
  cases hlimiter : cfg.limiter with
  | none =>
      have hempty : (run cfg arrivals clock actions).1.world.buckets = ∅ :=
        run_induction (P := fun state _ => state.world.buckets = ∅) cfg arrivals rfl
          (fun _ _ _ _ _ _ _ _ hempty _ _ hmoves =>
            (hmoves.buckets_of_unlimited hlimiter).trans hempty) actions
      rw [hempty]
      exact Nat.zero_le _
  | some layer =>
      obtain ⟨calls, hrun⟩ := limiter_run hlimiter arrivals clock actions
      have hinv := limiterMachine_run_invariant layer.config cfg.rt.clock calls
      rw [hrun] at hinv
      exact hinv.size_le.trans (hbound layer hlimiter)

/-- And one on the capacity of the guard bounds the payments that are remembered. -/
theorem store_size_le {bound : ℕ}
    (hbound : ∀ guard, cfg.payment.nonceGuard = some guard → guard.maxCapacity ≤ bound) :
    (run cfg arrivals clock actions).1.world.gate.store.size ≤ bound := by
  cases hguard : cfg.payment.nonceGuard with
  | none =>
      have hempty : (run cfg arrivals clock actions).1.world.gate.store = NonceStore.empty :=
        run_induction (P := fun state _ => state.world.gate.store = NonceStore.empty) cfg arrivals
          rfl (fun _ _ _ _ _ _ _ _ hempty _ _ hmoves =>
            (hmoves.store_of_unguarded hguard).trans hempty) actions
      rw [hempty]
      exact Nat.zero_le _
  | some guard =>
      obtain ⟨gateActions, hreflects⟩ := reflects_run hguard arrivals clock actions
      have hinv := systemMachine_run_invariant (gateSystem cfg arrivals guard) []
        PaymentMetrics.new clock gateActions
      obtain ⟨handles, hprotects, -⟩ := hinv.guarded
      rw [← hreflects.world]
      exact hprotects.invariant.size_le.trans (hbound guard hguard)

end Sizes

end Wrapper

section Run

open Wrapper (Arrival Action State Record gateRecords)

/-- One payment is charged for once an hour at most. -/
def ChargesHourly (rt : Runtime) (arrivals : ℕ → Arrival) (events : List SystemEvent) : Prop :=
  Justified (fun before second => second.event.isSettleCalled = true →
    ∀ first ∈ before, first.event.isSettleCalled = true →
      paymentKey rt (arrivals first.request).request =
        paymentKey rt (arrivals second.request).request →
      first.time + Duration.fromSecs 3600 ≤ second.time) events

/-- What a started service holds at a time, and what it charges. -/
structure HoldsLittle (cfg : ServiceConfig) (rt : Runtime) (arrivals : ℕ → Arrival)
    (state : State) (records : List Record) : Prop where
  /-- At the rate limiter or behind it. -/
  requests : census Wrapper.Phase.holdsPermit state.phases ≤ 10000
  clients : state.world.buckets.size ≤ 1000000
  payments : state.world.gate.store.size ≤ 1000000
  charges : cfg.payment.nonceGuard ≠ none → ChargesHourly rt arrivals (gateRecords records)

/-- Whatever the environment says, if the service starts, and whoever calls it then. -/
theorem started_holds_little {float : FloatText} {debug : String → String}
    (started : Started float debug) (rt : Runtime) (arrivals : ℕ → Arrival) (clock : Instant)
    (actions : List Action) :
    let run := Wrapper.run (started.cfg.wrapper rt) arrivals clock actions
    HoldsLittle started.cfg rt arrivals run.1 run.2 := by
  intro run
  have hbounded := yields_startup float debug started.env started.cfg started.ran
  have hpermits := (Wrapper.Books.of_run (started.cfg.wrapper rt) arrivals clock actions).permits
  refine ⟨?_, ?_, ?_, fun hsome => ?_⟩
  · calc census Wrapper.Phase.holdsPermit run.1.phases
        ≤ (started.cfg.wrapper rt).maxConcurrent := hpermits ▸ Nat.le_add_left _ _
      _ ≤ 10000 := started.cfg.maxConcurrent.property.2
  · exact Wrapper.buckets_size_le _ arrivals clock actions
      fun layer hlayer => (hbounded.limiter layer hlayer).2.1
  · exact Wrapper.store_size_le _ arrivals clock actions
      fun guard hguard => (hbounded.nonceGuard guard hguard).1
  · obtain ⟨guard, hguard⟩ := Option.ne_none_iff_exists'.mp hsome
    have hwrapper : (started.cfg.wrapper rt).payment.nonceGuard = some guard := hguard
    obtain ⟨gateActions, hreflects⟩ := Wrapper.reflects_run hwrapper arrivals clock actions
    have hinv := systemMachine_run_invariant
      (Wrapper.gateSystem (started.cfg.wrapper rt) arrivals guard) [] PaymentMetrics.new clock
      gateActions
    have hrecords := hreflects.records
    rintro before ⟨j, later, last⟩ after hevents hlast ⟨i, earlier, first⟩ hmem hfirst hkey
    obtain ⟨payload', requirements', rfl⟩ := GateEvent.exists_of_isSettleCalled hlast
    obtain ⟨payload, requirements, rfl⟩ := GateEvent.exists_of_isSettleCalled hfirst
    rw [← (hbounded.nonceGuard guard hguard).2]
    obtain ⟨key, hown, -⟩ := hinv.holdsKey_of_protected (hrecords.trans hevents) rfl
    exact hinv.charged_apart (hkey.trans hown) hown (hrecords.trans hevents) hmem

end Run

end KiteX402
