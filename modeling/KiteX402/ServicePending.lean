/-
What the replay guard of the service still keeps: for the requests at the gate
their reservations, and of those that have left only what has a deadline.  So a
guard that is full is full of payments that are over.
-/
import KiteX402.GateSystemPending
import KiteX402.ServiceGate

namespace KiteX402

/-- A refusal for lack of capacity leaves a store that is full, and the request
without a reservation. -/
theorem GuardEffect.of_capacityExceeded {guard : PaymentNonceReplayGuard}
    {clock : MonotonicClock} {own : Option String} {store store' : NonceStore}
    {now reserveAt : Instant} {held held' : Option PaymentNonceReservation}
    {events : List GuardEvent}
    (heffect : GuardEffect guard clock own store now reserveAt held held' store' events)
    {key : String} {reading : Instant}
    (hmem : .refused key reading .capacityExceeded ∈ events) :
    guard.maxCapacity ≤ store'.size ∧ held' = none := by
  cases heffect with
  | refused own error hkey hrefused =>
      obtain ⟨rfl, rfl, rfl⟩ := GuardEvent.refused.inj (List.mem_singleton.mp hmem)
      rcases guard.reserveKey_cases store key reading with ⟨_, heq⟩ | ⟨_, hfull, _⟩ | ⟨_, _, heq⟩
      · rw [heq] at hrefused
        simp at hrefused
      · exact ⟨hfull, rfl⟩
      · rw [heq] at hrefused
        simp at hrefused
  | idle | retained => simp at hmem
  | reserved | letGo => simp at hmem

namespace Wrapper

/-- The reservation that a request holds at the gate. -/
def Phase.reservation : Phase → Option PaymentNonceReservation
  | .gated _ _ own => own.reservation
  | _ => none

theorem Phase.AtGate.reservation {phase : Phase} {own : GatePhase} (hat : phase.AtGate own) :
    phase.reservation = own.reservation := by
  cases phase with
  | arrived | entered | seated | gated =>
      rw [show own = _ from hat]
      rfl
  | _ => exact hat.symm

def Phase.holdsReservation (phase : Phase) : Bool := phase.reservation.isSome

theorem Phase.holdsPermit_of_holdsReservation {phase : Phase}
    (h : phase.holdsReservation = true) : phase.holdsPermit = true := by
  cases phase with
  | gated => rfl
  | _ => contradiction

/-- What happened to the guard of the service. -/
def guardRecords (records : List Record) : List GuardEvent := guardTrace (gateRecords records)

/-- Reservations of requests at the gate are stored, and only they are without a
deadline. -/
structure Pending (cfg : Config) (guard : PaymentNonceReplayGuard) (state : State)
    (records : List Record) : Prop where
  entries : ∀ key entry, state.world.gate.store.entries.lookup key = some entry →
    state.world.gate.store.Dated key ∨
      (∃ i retain, (state.phases i).reservation = some ⟨key, entry.generation, retain⟩) ∨
      Undated guard cfg.rt.clock (guardRecords records) key entry
  held : ∀ i handle, (state.phases i).reservation = some handle →
    handle.Stored state.world.gate.store ∧ ¬state.world.gate.store.Dated handle.key
  dropped : ∀ handle ended, .dropped handle ended ∈ guardRecords records → ended ≤ state.clock

section Entries

variable {cfg : Config} {guard : PaymentNonceReplayGuard}

theorem pending_run (hguard : cfg.payment.nonceGuard = some guard) (arrivals : ℕ → Arrival)
    (clock : Instant) (actions : List Action) :
    Pending cfg guard (run cfg arrivals clock actions).1 (run cfg arrivals clock actions).2 := by
  obtain ⟨gateActions, hreflects⟩ := reflects_run hguard arrivals clock actions
  obtain ⟨hinv, hleaked⟩ := noneLeaked_run (gateSystem cfg arrivals guard) PaymentMetrics.new
    clock gateActions
  generalize (systemMachine (gateSystem cfg arrivals guard)).run _ gateActions = gate
    at hreflects hinv hleaked
  have hworld := hreflects.world
  have hheld : ∀ i, ((run cfg arrivals clock actions).1.phases i).reservation =
      (gate.1.phases i).reservation := fun i => (hreflects.place i).reservation
  constructor
  · intro key entry hentry
    rw [← hworld] at hentry ⊢
    rw [guardRecords, ← hreflects.records]
    simp only [hheld]
    exact hleaked.entries key entry hentry
  · intro i handle hhandle
    rw [hheld] at hhandle
    rw [← hworld]
    exact hleaked.held i handle hhandle
  · intro handle ended hmem
    rw [guardRecords, ← hreflects.records] at hmem
    obtain ⟨i, time, hevent⟩ := mem_guardTrace.mp hmem
    have htime : ended = time := hinv.drops i time handle ended hevent
    have hlast : time ≤ gate.1.clock := hinv.stamped _ hevent
    rw [htime]
    exact hlast.trans hreflects.clock

variable {state : State} {records : List Record}

/-- Where every deadline so far was representable, an entry is dated or held. -/
theorem Pending.entry_cases (hpending : Pending cfg guard state records)
    (hclock : state.clock + guard.ttl ≤ cfg.rt.clock.latest) {key : String} {entry : NonceEntry}
    (hentry : state.world.gate.store.entries.lookup key = some entry) :
    state.world.gate.store.Dated key ∨
      ∃ i retain, (state.phases i).reservation = some ⟨key, entry.generation, retain⟩ := by
  refine (hpending.entries key entry hentry).imp_right ?_
  rintro (hheld | ⟨ended, hmem, hnone⟩)
  · exact hheld
  · have hended := hpending.dropped _ ended hmem
    have hfits : ended + guard.ttl ≤ cfg.rt.clock.latest :=
      (Nat.add_le_add_right hended guard.ttl).trans hclock
    rw [MonotonicClock.checkedAdd, if_pos hfits] at hnone
    contradiction

/-- So the guard keeps no more than its deadlines and the reservations held. -/
theorem Pending.size_le (hpending : Pending cfg guard state records)
    (hclock : state.clock + guard.ttl ≤ cfg.rt.clock.latest)
    (hfinite : (standing Phase.holdsReservation state.phases).Finite) :
    state.world.gate.store.size ≤ state.world.gate.store.expirations.card +
      census Phase.holdsReservation state.phases := by
  let heldKey : ℕ → String := fun i =>
    ((state.phases i).reservation.map PaymentNonceReservation.key).getD ""
  have hsub : state.world.gate.store.entries.keys ⊆
      state.world.gate.store.expirations.image (fun pair => (ofLex pair).2) ∪
        hfinite.toFinset.image heldKey := by
    intro key hkey
    obtain ⟨entry, hentry⟩ := Finmap.mem_iff.mp (Finmap.mem_keys.mp hkey)
    rw [Finset.mem_union]
    rcases hpending.entry_cases hclock hentry with ⟨deadline, hrecord⟩ | ⟨i, retain, hheld⟩
    · exact Or.inl (Finset.mem_image.mpr ⟨_, hrecord, rfl⟩)
    · refine Or.inr (Finset.mem_image.mpr ⟨i, ?_, ?_⟩)
      · rw [Set.Finite.mem_toFinset, mem_standing, Phase.holdsReservation, hheld]
        rfl
      · simp only [heldKey, hheld, Option.map_some, Option.getD_some]
  calc state.world.gate.store.size
      ≤ (state.world.gate.store.expirations.image (fun pair => (ofLex pair).2) ∪
          hfinite.toFinset.image heldKey).card := Finset.card_le_card hsub
    _ ≤ (state.world.gate.store.expirations.image fun pair => (ofLex pair).2).card +
          (hfinite.toFinset.image heldKey).card := Finset.card_union_le _ _
    _ ≤ state.world.gate.store.expirations.card + hfinite.toFinset.card :=
        Nat.add_le_add Finset.card_image_le Finset.card_image_le
    _ = state.world.gate.store.expirations.card +
          census Phase.holdsReservation state.phases := by
        rw [census, Set.ncard_eq_toFinset_card _ hfinite]

end Entries

section Refusals

variable {cfg : Config} {guard : PaymentNonceReplayGuard} {arrival : Arrival}
  {world world' : World} {now reading : Instant} {phase phase' : Phase} {events : List Event}

/-- The request that is refused still has its permit. -/
theorem Moves.of_capacityExceeded (hguard : cfg.payment.nonceGuard = some guard)
    (hmoves : Moves cfg arrival world now reading phase world' phase' events) {key : String}
    {reserveAt : Instant}
    (hmem : .gate (.guard (.refused key reserveAt .capacityExceeded)) ∈ events) :
    guard.maxCapacity ≤ world'.gate.store.size ∧ phase'.holdsReservation = false ∧
      phase'.holdsPermit = true := by
  have hevent : GateEvent.guard (.refused key reserveAt .capacityExceeded) ∈
      events.filterMap Event.gateEvent := List.mem_filterMap.mpr ⟨_, hmem, rfl⟩
  rcases hmoves.gate_cases with hunseen | ⟨id, remaining, own, input, next, rfl, hgate⟩
  · rw [hunseen.events] at hevent
    simp at hevent
  · have heffect := @gateStep_effect cfg.rt cfg.payment arrival.request guard hguard world.gate
      own now (input.readAt reading)
    rw [hgate.step] at heffect
    obtain ⟨hfull, hnone⟩ := heffect.of_capacityExceeded (mem_guardEvents.mpr hevent)
    refine ⟨hfull, ?_, ?_⟩
    · rw [Phase.holdsReservation, hgate.place.reservation]
      simp only [hnone, Option.isSome_none]
    · cases hmoves with
      | stayed | gated | through => rfl

end Refusals

/-- The replay guard of a service, in any state the service gets into. -/
structure ReservationsKept (cfg : Config) (arrivals : ℕ → Arrival) (state : State)
    (records : List Record) : Prop where
  pending : ∀ guard, cfg.payment.nonceGuard = some guard → Pending cfg guard state records
  /-- Of all that fills a full guard, less than the permits are still in flight. -/
  capacity : ∀ guard, cfg.payment.nonceGuard = some guard → ∀ action,
    let next := (machine cfg arrivals).step state action
    next.1.clock + guard.ttl ≤ cfg.rt.clock.latest →
      ∀ i time key reading,
        ⟨i, time, .gate (.guard (.refused key reading .capacityExceeded))⟩ ∈ next.2 →
        guard.maxCapacity + 1 ≤
          next.1.world.gate.store.expirations.card + cfg.maxConcurrent
  /-- Once nobody is inside, all that is left of the requests are deadlines. -/
  drained : (∀ i, (state.phases i).isInside = false) →
    state.world.permits = cfg.maxConcurrent ∧ state.world.metrics.activeRequests = 0 ∧
      ∀ guard, cfg.payment.nonceGuard = some guard → ∀ key entry,
        state.world.gate.store.entries.lookup key = some entry →
          state.world.gate.store.Dated key ∨
            Undated guard cfg.rt.clock (guardRecords records) key entry

/-- In every interleaving, wherever requests are dropped or panic, no reservation
is left behind. -/
theorem reservations_kept (cfg : Config) (arrivals : ℕ → Arrival) (clock : Instant)
    (actions : List Action) :
    ReservationsKept cfg arrivals (run cfg arrivals clock actions).1
      (run cfg arrivals clock actions).2 := by
  have hpending : ∀ guard, cfg.payment.nonceGuard = some guard → ∀ actions,
      Pending cfg guard (run cfg arrivals clock actions).1 (run cfg arrivals clock actions).2 :=
    fun guard hguard actions => pending_run hguard arrivals clock actions
  refine ⟨fun guard hguard => hpending guard hguard actions, ?_, fun hnobody => ?_⟩
  · intro guard hguard action next hclock i time key reading hrefused
    have hafter : (run cfg arrivals clock (actions ++ [action])).1 = next.1 := by
      rw [run, Machine.run_concat]
      rfl
    have hkept := hpending guard hguard (actions ++ [action])
    have hbooks := Books.of_run cfg arrivals clock (actions ++ [action])
    rw [hafter] at hkept hbooks
    obtain ⟨hfull, hnone, hpermit⟩ : guard.maxCapacity ≤ next.1.world.gate.store.size ∧
        (next.1.phases action.request).holdsReservation = false ∧
        (next.1.phases action.request).holdsPermit = true := by
      obtain ⟨event, hevent, heq⟩ := List.mem_map.mp hrefused
      obtain ⟨-, -, rfl⟩ := Record.mk.inj heq
      have hmoves := @step_moves cfg (arrivals action.request)
        (run cfg arrivals clock actions).1.world
        ((run cfg arrivals clock actions).1.phases action.request) next.1.clock
        (next.1.clock - action.lag) action.input
      simp only [next, machine, Function.update_self]
      exact hmoves.of_capacityExceeded hguard hevent
    -- The refused request holds a permit and no reservation.
    have hfewer : census Phase.holdsReservation next.1.phases <
        census Phase.holdsPermit next.1.phases := by
      refine Set.ncard_lt_ncard ⟨fun j hj => ?_, fun hsub => ?_⟩ hbooks.finite_permits
      · exact Phase.holdsPermit_of_holdsReservation hj
      · have hheld := hsub (mem_standing.mpr hpermit)
        rw [mem_standing, hnone] at hheld
        contradiction
    have hfinite : (standing Phase.holdsReservation next.1.phases).Finite :=
      hbooks.finite_permits.subset fun j hj => Phase.holdsPermit_of_holdsReservation hj
    have hsize := hkept.size_le hclock hfinite
    have hpermits := hbooks.permits
    omega
  · have hbooks := Books.of_run cfg arrivals clock actions
    have hholders : ∀ i, ((run cfg arrivals clock actions).1.phases i).holdsPermit = false := by
      intro i
      by_contra hholds
      have hinside := Phase.isInside_of_holdsPermit (Bool.eq_true_of_not_eq_false hholds)
      rw [hnobody i] at hinside
      contradiction
    refine ⟨?_, ?_, fun guard hguard key entry hentry => ?_⟩
    · have hpermits := hbooks.permits
      rw [census_eq_zero hholders] at hpermits
      exact hpermits
    · rw [hbooks.active, census_eq_zero hnobody]
      rfl
    · refine ((hpending guard hguard actions).entries key entry hentry).imp_right ?_
      rintro (⟨i, retain, hheld⟩ | hundated)
      · have hpermit : ((run cfg arrivals clock actions).1.phases i).holdsPermit = true := by
          apply Phase.holdsPermit_of_holdsReservation
          rw [Phase.holdsReservation, hheld]
          rfl
        rw [hholders i] at hpermit
        contradiction
      · exact hundated

end Wrapper

end KiteX402
