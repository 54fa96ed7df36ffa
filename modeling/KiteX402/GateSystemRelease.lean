/-
A request that was not charged leaves its authorization free: whatever other
requests do meanwhile, its key is gone from both containers of the guard.
-/
import KiteX402.GateSystemReplay

namespace KiteX402

/-- The request ended before it could be charged: the payment was not verified,
the request was dropped before it entered the handler, or the handler failed. -/
def Retryable (trace : List GateEvent) : Prop :=
  (∃ error, .verifyReturned (.error error) ∈ trace) ∨
  (∃ verify, .verifyReturned (.ok verify) ∈ trace ∧ verify.isValid = false) ∨
  (.cancelled ∈ trace ∧ .handlerEntered ∉ trace) ∨
  (∃ response, .handlerReturned response ∈ trace ∧ 400 ≤ response.status)

/-- Neither container of the guard knows the key. -/
def KeyFree (store : NonceStore) (key : String) : Prop :=
  key ∉ store.entries ∧ ∀ deadline, toLex (deadline, key) ∉ store.expirations

/-- The key can be reserved at once, unless other keys take up the guard. -/
def Reservable (guard : PaymentNonceReplayGuard) (store : NonceStore)
    (key : String) : Prop :=
  ∀ now, key ∉ (store.expire now).entries ∧
    ((∃ handle, (guard.reserveKey store key now).1 = .ok handle) ∨
      ((guard.reserveKey store key now).1 = .error .capacityExceeded ∧
        guard.maxCapacity ≤ (store.expire now).size))

/-- `store'` is `store` without at most 64 entries that were due at `now`. -/
def SweptTo (store : NonceStore) (now : Instant) (store' : NonceStore) : Prop :=
  ∃ removed ⊆ store.expirations, removed.card ≤ 64 ∧
    (∀ pair ∈ removed, (ofLex pair).1 ≤ now ∧
      store'.entries.lookup (ofLex pair).2 = none) ∧
    store'.expirations = store.expirations \ removed ∧
    ∀ key, (∀ pair ∈ removed, (ofLex pair).2 ≠ key) →
      store'.entries.lookup key = store.entries.lookup key

theorem sweptTo_expire (store : NonceStore) (now : Instant) :
    SweptTo store now (store.expire now) := by
  refine ⟨store.toExpiryStore.swept now 64, ExpiryStore.swept_subset now 64 _,
    ExpiryStore.card_swept_le now 64 _, fun pair hpair => ⟨?_, ?_⟩,
    ExpiryStore.expirations_sweep now 64 _, fun key hkey => ?_⟩
  · exact ExpiryStore.due_of_mem_swept pair hpair
  · exact ExpiryStore.lookup_sweep_of_mem_swept pair hpair
  · exact ExpiryStore.lookup_sweep_of_notMem_swept hkey

theorem sweptTo_of_reserveKey_error (guard : PaymentNonceReplayGuard)
    {store store' : NonceStore} {key : String} {now : Instant}
    {error : NonceReplayError}
    (h : guard.reserveKey store key now = (.error error, store')) :
    SweptTo store now store' := by
  have hstore : store' = store.expire now := by
    rcases guard.reserveKey_cases store key now with
      ⟨_, heq⟩ | ⟨_, _, heq⟩ | ⟨_, _, heq⟩ <;> rw [heq] at h
    · exact (Prod.mk.inj h).2.symm
    · exact (Prod.mk.inj h).2.symm
    · simp at h
  rw [hstore]
  exact sweptTo_expire store now

/-- A key without a record is not touched by a sweep. -/
theorem lookup_expire_of_unrecorded {store : NonceStore} {key : String}
    (hrecord : ∀ deadline, toLex (deadline, key) ∉ store.expirations)
    (now : Instant) :
    (store.expire now).entries.lookup key = store.entries.lookup key := by
  apply ExpiryStore.lookup_sweep_of_notMem_swept
  rintro pair hpair rfl
  exact hrecord (ofLex pair).1 (ExpiryStore.swept_subset now 64 _ hpair)

theorem unrecorded_expire {store : NonceStore} {key : String}
    (hrecord : ∀ deadline, toLex (deadline, key) ∉ store.expirations)
    (now deadline : Instant) :
    toLex (deadline, key) ∉ (store.expire now).expirations :=
  fun hmem => hrecord deadline (ExpiryStore.sweep_expirations_subset now 64 _ hmem)

namespace KeyFree

variable {store : NonceStore} {key : String}

theorem expire (hfree : KeyFree store key) (now : Instant) :
    KeyFree (store.expire now) key := by
  refine ⟨?_, unrecorded_expire hfree.2 now⟩
  rw [← Finmap.lookup_eq_none, lookup_expire_of_unrecorded hfree.2,
    Finmap.lookup_eq_none]
  exact hfree.1

theorem reservable (hfree : KeyFree store key) (guard : PaymentNonceReplayGuard) :
    Reservable guard store key := by
  intro now
  have hkey := (hfree.expire now).1
  refine ⟨hkey, ?_⟩
  rcases guard.reserveKey_cases store key now with
    ⟨hmem, _⟩ | ⟨_, hfull, heq⟩ | ⟨_, _, heq⟩
  · exact absurd hmem hkey
  · exact Or.inr ⟨by rw [heq], hfull⟩
  · exact Or.inl ⟨_, by rw [heq]⟩

end KeyFree

/-- The steps of a request with another key leave what the guard knows of
`key` alone. -/
theorem GuardEffect.frame {guard : PaymentNonceReplayGuard} {clock : MonotonicClock}
    {other : Option String} {store store' : NonceStore} {now reserveAt : Instant}
    {held held' : Option PaymentNonceReservation} {events : List GuardEvent}
    (heffect : GuardEffect guard clock other store now reserveAt held held' store'
      events) {key : String} (hother : other ≠ some key)
    (hheld : ∀ handle, held = some handle → handle.key ≠ key)
    (hrecord : ∀ deadline, toLex (deadline, key) ∉ store.expirations) :
    store'.entries.lookup key = store.entries.lookup key ∧
      ∀ deadline, toLex (deadline, key) ∉ store'.expirations := by
  have hexpire := lookup_expire_of_unrecorded hrecord reserveAt
  have hexpire' := unrecorded_expire hrecord reserveAt
  cases heffect with
  | idle | retained => exact ⟨rfl, hrecord⟩
  | reserved own hkey =>
      have hne : key ≠ own := by
        rintro rfl
        exact hother hkey
      refine ⟨?_, hexpire'⟩
      rw [NonceStore.lookup_occupy_of_ne hne]
      exact hexpire
  | refused => exact ⟨hexpire, hexpire'⟩
  | letGo handle flag =>
      have hne : key ≠ handle.key := Ne.symm (hheld handle rfl)
      rcases guard.drop_cases clock store { handle with retain := flag } now with
        ⟨_, hdrop⟩ | ⟨_, _, hdrop⟩ | ⟨_, _, _, hdrop⟩ | ⟨_, _, _, _, hdrop⟩ <;>
        rw [hdrop]
      · exact ⟨rfl, hrecord⟩
      · exact ⟨NonceStore.lookup_remove_of_ne hne, hrecord⟩
      · exact ⟨rfl, hrecord⟩
      · refine ⟨rfl, fun deadline hmem => ?_⟩
        rcases NonceStore.mem_retainUntil_expirations.mp hmem with ⟨_, heq⟩ | hmem
        · exact hne heq
        · exact hrecord deadline hmem

section Requests

variable {rt : Runtime} {cfg : PaymentConfig} {req : Request}
  {guard : PaymentNonceReplayGuard} {phase : GatePhase} {trace : List GateEvent}

/-- A request holds a reservation of its own key. -/
theorem GateHistory.held_key (hguard : cfg.nonceGuard = some guard)
    (hhist : GateHistory rt cfg req phase trace) {handle : PaymentNonceReservation}
    (hheld : phase.reservation = some handle) :
    paymentKey rt req = some handle.key := by
  cases hhist with
  | verifying _ _ hmatch hopens | handling _ _ _ hmatch hopens
  | settling _ _ _ _ hmatch hopens =>
      obtain ⟨generation, reservedAt, hreservation, _⟩ := hopens.reservation hguard
      rw [GatePhase.reservation, hreservation, Option.some_inj] at hheld
      rw [hmatch.key, ← hheld]
  | _ => contradiction

/-- A request under way has not ended in any way. -/
theorem GateHistory.not_retryable_of_held (hguard : cfg.nonceGuard = some guard)
    (hhist : GateHistory rt cfg req phase trace) {handle : PaymentNonceReservation}
    (hheld : phase.reservation = some handle) : ¬Retryable trace := by
  cases hhist with
  | verifying _ _ hmatch hopens | handling _ _ _ hmatch hopens
  | settling _ _ _ _ hmatch hopens =>
      obtain ⟨generation, reservedAt, hreservation, rfl⟩ := hopens.reservation hguard
      simp_all [Retryable, settleTrace, handlerTrace, verifyTrace]
  | _ => contradiction

/-- Whoever lets go of a reservation that is retained is over, and may have been
charged. -/
theorem GateHistory.ended_of_retain (hguard : cfg.nonceGuard = some guard)
    (hhist : GateHistory rt cfg req phase trace) {handle : PaymentNonceReservation}
    {now : Instant} (hdropped : .guard (.dropped handle now) ∈ trace)
    (hretain : handle.retain = true) : phase = .ended ∧ ¬Retryable trace := by
  cases hhist with
  | arrived => simp at hdropped
  | unverified events hends => exact absurd hdropped (hends.dropped_notMem handle now)
  | verifying _ _ hmatch hopens | verifyCancelled _ _ _ hmatch hopens
  | rejected _ _ _ _ _ hmatch hopens | handling _ _ _ hmatch hopens
  | handlerCancelled _ _ _ _ hmatch hopens | failed _ _ _ _ _ hmatch hopens
  | settling _ _ _ _ hmatch hopens | settleCancelled _ _ _ _ _ hmatch hopens
  | settled _ _ _ _ _ _ hmatch hopens =>
      obtain ⟨generation, reservedAt, hreservation, rfl⟩ := hopens.reservation hguard
      simp_all [settleTrace, handlerTrace, verifyTrace, closing, Retryable]

end Requests

/-- The steps of the request with the key itself: what it holds is stored, and
what it lets go of is free again or retained. -/
theorem GuardEffect.owns {guard : PaymentNonceReplayGuard} {clock : MonotonicClock}
    {key : String} {store store' : NonceStore} {now reserveAt : Instant}
    {held held' : Option PaymentNonceReservation} {events : List GuardEvent}
    (heffect : GuardEffect guard clock (some key) store now reserveAt held held'
      store' events)
    (hheld : ∀ handle, held = some handle → handle.key = key ∧ handle.Stored store ∧
      ∀ deadline, toLex (deadline, key) ∉ store.expirations)
    (hfree : held = none → KeyFree store key) :
    (∀ handle, held' = some handle → handle.Stored store' ∧
      ∀ deadline, toLex (deadline, key) ∉ store'.expirations) ∧
    (held' = none → KeyFree store' key ∨
      ∃ handle, handle.retain = true ∧ .dropped handle now ∈ events) := by
  cases heffect with
  | idle =>
      exact ⟨fun handle h => (hheld handle h).2, fun h => Or.inl (hfree h)⟩
  | retained handle =>
      refine ⟨?_, nofun⟩
      rintro _ ⟨⟩
      exact (hheld handle rfl).2
  | reserved own hkey =>
      cases hkey
      refine ⟨?_, nofun⟩
      rintro _ ⟨⟩
      exact ⟨NonceStore.lookup_occupy_self _ _,
        unrecorded_expire (hfree rfl).2 reserveAt⟩
  | refused => exact ⟨nofun, fun _ => Or.inl ((hfree rfl).expire reserveAt)⟩
  | letGo handle flag =>
      refine ⟨nofun, fun _ => ?_⟩
      obtain ⟨rfl, hstored, hrecord⟩ := hheld handle rfl
      cases flag with
      | true => exact Or.inr ⟨_, rfl, List.mem_cons_self⟩
      | false =>
          left
          have hstored' : { handle with retain := false }.Stored store := hstored
          have hdrop : guard.drop clock store { handle with retain := false } now =
              store.remove handle.key := by
            simp [PaymentNonceReplayGuard.drop, hstored']
          rw [hdrop]
          refine ⟨?_, hrecord⟩
          rw [← Finmap.lookup_eq_none]
          exact NonceStore.lookup_remove_self _ _

/-- A request that has ended does nothing more. -/
theorem systemMove_ended (sys : GateSystem) {state : SystemState}
    {action : SystemAction} (hended : state.phases action.request = .ended) :
    systemMove sys state action = ((state.world, .ended), []) := by
  simp [systemMove, hended, gateStep]

/-- What the guard knows of the key of a request, from its arrival on, while no
other request has that key. -/
structure KeyOwned (sys : GateSystem) (i : ℕ) (key : String) (state : SystemState)
    (events : List SystemEvent) : Prop where
  held : ∀ handle, (state.phases i).reservation = some handle →
    handle.Stored state.world.store ∧
      ∀ deadline, toLex (deadline, key) ∉ state.world.store.expirations
  free : (state.phases i).reservation = none →
    KeyFree state.world.store key ∨
      (state.phases i = .ended ∧ ¬Retryable (traceOf i events))

namespace KeyOwned

variable {sys : GateSystem} {i : ℕ} {key : String} {prior : List GuardEvent}
  {state : SystemState} {events : List SystemEvent}

theorem held_key (hinv : SystemInvariant sys prior state events)
    (hkey : sys.key i = some key) {handle : PaymentNonceReservation}
    (hheld : (state.phases i).reservation = some handle) : handle.key = key := by
  have hown : sys.key i = some handle.key := (hinv.histories i).held_key rfl hheld
  rw [hkey, Option.some_inj] at hown
  exact hown.symm

theorem step_other (howned : KeyOwned sys i key state events)
    (hinv : SystemInvariant sys prior state events) (hkey : sys.key i = some key)
    {action : SystemAction} (hne : action.request ≠ i)
    (hother : sys.key action.request ≠ some key) :
    KeyOwned sys i key ((systemMachine sys).step state action).1
      (events ++ ((systemMachine sys).step state action).2) := by
  obtain ⟨reserveAt, _, heffect⟩ := systemMove_effect sys state action
  have hforeign : ∀ handle, (state.phases action.request).reservation = some handle →
      handle.key ≠ key := by
    rintro handle hheld rfl
    exact hother ((hinv.histories action.request).held_key rfl hheld)
  have hphase : ((systemMachine sys).step state action).1.phases i =
      state.phases i := Function.update_of_ne (Ne.symm hne) _ _
  have htrace : traceOf i (events ++ ((systemMachine sys).step state action).2) =
      traceOf i events := by
    rw [traceOf_append]
    simp only [systemMachine, traceOf_stamp_of_ne hne, List.append_nil]
  constructor
  · intro handle hheld
    rw [hphase] at hheld
    obtain ⟨hstored, hrecord⟩ := howned.held handle hheld
    obtain ⟨hlookup, hrecord'⟩ := heffect.frame hother hforeign hrecord
    refine ⟨?_, hrecord'⟩
    rw [PaymentNonceReservation.Stored, held_key hinv hkey hheld] at hstored ⊢
    exact hlookup.trans hstored
  · intro hnone
    rw [hphase] at hnone ⊢
    rw [htrace]
    refine (howned.free hnone).imp_left fun hfree => ?_
    obtain ⟨hlookup, hrecord'⟩ := heffect.frame hother hforeign hfree.2
    refine ⟨?_, hrecord'⟩
    rw [← Finmap.lookup_eq_none]
    exact hlookup.trans (Finmap.lookup_eq_none.mpr hfree.1)

theorem step_self (howned : KeyOwned sys i key state events)
    (hinv : SystemInvariant sys prior state events) (hkey : sys.key i = some key)
    {action : SystemAction} (hself : action.request = i) :
    KeyOwned sys i key ((systemMachine sys).step state action).1
      (events ++ ((systemMachine sys).step state action).2) := by
  subst hself
  have htrace : traceOf action.request
      (events ++ ((systemMachine sys).step state action).2) =
      traceOf action.request events ++ (systemMove sys state action).2 := by
    rw [traceOf_append]
    simp only [systemMachine, traceOf_stamp_self]
  have hphase : ((systemMachine sys).step state action).1.phases action.request =
      (systemMove sys state action).1.2 := Function.update_self _ _ _
  have hhist := (hinv.step action).histories action.request
  rw [htrace, hphase] at hhist
  by_cases hended : state.phases action.request = .ended
  · have hmove := systemMove_ended sys hended
    constructor
    · intro handle hheld
      rw [hphase, hmove] at hheld
      contradiction
    · intro _
      have hfree := howned.free (by rw [hended]; rfl)
      have hstore : ((systemMachine sys).step state action).1.world.store =
          state.world.store := by simp only [systemMachine, hmove]
      rw [htrace, hphase, hmove, hstore, List.append_nil]
      exact hfree.imp_right fun hover => ⟨rfl, hover.2⟩
  · obtain ⟨reserveAt, _, heffect⟩ := systemMove_effect sys state action
    rw [hkey] at heffect
    obtain ⟨hheld, hfree⟩ := heffect.owns
      (fun handle hheld => ⟨held_key hinv hkey hheld, howned.held handle hheld⟩)
      (fun hnone => (howned.free hnone).resolve_right fun hover => hended hover.1)
    constructor
    · intro handle hheld'
      rw [hphase] at hheld'
      exact hheld handle hheld'
    · intro hnone
      rw [hphase] at hnone
      rw [htrace, hphase]
      refine (hfree hnone).imp_right ?_
      rintro ⟨handle, hretain, hdropped⟩
      exact hhist.ended_of_retain rfl
        (List.mem_append_right _ (mem_guardEvents.mp hdropped)) hretain

theorem step (howned : KeyOwned sys i key state events)
    (hinv : SystemInvariant sys prior state events) (hkey : sys.key i = some key)
    {action : SystemAction}
    (hother : action.request ≠ i → sys.key action.request ≠ some key) :
    KeyOwned sys i key ((systemMachine sys).step state action).1
      (events ++ ((systemMachine sys).step state action).2) := by
  by_cases hself : action.request = i
  · exact howned.step_self hinv hkey hself
  · exact howned.step_other hinv hkey hself (hother hself)

theorem run (hinv : SystemInvariant sys prior state events)
    (hkey : sys.key i = some key) {actions : List SystemAction}
    (hothers : ∀ action ∈ actions,
      action.request ≠ i → sys.key action.request ≠ some key)
    (howned : KeyOwned sys i key state events) :
    let run := (systemMachine sys).run state actions
    SystemInvariant sys prior run.1 (events ++ run.2) ∧
      KeyOwned sys i key run.1 (events ++ run.2) := by
  induction actions generalizing state events with
  | nil =>
      simp only [Machine.run_nil, List.append_nil]
      exact ⟨hinv, howned⟩
  | cons action rest ih =>
      obtain ⟨hother, hrest⟩ := List.forall_mem_cons.mp hothers
      have hnext := ih (hinv.step action) hrest (howned.step hinv hkey hother)
      simp only [List.append_assoc] at hnext
      exact hnext

/-- A request that arrives with a key the guard does not hold. -/
theorem arrived (hinv : SystemInvariant sys prior state events)
    (harrived : state.phases i = .arrived)
    (hnew : key ∉ state.world.store.entries) : KeyOwned sys i key state events where
  held handle hheld := by
    rw [harrived] at hheld
    contradiction
  free _ := by
    left
    refine ⟨hnew, fun deadline hmem => ?_⟩
    obtain ⟨handles, hprotects, _⟩ := hinv.guarded
    obtain ⟨entry, hentry, _⟩ := hprotects.invariant.record_entry deadline key hmem
    exact hnew (Finmap.mem_of_lookup_eq_some hentry)

theorem keyFree_of_retryable (howned : KeyOwned sys i key state events)
    (hinv : SystemInvariant sys prior state events)
    (hretryable : Retryable (traceOf i events)) :
    KeyFree state.world.store key := by
  cases hheld : (state.phases i).reservation with
  | some handle =>
      exact absurd hretryable ((hinv.histories i).not_retryable_of_held rfl hheld)
  | none =>
      exact (howned.free hheld).resolve_right fun hover => hover.2 hretryable

end KeyOwned

/-- What a failed request and a refused reserve leave behind, from a state on. -/
structure ReleaseSafe (sys : GateSystem) (state : SystemState) : Prop where
  released : ∀ i key actions, sys.key i = some key → state.phases i = .arrived →
    key ∉ state.world.store.entries →
    (∀ action ∈ actions, action.request ≠ i → sys.key action.request ≠ some key) →
    let run := (systemMachine sys).run state actions
    Retryable (traceOf i run.2) →
      KeyFree run.1.world.store key ∧ Reservable sys.guard run.1.world.store key
  rejected : ∀ key now error store,
    sys.guard.reserveKey state.world.store key now = (.error error, store) →
    SweptTo state.world.store now store

theorem traceOf_of_arrived {sys : GateSystem} {prior : List GuardEvent}
    {state : SystemState} {events : List SystemEvent} {i : ℕ}
    (hinv : SystemInvariant sys prior state events)
    (harrived : state.phases i = .arrived) : traceOf i events = [] := by
  have hhist := hinv.histories i
  rw [harrived] at hhist
  generalize traceOf i events = trace at hhist
  cases hhist
  rfl

/-- A request that fails before it is charged leaves its key free for the next
attempt, whatever the requests with other keys do meanwhile. -/
theorem systemMachine_release_safe (sys : GateSystem) (calls : List GuardCall)
    (metrics : PaymentMetrics) (clock : Instant) (before : List SystemAction) :
    let reached := (callMachine sys.guard sys.rt.clock).run GuardState.initial calls
    ReleaseSafe sys ((systemMachine sys).run
      (.start ⟨reached.1.store, metrics⟩ clock) before).1 := by
  intro reached
  have hinv := systemMachine_run_invariant sys calls metrics clock before
  constructor
  · intro i key actions hkey harrived hnew hothers run hretryable
    obtain ⟨hinv', howned⟩ :=
      KeyOwned.run hinv hkey hothers (KeyOwned.arrived hinv harrived hnew)
    have htrace := traceOf_of_arrived hinv harrived
    have hfree := howned.keyFree_of_retryable hinv'
      (by rwa [traceOf_append, htrace, List.nil_append])
    exact ⟨hfree, hfree.reservable sys.guard⟩
  · intro key now error store hrefused
    exact sweptTo_of_reserveKey_error sys.guard hrefused

end KiteX402
