/-
No authorization is admitted twice: from a successful reservation on, every
reserve of the same key is answered with a replay until the reservation is
given back, or has been retained for the whole ttl.
-/
import KiteX402.NonceGuardStatus

namespace KiteX402

/-- The key and the time of an attempt to reserve. -/
def GuardEvent.attempt : GuardEvent → Option (String × Instant)
  | .reserved key now _ => some (key, now)
  | .refused key now _ => some (key, now)
  | .dropped _ _ => none
  | .cleared => none

/-- The handle of `generation` was dropped without retaining. -/
def GivenBack (generation : Generation) (events : List GuardEvent) : Prop :=
  ∃ handle now, .dropped handle now ∈ events ∧
    handle.generation = generation ∧ handle.retain = false

/-- The handle of `generation` was dropped with its flag set, and a reserve of
any key has come since, the whole ttl later. -/
def RetainedFor (ttl : Duration) (generation : Generation)
    (events : List GuardEvent) : Prop :=
  ∃ before handle dropped after,
    events = before ++ .dropped handle dropped :: after ∧
    handle.generation = generation ∧ handle.retain = true ∧
    ∃ event ∈ after, ∃ key now, event.attempt = some (key, now) ∧
      dropped + ttl ≤ now

/-- The reservation `generation` is over by the end of `events`. -/
def ReservationOver (ttl : Duration) (generation : Generation)
    (events : List GuardEvent) : Prop :=
  GivenBack generation events ∨ RetainedFor ttl generation events

/-- Every attempt to reserve a key that was reserved before is a replay, unless
that reservation is over, the attempt itself included, or the guard has been
cleared since. -/
def ReplayProtected (ttl : Duration) (events : List GuardEvent) : Prop :=
  ∀ before key reservedAt generation middle event after now,
    events = before ++
      .reserved key reservedAt generation :: (middle ++ event :: after) →
    .cleared ∉ middle → event.attempt = some (key, now) →
    event = .refused key now (.replayDetected key) ∨
      ReservationOver ttl generation (middle ++ [event])

theorem ReservationOver.append {ttl : Duration} {generation : Generation}
    {events : List GuardEvent} (hover : ReservationOver ttl generation events)
    (more : List GuardEvent) :
    ReservationOver ttl generation (events ++ more) := by
  rcases hover with ⟨handle, now, hmem, hgen, hretain⟩ |
    ⟨before, handle, dropped, after, rfl, hgen, hretain, event, hevent, hdue⟩
  · exact Or.inl ⟨handle, now, List.mem_append_left _ hmem, hgen, hretain⟩
  · refine Or.inr ⟨before, handle, dropped, after ++ more, by simp, hgen,
      hretain, event, List.mem_append_left _ hevent, hdue⟩

/-- A reservation is over only after its handle has been dropped. -/
theorem ReservationOver.dropped {ttl : Duration} {generation : Generation}
    {events : List GuardEvent} (hover : ReservationOver ttl generation events) :
    ∃ handle now, .dropped handle now ∈ events ∧
      handle.generation = generation := by
  rcases hover with ⟨handle, now, hmem, hgen, _⟩ |
    ⟨before, handle, dropped, after, rfl, hgen, _⟩
  · exact ⟨handle, now, hmem, hgen⟩
  · exact ⟨handle, dropped, by simp, hgen⟩

/-- What the store holds for a reservation that is not over: its entry, and no
record but the one its retaining drop wrote. -/
structure Held (ttl : Duration) (store : NonceStore) (key : String)
    (generation : Generation) (events : List GuardEvent) : Prop where
  entry : store.entries.lookup key = some ⟨generation⟩
  record : ∀ deadline, toLex (deadline, key) ∈ store.expirations →
    ∃ handle dropped, .dropped handle dropped ∈ events ∧
      handle.generation = generation ∧ handle.retain = true ∧
      deadline = dropped + ttl

namespace Held

variable {guard : PaymentNonceReplayGuard} {store : NonceStore} {key : String}
  {generation : Generation} {events : List GuardEvent}

theorem append {ttl : Duration} (hheld : Held ttl store key generation events)
    (more : List GuardEvent) :
    Held ttl store key generation (events ++ more) where
  entry := hheld.entry
  record deadline hmem := by
    obtain ⟨handle, dropped, hevent, hrest⟩ := hheld.record deadline hmem
    exact ⟨handle, dropped, List.mem_append_left _ hevent, hrest⟩

/-- The sweep of an attempt takes the entry only if its ttl has passed. -/
theorem expire {ttl : Duration} (hheld : Held ttl store key generation events)
    {event : GuardEvent} {other : String} {now : Instant}
    (hattempt : event.attempt = some (other, now)) :
    Held ttl (store.expire now) key generation (events ++ [event]) ∨
      RetainedFor ttl generation (events ++ [event]) := by
  by_cases hswept : ∃ pair ∈ store.toExpiryStore.swept now 64, (ofLex pair).2 = key
  · right
    obtain ⟨pair, hpair, rfl⟩ := hswept
    have hdue := ExpiryStore.due_of_mem_swept pair hpair
    obtain ⟨handle, dropped, hmem, hgen, hretain, hdeadline⟩ :=
      hheld.record (ofLex pair).1 (ExpiryStore.swept_subset now 64 _ hpair)
    obtain ⟨before, after, rfl⟩ := List.append_of_mem hmem
    refine ⟨before, handle, dropped, after ++ [event], by simp, hgen, hretain,
      event, by simp, other, now, hattempt, ?_⟩
    rw [← hdeadline]
    exact hdue
  · left
    have hkept : ∀ pair ∈ store.toExpiryStore.swept now 64, (ofLex pair).2 ≠ key :=
      fun pair hpair hkey => hswept ⟨pair, hpair, hkey⟩
    refine ⟨?_, fun deadline hmem => ?_⟩
    · rw [← hheld.entry]
      exact ExpiryStore.lookup_sweep_of_notMem_swept hkept
    · exact (hheld.append [event]).record deadline
        (ExpiryStore.sweep_expirations_subset now 64 _ hmem)

theorem occupy {ttl : Duration} (hheld : Held ttl store key generation events)
    {other : String} (hother : other ∉ store.entries) :
    Held ttl (store.occupy other) key generation events where
  entry := by
    have hne : key ≠ other := by
      rintro rfl
      exact hother (Finmap.mem_of_lookup_eq_some hheld.entry)
    rw [NonceStore.lookup_occupy_of_ne hne]
    exact hheld.entry
  record := hheld.record

/-- The drop of a handle gives the entry back, or leaves it held. -/
theorem drop (hheld : Held guard.ttl store key generation events)
    (clock : MonotonicClock) (handle : PaymentNonceReservation) (now : Instant) :
    Held guard.ttl (guard.drop clock store handle now) key generation
        (events ++ [.dropped handle now]) ∨
      GivenBack generation (events ++ [.dropped handle now]) := by
  have hheld' := hheld.append [.dropped handle now]
  have hown : handle.Stored store → key = handle.key →
      handle.generation = generation := by
    intro hstored hkey
    rw [PaymentNonceReservation.Stored, ← hkey, hheld.entry, Option.some_inj,
      NonceEntry.mk.injEq] at hstored
    exact hstored.symm
  rcases guard.drop_cases clock store handle now with
    ⟨_, hdrop⟩ | ⟨hstored, hretain, hdrop⟩ | ⟨_, _, _, hdrop⟩ |
      ⟨deadline, hstored, hretain, hadd, hdrop⟩ <;> rw [hdrop]
  · exact Or.inl hheld'
  · by_cases hkey : key = handle.key
    · exact Or.inr ⟨handle, now, by simp, hown hstored hkey, hretain⟩
    · refine Or.inl ⟨?_, hheld'.record⟩
      rw [NonceStore.lookup_remove_of_ne hkey]
      exact hheld.entry
  · exact Or.inl hheld'
  · refine Or.inl ⟨hheld.entry, fun due hmem => ?_⟩
    rcases NonceStore.mem_retainUntil_expirations.mp hmem with ⟨rfl, hkey⟩ | hmem
    · exact ⟨handle, now, by simp, hown hstored hkey, hretain,
        MonotonicClock.checkedAdd_eq_some hadd⟩
    · exact hheld'.record due hmem

end Held

/-- Each reservation of the trace is over, or held by the store, or was made
before a `clear`. -/
def ReservationsHeld (ttl : Duration) (store : NonceStore)
    (events : List GuardEvent) : Prop :=
  ∀ before key reservedAt generation since,
    events = before ++ .reserved key reservedAt generation :: since →
    .cleared ∉ since →
    Held ttl store key generation since ∨ ReservationOver ttl generation since

/-- What one more event does to a reservation made before it. -/
theorem ReservationsHeld.concat {ttl : Duration} {store store' : NonceStore}
    {events : List GuardEvent} (hheld : ReservationsHeld ttl store events)
    {last : GuardEvent}
    (hnew : ∀ key now generation, last = .reserved key now generation →
      Held ttl store' key generation [])
    (hkeep : ∀ key generation since, last ≠ .cleared →
      Held ttl store key generation since →
      Held ttl store' key generation (since ++ [last]) ∨
        ReservationOver ttl generation (since ++ [last])) :
    ReservationsHeld ttl store' (events ++ [last]) := by
  intro before key reservedAt generation since hevents hclear
  rcases concat_eq_split hevents with ⟨_, hlast, rfl⟩ | ⟨rest, rfl, hsplit⟩
  · exact Or.inl (hnew key reservedAt generation hlast.symm)
  · rw [List.mem_append, not_or] at hclear
    have hne : last ≠ .cleared := fun h => hclear.2 (by simp [h])
    rcases hheld before key reservedAt generation rest hsplit hclear.1 with
      hrest | hover
    · exact hkeep key generation rest hne hrest
    · exact Or.inr (hover.append [last])

theorem ReplayProtected.concat {ttl : Duration} {events : List GuardEvent}
    (hprotected : ReplayProtected ttl events) {last : GuardEvent}
    (hlast : ∀ before key reservedAt generation middle now,
      events = before ++ .reserved key reservedAt generation :: middle →
      .cleared ∉ middle → last.attempt = some (key, now) →
      last = .refused key now (.replayDetected key) ∨
        ReservationOver ttl generation (middle ++ [last])) :
    ReplayProtected ttl (events ++ [last]) := by
  intro before key reservedAt generation middle event after now hevents hclear
    hattempt
  have hsplit : events ++ [last] =
      (before ++ .reserved key reservedAt generation :: middle) ++
        event :: after := by
    simpa using hevents
  rcases concat_eq_split hsplit with ⟨hbefore, rfl, _⟩ | ⟨rest, rfl, hrest⟩
  · exact hlast before key reservedAt generation middle now hbefore.symm hclear
      hattempt
  · exact hprotected before key reservedAt generation middle event rest now
      (by simpa using hrest) hclear hattempt

/-- The invariant behind the replay protection. -/
structure GuardProtects (guard : PaymentNonceReplayGuard) (state : GuardState)
    (events : List GuardEvent) : Prop where
  invariant : GuardInvariant guard state.store state.handles
  held : ReservationsHeld guard.ttl state.store events
  replays : ReplayProtected guard.ttl events

section Runs

variable (guard : PaymentNonceReplayGuard) (clock : MonotonicClock)

theorem GuardProtects.initial : GuardProtects guard GuardState.initial [] where
  invariant := GuardInvariant.initial guard
  held before key reservedAt generation since h := by simp at h
  replays before key reservedAt generation middle event after now h := by
    simp at h

/-- An event that is no attempt cannot break the protection. -/
theorem ReplayProtected.concat_of_attempt_eq_none {ttl : Duration}
    {events : List GuardEvent} (hprotected : ReplayProtected ttl events)
    {last : GuardEvent} (hlast : last.attempt = none) :
    ReplayProtected ttl (events ++ [last]) := by
  apply hprotected.concat
  intro before key reservedAt generation middle now _ _ hattempt
  rw [hlast] at hattempt
  contradiction

theorem GuardProtects.step_held {state : GuardState} {events : List GuardEvent}
    (hprotects : GuardProtects guard state events) (action : GuardAction) :
    ReservationsHeld guard.ttl ((guardMachine guard clock).step state action).1.store
      (events ++ ((guardMachine guard clock).step state action).2) := by
  have hinv := hprotects.invariant
  rcases guardMachine_step_cases guard clock state action with
    ⟨key, now, hkey, _, _, heq⟩ | ⟨key, now, error, _, _, heq⟩ |
      ⟨handle, _, _, heq⟩ | ⟨handle, _, retain, now, _, heq⟩ |
      ⟨_, heq⟩ | heq <;> rw [heq]
  · have hattempt : (GuardEvent.reserved key now state.store.allocated).attempt =
        some (key, now) := rfl
    apply hprotects.held.concat
    · intro other reservedAt generation hevent
      cases hevent
      refine ⟨NonceStore.lookup_occupy_self _ _, fun deadline hmem => ?_⟩
      obtain ⟨entry, hentry, _⟩ :=
        (hinv.expire now).record_entry deadline key hmem
      exact absurd (Finmap.mem_of_lookup_eq_some hentry) hkey
    · intro other generation since _ hheld
      rcases hheld.expire hattempt with hheld | hover
      · exact Or.inl (hheld.occupy hkey)
      · exact Or.inr (Or.inr hover)
  · have hattempt : (GuardEvent.refused key now error).attempt =
        some (key, now) := rfl
    apply hprotects.held.concat
    · intro other reservedAt generation hevent
      cases hevent
    · intro other generation since _ hheld
      exact (hheld.expire hattempt).imp_right Or.inr
  · simpa using hprotects.held
  · apply hprotects.held.concat
    · intro other reservedAt generation hevent
      cases hevent
    · intro other generation since _ hheld
      exact (hheld.drop clock { handle with retain := retain } now).imp_right
        Or.inl
  · apply hprotects.held.concat
    · intro other reservedAt generation hevent
      cases hevent
    · intro other generation since hne
      exact absurd rfl hne
  · simpa using hprotects.held

/-- After the sweep of an attempt on a key reserved before, the key is still
occupied, or its reservation is over. -/
theorem GuardProtects.mem_expire {state : GuardState} {events : List GuardEvent}
    (hprotects : GuardProtects guard state events)
    {before middle : List GuardEvent} {key : String} {reservedAt now : Instant}
    {generation : Generation} {last : GuardEvent}
    (hevents : events = before ++ .reserved key reservedAt generation :: middle)
    (hclear : .cleared ∉ middle) (hattempt : last.attempt = some (key, now)) :
    key ∈ (state.store.expire now).entries ∨
      ReservationOver guard.ttl generation (middle ++ [last]) := by
  rcases hprotects.held before key reservedAt generation middle hevents hclear with
    hheld | hover
  · rcases hheld.expire hattempt with hheld | hover
    · exact Or.inl (Finmap.mem_of_lookup_eq_some hheld.entry)
    · exact Or.inr (Or.inr hover)
  · exact Or.inr (hover.append [last])

theorem GuardProtects.step_replays {state : GuardState}
    {events : List GuardEvent} (hprotects : GuardProtects guard state events)
    (action : GuardAction) :
    ReplayProtected guard.ttl
      (events ++ ((guardMachine guard clock).step state action).2) := by
  rcases guardMachine_step_cases guard clock state action with
    ⟨key, now, hkey, _, _, heq⟩ | ⟨key, now, error, _, herror, heq⟩ |
      ⟨handle, _, _, heq⟩ | ⟨handle, _, retain, now, _, heq⟩ |
      ⟨_, heq⟩ | heq <;> rw [heq]
  · apply hprotects.replays.concat
    intro before other reservedAt generation middle at_ hevents hclear hattempt
    have hsame : some (key, now) = some (other, at_) := hattempt
    cases hsame
    rcases hprotects.mem_expire guard hevents hclear hattempt with hmem | hover
    · exact absurd hmem hkey
    · exact Or.inr hover
  · apply hprotects.replays.concat
    intro before other reservedAt generation middle at_ hevents hclear hattempt
    have hsame : some (key, now) = some (other, at_) := hattempt
    cases hsame
    rcases hprotects.mem_expire guard hevents hclear hattempt with hmem | hover
    · rcases herror with ⟨_, rfl⟩ | ⟨hnot, _⟩
      · exact Or.inl rfl
      · exact absurd hmem hnot
    · exact Or.inr hover
  · simpa using hprotects.replays
  · exact hprotects.replays.concat_of_attempt_eq_none rfl
  · exact hprotects.replays.concat_of_attempt_eq_none rfl
  · simpa using hprotects.replays

theorem GuardProtects.step {state : GuardState} {events : List GuardEvent}
    (hprotects : GuardProtects guard state events) (action : GuardAction) :
    GuardProtects guard ((guardMachine guard clock).step state action).1
      (events ++ ((guardMachine guard clock).step state action).2) where
  invariant := guardMachine_step_invariant guard clock state action
    hprotects.invariant
  held := hprotects.step_held guard clock action
  replays := hprotects.step_replays guard clock action

theorem guardMachine_run_protects (actions : List GuardAction) :
    GuardProtects guard
      ((guardMachine guard clock).run GuardState.initial actions).1
      ((guardMachine guard clock).run GuardState.initial actions).2 :=
  (guardMachine guard clock).run_induction (P := GuardProtects guard)
    (GuardProtects.initial guard)
    (fun _ _ action hprotects => hprotects.step guard clock action) actions

theorem callMachine_run_protects (calls : List GuardCall) :
    GuardProtects guard
      ((callMachine guard clock).run GuardState.initial calls).1
      ((callMachine guard clock).run GuardState.initial calls).2 := by
  obtain ⟨actions, heq⟩ :=
    (guardMachine_expands guard clock).run_eq GuardState.initial calls
  rw [heq]
  exact guardMachine_run_protects guard clock actions

end Runs

/-- What takes the entry `generation` away from `key`: a reset, the owner of
its handle, or an admission that comes once its record is due. -/
def GuardCall.CanRemove (state : GuardState) (key : String)
    (generation : Generation) : GuardCall → Prop
  | .action (.reserveKey _ now) | .checkAndRecord _ now _ =>
      liveHandles state.handles generation = 0 ∧
        ∃ deadline ≤ now, toLex (deadline, key) ∈ state.store.expirations
  | .action (.retainOnDrop _) => False
  | .action (.release handle _) =>
      handle ∈ state.handles ∧ handle.generation = generation
  | .action (.drop handle _) =>
      handle ∈ state.handles ∧ handle.generation = generation ∧
        handle.retain = false
  | .action .clear => True

theorem lookup_expire_of_not_due {guard : PaymentNonceReplayGuard}
    {store : NonceStore} {handles : List PaymentNonceReservation}
    (hinv : GuardInvariant guard store handles) {key : String}
    {entry : NonceEntry} (hentry : store.entries.lookup key = some entry)
    {now : Instant}
    (hnot : ¬(liveHandles handles entry.generation = 0 ∧
      ∃ deadline ≤ now, toLex (deadline, key) ∈ store.expirations)) :
    (store.expire now).entries.lookup key = some entry := by
  rw [← hentry]
  apply ExpiryStore.lookup_sweep_of_notMem_swept
  rintro pair hpair rfl
  have hmem := ExpiryStore.swept_subset now 64 _ hpair
  obtain ⟨other, hother, hsettled⟩ :=
    hinv.record_entry (ofLex pair).1 (ofLex pair).2 hmem
  rw [hentry, Option.some_inj] at hother
  subst hother
  exact hnot ⟨liveHandles_eq_zero hsettled, (ofLex pair).1,
    ExpiryStore.due_of_mem_swept pair hpair, hmem⟩

theorem lookup_occupy_of_lookup {store : NonceStore} {key other : String}
    {entry : NonceEntry} (hentry : store.entries.lookup key = some entry)
    (hother : other ∉ store.entries) :
    (store.occupy other).entries.lookup key = some entry := by
  have hne : key ≠ other := by
    rintro rfl
    exact hother (Finmap.mem_of_lookup_eq_some hentry)
  rw [NonceStore.lookup_occupy_of_ne hne]
  exact hentry

/-- The drop of a handle takes no entry but its own, and that only when the
flag is not set. -/
theorem lookup_drop_of_lookup (guard : PaymentNonceReplayGuard)
    (clock : MonotonicClock) {store : NonceStore} {key : String}
    {entry : NonceEntry} (hentry : store.entries.lookup key = some entry)
    {handle : PaymentNonceReservation}
    (hnot : ¬(handle.generation = entry.generation ∧ handle.retain = false))
    (now : Instant) :
    (guard.drop clock store handle now).entries.lookup key = some entry := by
  rcases guard.drop_cases clock store handle now with
    ⟨_, hdrop⟩ | ⟨hstored, hretain, hdrop⟩ | ⟨_, _, _, hdrop⟩ |
      ⟨deadline, _, _, _, hdrop⟩ <;> rw [hdrop]
  · exact hentry
  · have hne : key ≠ handle.key := by
      rintro rfl
      rw [PaymentNonceReservation.Stored, hentry, Option.some_inj] at hstored
      exact hnot ⟨by rw [hstored], hretain⟩
    rw [NonceStore.lookup_remove_of_ne hne]
    exact hentry
  · exact hentry
  · exact hentry

theorem lookup_callStep_of_lookup (guard : PaymentNonceReplayGuard)
    (clock : MonotonicClock) {state : GuardState}
    (hinv : GuardInvariant guard state.store state.handles) {key : String}
    {entry : NonceEntry}
    (hentry : state.store.entries.lookup key = some entry) {call : GuardCall}
    (hnot : ¬call.CanRemove state key entry.generation) :
    (callStep guard clock state call).1.store.entries.lookup key =
      some entry := by
  cases call with
  | action action =>
      cases action with
      | reserveKey other now =>
          have hexpire := lookup_expire_of_not_due hinv hentry hnot
          rcases guard.reserveKey_cases state.store other now with
            ⟨_, heq⟩ | ⟨_, _, heq⟩ | ⟨hother, _, heq⟩ <;>
            simp only [callStep, GuardState.step, heq]
          · exact hexpire
          · exact hexpire
          · exact lookup_occupy_of_lookup hexpire hother
      | retainOnDrop handle =>
          simp only [callStep, GuardState.step]
          split <;> exact hentry
      | release handle now =>
          simp only [callStep, GuardState.step]
          split
          next hlive =>
            apply lookup_drop_of_lookup guard clock hentry
            exact fun h => hnot ⟨hlive, h.1⟩
          next => exact hentry
      | drop handle now =>
          simp only [callStep, GuardState.step]
          split
          next hlive =>
            apply lookup_drop_of_lookup guard clock hentry
            exact fun h => hnot ⟨hlive, h⟩
          next => exact hentry
      | clear => exact absurd trivial hnot
  | checkAndRecord nonce now ended =>
      have hexpire := lookup_expire_of_not_due hinv hentry hnot
      rcases guard.reserveKey_cases state.store nonce now with
        ⟨_, heq⟩ | ⟨_, _, heq⟩ | ⟨hother, _, heq⟩ <;>
        simp only [callStep, PaymentNonceReplayGuard.checkAndRecord, heq]
      · exact hexpire
      · exact hexpire
      · have hretain : ¬(state.store.allocated = entry.generation ∧
            true = false) := by simp
        exact lookup_drop_of_lookup guard clock
          (lookup_occupy_of_lookup hexpire hother) hretain ended

/-- The replay protection of a guard: how attempts are answered, and what it
takes to lose an entry. -/
structure ReplayGuarantee (guard : PaymentNonceReplayGuard)
    (clock : MonotonicClock) (state : GuardState) (events : List GuardEvent) :
    Prop where
  replays : ReplayProtected guard.ttl events
  kept : ∀ key entry, state.store.entries.lookup key = some entry →
    ∀ call : GuardCall, ¬call.CanRemove state key entry.generation →
      (callStep guard clock state call).1.store.entries.lookup key = some entry

/-- No sequence of calls, with any timestamps, has an authorization admitted
twice before its reservation is over, or loses an entry before it is due. -/
theorem callMachine_replay_guarantee (guard : PaymentNonceReplayGuard)
    (clock : MonotonicClock) (calls : List GuardCall) :
    ReplayGuarantee guard clock
      ((callMachine guard clock).run GuardState.initial calls).1
      ((callMachine guard clock).run GuardState.initial calls).2 where
  replays := (callMachine_run_protects guard clock calls).replays
  kept _ _ hentry _ hnot :=
    lookup_callStep_of_lookup guard clock
      (callMachine_run_protects guard clock calls).invariant hentry hnot

namespace NonceGuardReplayWitness

/-- A full guard still tells a replay from a lack of capacity, and the ttl of a
retained authorization starts at the drop. -/
example :
    ((callMachine (.new 1 1) ⟨100 * nanosPerSec⟩).run GuardState.initial
      [.action (.reserveKey "a" 0),
        .action (.reserveKey "a" 5),
        .action (.reserveKey "b" 5),
        .action (.retainOnDrop ⟨"a", 0, false⟩),
        .action (.drop ⟨"a", 0, true⟩ 7),
        .action (.reserveKey "a" (nanosPerSec + 6)),
        .action (.reserveKey "b" (nanosPerSec + 7))]).2 =
      [.reserved "a" 0 0,
        .refused "a" 5 (.replayDetected "a"),
        .refused "b" 5 .capacityExceeded,
        .dropped ⟨"a", 0, true⟩ 7,
        .refused "a" (nanosPerSec + 6) (.replayDetected "a"),
        .reserved "b" (nanosPerSec + 7) 1] := by
  decide

end NonceGuardReplayWitness

end KiteX402
