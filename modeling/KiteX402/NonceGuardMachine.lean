/-
The replay guard as a machine.  An action is one critical section or one move
of a handle, so its runs are the interleavings of all threads that use the
guard.  The public calls are runs of it: `check_and_record` takes the lock
twice.
-/
import KiteX402.NonceGuardInvariant

namespace KiteX402

/-- The store behind the mutex and the handles that callers still own. -/
structure GuardState where
  store : NonceStore
  handles : List PaymentNonceReservation

inductive GuardAction where
  | reserveKey (key : String) (now : Instant)
  | retainOnDrop (handle : PaymentNonceReservation)
  | release (handle : PaymentNonceReservation) (now : Instant)
  | drop (handle : PaymentNonceReservation) (now : Instant)
  | clear

/-- A dropped handle is reported with its flag as it stood at the drop. -/
inductive GuardEvent where
  | reserved (key : String) (now : Instant) (generation : Generation)
  | refused (key : String) (now : Instant) (error : NonceReplayError)
  | dropped (handle : PaymentNonceReservation) (now : Instant)
  | cleared
deriving DecidableEq

namespace GuardState

def initial : GuardState := ⟨NonceStore.empty, []⟩

variable (guard : PaymentNonceReplayGuard) (clock : MonotonicClock)

/-- The owner of `handle` lets it go with the flag `retain`. -/
def letGo (state : GuardState) (handle : PaymentNonceReservation) (retain : Bool)
    (now : Instant) : GuardState :=
  ⟨guard.drop clock state.store { handle with retain := retain } now,
    state.handles.erase handle⟩

def step (state : GuardState) : GuardAction → GuardState × List GuardEvent
  | .reserveKey key now =>
      match guard.reserveKey state.store key now with
      | (.ok handle, store) =>
          (⟨store, handle :: state.handles⟩, [.reserved key now handle.generation])
      | (.error error, store) =>
          (⟨store, state.handles⟩, [.refused key now error])
  | .retainOnDrop handle =>
      if handle ∈ state.handles then
        (⟨state.store, handle.retainOnDrop :: state.handles.erase handle⟩, [])
      else (state, [])
  | .release handle now =>
      if handle ∈ state.handles then
        (state.letGo guard clock handle false now,
          [.dropped { handle with retain := false } now])
      else (state, [])
  | .drop handle now =>
      if handle ∈ state.handles then
        (state.letGo guard clock handle handle.retain now, [.dropped handle now])
      else (state, [])
  | .clear => (⟨state.store.clear, state.handles⟩, [.cleared])

end GuardState

section Machine

variable (guard : PaymentNonceReplayGuard) (clock : MonotonicClock)

/-- The guard under every interleaving of its critical sections. -/
def guardMachine : Machine GuardState GuardAction GuardEvent :=
  ⟨GuardState.step guard clock⟩

/-- What a step of the guard can be: an admission that succeeds or fails
after its sweep, a handle whose flag is set, a handle let go with either flag,
a reset, or nothing at all. -/
theorem guardMachine_step_cases (state : GuardState) (action : GuardAction) :
    (∃ key now, key ∉ (state.store.expire now).entries ∧
      (state.store.expire now).size < guard.maxCapacity ∧
      action = .reserveKey key now ∧
      (guardMachine guard clock).step state action =
        (⟨(state.store.expire now).occupy key,
          ⟨key, state.store.allocated, false⟩ :: state.handles⟩,
          [.reserved key now state.store.allocated])) ∨
    (∃ key now error, action = .reserveKey key now ∧
      (key ∈ (state.store.expire now).entries ∧ error = .replayDetected key ∨
        key ∉ (state.store.expire now).entries ∧
          guard.maxCapacity ≤ (state.store.expire now).size ∧
          error = .capacityExceeded) ∧
      (guardMachine guard clock).step state action =
        (⟨state.store.expire now, state.handles⟩, [.refused key now error])) ∨
    (∃ handle ∈ state.handles, action = .retainOnDrop handle ∧
      (guardMachine guard clock).step state action =
        (⟨state.store, handle.retainOnDrop :: state.handles.erase handle⟩, [])) ∨
    (∃ handle ∈ state.handles, ∃ retain now,
      (retain = false ∨ retain = handle.retain) ∧
      (guardMachine guard clock).step state action =
        (state.letGo guard clock handle retain now,
          [.dropped { handle with retain := retain } now])) ∨
    (action = .clear ∧ (guardMachine guard clock).step state action =
      (⟨state.store.clear, state.handles⟩, [.cleared])) ∨
    (guardMachine guard clock).step state action = (state, []) := by
  cases action with
  | reserveKey key now =>
      rcases guard.reserveKey_cases state.store key now with
        ⟨hmem, heq⟩ | ⟨hmem, hfull, heq⟩ | ⟨hmem, hroom, heq⟩
      · exact Or.inr (Or.inl ⟨key, now, _, rfl, Or.inl ⟨hmem, rfl⟩, by
          simp [guardMachine, GuardState.step, heq]⟩)
      · exact Or.inr (Or.inl ⟨key, now, _, rfl, Or.inr ⟨hmem, hfull, rfl⟩, by
          simp [guardMachine, GuardState.step, heq]⟩)
      · exact Or.inl ⟨key, now, hmem, hroom, rfl, by
          simp [guardMachine, GuardState.step, heq]⟩
  | retainOnDrop handle =>
      by_cases hlive : handle ∈ state.handles
      · exact Or.inr (Or.inr (Or.inl ⟨handle, hlive, rfl, by
          simp [guardMachine, GuardState.step, hlive]⟩))
      · simp [guardMachine, GuardState.step, hlive]
  | release handle now =>
      by_cases hlive : handle ∈ state.handles
      · exact Or.inr (Or.inr (Or.inr (Or.inl ⟨handle, hlive, false, now,
          Or.inl rfl, by simp [guardMachine, GuardState.step, hlive]⟩)))
      · simp [guardMachine, GuardState.step, hlive]
  | drop handle now =>
      by_cases hlive : handle ∈ state.handles
      · exact Or.inr (Or.inr (Or.inr (Or.inl ⟨handle, hlive, handle.retain, now,
          Or.inr rfl, by simp [guardMachine, GuardState.step, hlive]⟩)))
      · simp [guardMachine, GuardState.step, hlive]
  | clear => exact Or.inr (Or.inr (Or.inr (Or.inr (Or.inl ⟨rfl, rfl⟩))))

theorem guardMachine_step_invariant (state : GuardState) (action : GuardAction)
    (hinv : GuardInvariant guard state.store state.handles) :
    GuardInvariant guard ((guardMachine guard clock).step state action).1.store
      ((guardMachine guard clock).step state action).1.handles := by
  rcases guardMachine_step_cases guard clock state action with
    ⟨key, now, hkey, hroom, _, heq⟩ | ⟨key, now, error, _, _, heq⟩ |
      ⟨handle, hlive, _, heq⟩ | ⟨handle, hlive, retain, now, _, heq⟩ |
      ⟨_, heq⟩ | heq <;> rw [heq]
  · exact (hinv.expire now).occupy hkey hroom
  · exact hinv.expire now
  · exact hinv.retainOnDrop hlive
  · exact hinv.drop clock hlive retain now
  · exact hinv.clear
  · exact hinv

theorem guardMachine_run_invariant (actions : List GuardAction) :
    GuardInvariant guard
      ((guardMachine guard clock).run GuardState.initial actions).1.store
      ((guardMachine guard clock).run GuardState.initial actions).1.handles :=
  (guardMachine guard clock).run_invariant
    (P := fun state => GuardInvariant guard state.store state.handles)
    (GuardInvariant.initial guard)
    (fun state action => guardMachine_step_invariant guard clock state action)
    actions

/-- A call on the public interface of the guard. -/
inductive GuardCall where
  | action (action : GuardAction)
  | checkAndRecord (nonce : String) (now ended : Instant)

/-- One call after another, each run to its end. -/
def callStep (state : GuardState) : GuardCall → GuardState × List GuardEvent
  | .action action => state.step guard clock action
  | .checkAndRecord nonce now ended =>
      let recorded := guard.checkAndRecord clock state.store nonce now ended
      (⟨recorded.2, state.handles⟩,
        match recorded.1 with
        | .ok () =>
            [.reserved nonce now state.store.allocated,
              .dropped ⟨nonce, state.store.allocated, true⟩ ended]
        | .error error => [.refused nonce now error])

def callMachine : Machine GuardState GuardCall GuardEvent :=
  ⟨callStep guard clock⟩

/-- `check_and_record` is a reservation, its flag set, and its drop. -/
theorem guardMachine_expands :
    (guardMachine guard clock).Expands (callMachine guard clock) := by
  intro state call
  cases call with
  | action action =>
      exact ⟨[action], ((guardMachine guard clock).run_singleton state action).symm⟩
  | checkAndRecord nonce now ended =>
      rcases guard.reserveKey_cases state.store nonce now with
        ⟨_, heq⟩ | ⟨_, _, heq⟩ | ⟨_, _, heq⟩
      · refine ⟨[.reserveKey nonce now], ?_⟩
        simp [callMachine, callStep, PaymentNonceReplayGuard.checkAndRecord,
          guardMachine, GuardState.step, heq]
      · refine ⟨[.reserveKey nonce now], ?_⟩
        simp [callMachine, callStep, PaymentNonceReplayGuard.checkAndRecord,
          guardMachine, GuardState.step, heq]
      · refine ⟨[.reserveKey nonce now,
          .retainOnDrop ⟨nonce, state.store.allocated, false⟩,
          .drop ⟨nonce, state.store.allocated, true⟩ ended], ?_⟩
        simp [callMachine, callStep, PaymentNonceReplayGuard.checkAndRecord,
          guardMachine, GuardState.step, GuardState.letGo, heq, Machine.run_cons,
          PaymentNonceReservation.retainOnDrop]

end Machine

end KiteX402
