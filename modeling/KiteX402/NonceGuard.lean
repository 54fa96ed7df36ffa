/-
Process-local replay protection for payment authorizations: the store behind
the guard's mutex, the reservation handles, and every operation that takes the
lock.  Each definition below is one critical section of the source.
-/
import KiteX402.Clock
import KiteX402.ExpiryStore
import Mathlib.Data.String.Basic

namespace KiteX402

/-- The identity of one `Arc::new(())` allocation.  Only live allocations are
ever compared, so numbering them in order of allocation loses nothing. -/
abbrev Generation := ℕ

inductive NonceReplayError where
  | replayDetected (nonce : String)
  | capacityExceeded
deriving Repr, DecidableEq

structure NonceEntry where
  generation : Generation
deriving Repr, DecidableEq

/-- The maps behind the mutex, with the number of generations handed out. -/
structure NonceStore extends ExpiryStore Instant String NonceEntry where
  allocated : Generation

structure PaymentNonceReplayGuard where
  maxCapacity : ℕ
  ttl : Duration
  maxCapacity_pos : 0 < maxCapacity
  ttl_pos : 0 < ttl

/-- An exclusive reservation for an authorization. -/
structure PaymentNonceReservation where
  key : String
  generation : Generation
  retain : Bool
deriving Repr, DecidableEq

namespace NonceStore

/-- `NonceStore::default()`. -/
def empty : NonceStore := ⟨∅, 0⟩

/-- At most 64 due authorizations leave per admission. -/
def expire (store : NonceStore) (now : Instant) : NonceStore :=
  { store with toExpiryStore := store.toExpiryStore.sweep now 64 }

/-- The insertion at the end of a successful `reserve_key`. -/
def occupy (store : NonceStore) (key : String) : NonceStore :=
  { store with
    entries := store.entries.insert key ⟨store.allocated⟩
    allocated := store.allocated + 1 }

/-- The insertion of an expiry record by a retaining drop. -/
def retainUntil (store : NonceStore) (key : String) (deadline : Instant) :
    NonceStore :=
  { store with expirations := insert (toLex (deadline, key)) store.expirations }

/-- The removal of an entry by a releasing drop. -/
def remove (store : NonceStore) (key : String) : NonceStore :=
  { store with entries := store.entries.erase key }

def clear (store : NonceStore) : NonceStore := ⟨∅, store.allocated⟩

@[simp] theorem expire_allocated (store : NonceStore) (now : Instant) :
    (store.expire now).allocated = store.allocated := rfl

@[simp] theorem occupy_allocated (store : NonceStore) (key : String) :
    (store.occupy key).allocated = store.allocated + 1 := rfl

@[simp] theorem occupy_expirations (store : NonceStore) (key : String) :
    (store.occupy key).expirations = store.expirations := rfl

@[simp] theorem lookup_occupy_self (store : NonceStore) (key : String) :
    (store.occupy key).entries.lookup key = some ⟨store.allocated⟩ :=
  Finmap.lookup_insert _

theorem lookup_occupy_of_ne {store : NonceStore} {key other : String}
    (hne : other ≠ key) :
    (store.occupy key).entries.lookup other = store.entries.lookup other :=
  Finmap.lookup_insert_of_ne _ hne

theorem size_occupy {store : NonceStore} {key : String}
    (hkey : key ∉ store.entries) : (store.occupy key).size = store.size + 1 := by
  rw [ExpiryStore.size, occupy, keys_finmap_insert, Finset.card_insert_of_notMem]
  · rfl
  · rwa [Finmap.mem_keys]

@[simp] theorem retainUntil_entries (store : NonceStore) (key : String)
    (deadline : Instant) :
    (store.retainUntil key deadline).entries = store.entries := rfl

@[simp] theorem retainUntil_allocated (store : NonceStore) (key : String)
    (deadline : Instant) :
    (store.retainUntil key deadline).allocated = store.allocated := rfl

@[simp] theorem mem_retainUntil_expirations {store : NonceStore}
    {key other : String} {deadline due : Instant} :
    toLex (due, other) ∈ (store.retainUntil key deadline).expirations ↔
      (due = deadline ∧ other = key) ∨ toLex (due, other) ∈ store.expirations := by
  simp [retainUntil]

@[simp] theorem remove_expirations (store : NonceStore) (key : String) :
    (store.remove key).expirations = store.expirations := rfl

@[simp] theorem remove_allocated (store : NonceStore) (key : String) :
    (store.remove key).allocated = store.allocated := rfl

@[simp] theorem lookup_remove_self (store : NonceStore) (key : String) :
    (store.remove key).entries.lookup key = none :=
  Finmap.lookup_erase _ _

theorem lookup_remove_of_ne {store : NonceStore} {key other : String}
    (hne : other ≠ key) :
    (store.remove key).entries.lookup other = store.entries.lookup other :=
  Finmap.lookup_erase_ne hne

theorem size_remove_le (store : NonceStore) (key : String) :
    (store.remove key).size ≤ store.size := by
  rw [ExpiryStore.size, remove, Finmap.keys_erase]
  exact Finset.card_erase_le

end NonceStore

namespace PaymentNonceReservation

def retainOnDrop (reservation : PaymentNonceReservation) :
    PaymentNonceReservation :=
  { reservation with retain := true }

/-- The entry this handle was given is still the one stored under its key. -/
def Stored (reservation : PaymentNonceReservation) (store : NonceStore) : Prop :=
  store.entries.lookup reservation.key = some ⟨reservation.generation⟩

instance (reservation : PaymentNonceReservation) (store : NonceStore) :
    Decidable (reservation.Stored store) :=
  inferInstanceAs (Decidable (_ = _))

end PaymentNonceReservation

namespace PaymentNonceReplayGuard

/-- Both parameters of the constructor are raised to at least one. -/
def new (maxCapacity ttlSeconds : ℕ) : PaymentNonceReplayGuard where
  maxCapacity := max maxCapacity 1
  ttl := Duration.fromSecs (max ttlSeconds 1)
  maxCapacity_pos := lt_max_of_lt_right one_pos
  ttl_pos := Nat.mul_pos (lt_max_of_lt_right one_pos) nanosPerSec_pos

variable (guard : PaymentNonceReplayGuard) (clock : MonotonicClock)

def reserveKey (store : NonceStore) (key : String) (now : Instant) :
    Except NonceReplayError PaymentNonceReservation × NonceStore :=
  let store := store.expire now
  if key ∈ store.entries then
    (.error (.replayDetected key), store)
  else if guard.maxCapacity ≤ store.size then
    (.error .capacityExceeded, store)
  else
    (.ok ⟨key, store.allocated, false⟩, store.occupy key)

/-- `Drop for PaymentNonceReservation`; `now` is read under the lock. -/
def drop (store : NonceStore) (reservation : PaymentNonceReservation)
    (now : Instant) : NonceStore :=
  if reservation.Stored store then
    if reservation.retain then
      match clock.checkedAdd now guard.ttl with
      | some deadline => store.retainUntil reservation.key deadline
      | none => store
    else store.remove reservation.key
  else store

/-- `release` consumes the handle, so its drop follows at once. -/
def release (store : NonceStore) (reservation : PaymentNonceReservation)
    (now : Instant) : NonceStore :=
  guard.drop clock store { reservation with retain := false } now

/-- The lock is taken twice: once at `now` to reserve, and once at `ended` by
the drop of the handle. -/
def checkAndRecord (store : NonceStore) (nonce : String) (now ended : Instant) :
    Except NonceReplayError Unit × NonceStore :=
  match guard.reserveKey store nonce now with
  | (.ok reservation, store) =>
      (.ok (), guard.drop clock store reservation.retainOnDrop ended)
  | (.error error, store) => (.error error, store)

/-- What `reserve_key` can do, after its sweep. -/
theorem reserveKey_cases (store : NonceStore) (key : String) (now : Instant) :
    (key ∈ (store.expire now).entries ∧
      guard.reserveKey store key now =
        (.error (.replayDetected key), store.expire now)) ∨
    (key ∉ (store.expire now).entries ∧
      guard.maxCapacity ≤ (store.expire now).size ∧
      guard.reserveKey store key now =
        (.error .capacityExceeded, store.expire now)) ∨
    (key ∉ (store.expire now).entries ∧
      (store.expire now).size < guard.maxCapacity ∧
      guard.reserveKey store key now =
        (.ok ⟨key, store.allocated, false⟩, (store.expire now).occupy key)) := by
  by_cases hmem : key ∈ (store.expire now).entries
  · exact Or.inl ⟨hmem, by simp [reserveKey, hmem]⟩
  · by_cases hfull : guard.maxCapacity ≤ (store.expire now).size
    · exact Or.inr (Or.inl ⟨hmem, hfull, by simp [reserveKey, hmem, hfull]⟩)
    · exact Or.inr (Or.inr ⟨hmem, not_le.mp hfull, by
        simp [reserveKey, hmem, hfull]⟩)

/-- What the drop of a handle can do. -/
theorem drop_cases (store : NonceStore) (reservation : PaymentNonceReservation)
    (now : Instant) :
    (¬reservation.Stored store ∧
      guard.drop clock store reservation now = store) ∨
    (reservation.Stored store ∧ reservation.retain = false ∧
      guard.drop clock store reservation now = store.remove reservation.key) ∨
    (reservation.Stored store ∧ reservation.retain = true ∧
      clock.checkedAdd now guard.ttl = none ∧
      guard.drop clock store reservation now = store) ∨
    (∃ deadline, reservation.Stored store ∧ reservation.retain = true ∧
      clock.checkedAdd now guard.ttl = some deadline ∧
      guard.drop clock store reservation now =
        store.retainUntil reservation.key deadline) := by
  by_cases hstored : reservation.Stored store
  · cases hretain : reservation.retain with
    | false => exact Or.inr (Or.inl ⟨hstored, rfl, by simp [drop, hstored, hretain]⟩)
    | true =>
        right; right
        cases hadd : clock.checkedAdd now guard.ttl with
        | none => exact Or.inl ⟨hstored, rfl, rfl, by simp [drop, hstored, hretain, hadd]⟩
        | some deadline =>
            exact Or.inr ⟨deadline, hstored, rfl, rfl, by
              simp [drop, hstored, hretain, hadd]⟩
  · exact Or.inl ⟨hstored, by simp [drop, hstored]⟩

end PaymentNonceReplayGuard

end KiteX402
