/-
What one admission sweeps, and where the records of the index come from.
-/
import KiteX402.NonceGuardReplay

namespace KiteX402

namespace NonceStore

/-- The keys whose entry in `store` is gone from `next`, or replaced there. -/
def removed (store next : NonceStore) : Finset String :=
  store.entries.keys.filter fun key =>
    next.entries.lookup key ≠ store.entries.lookup key

/-- At most 64 entries go, all of them due at `now`, and no record that stays
sorts before one of theirs. -/
structure SweepsLeast (store next : NonceStore) (now : Instant) : Prop where
  card_le : (store.removed next).card ≤ 64
  least : ∀ key ∈ store.removed next,
    ∃ deadline ≤ now, toLex (deadline, key) ∈ store.expirations ∧
      ∀ other ∈ next.expirations, toLex (deadline, key) < other

end NonceStore

/-- The reading of the clock that a retaining drop takes under the lock. -/
def GuardAction.reading : GuardAction → Option Instant
  | .drop handle now => if handle.retain then some now else none
  | _ => none

section Reserve

variable (guard : PaymentNonceReplayGuard) (clock : MonotonicClock)

/-- Admitted or not, an attempt leaves the index as its sweep does. -/
theorem expirations_reserveKey (store : NonceStore) (key : String) (now : Instant) :
    (guard.reserveKey store key now).2.expirations = (store.expire now).expirations := by
  rcases guard.reserveKey_cases store key now with
    ⟨_, heq⟩ | ⟨_, _, heq⟩ | ⟨_, _, heq⟩ <;> rw [heq]
  exact NonceStore.occupy_expirations _ _

theorem lookup_reserveKey_of_lookup {store : NonceStore} {key other : String}
    {entry : NonceEntry} {now : Instant}
    (hentry : (store.expire now).entries.lookup other = some entry) :
    (guard.reserveKey store key now).2.entries.lookup other = some entry := by
  rcases guard.reserveKey_cases store key now with
    ⟨_, heq⟩ | ⟨_, _, heq⟩ | ⟨hkey, _, heq⟩ <;> rw [heq]
  · exact hentry
  · exact hentry
  · exact lookup_occupy_of_lookup hentry hkey

/-- What an attempt removes, its sweep has taken. -/
theorem mem_swept_of_mem_removed {store : NonceStore} {key other : String} {now : Instant}
    (hremoved : other ∈ store.removed (guard.reserveKey store key now).2) :
    ∃ pair ∈ store.toExpiryStore.swept now 64, (ofLex pair).2 = other := by
  rw [NonceStore.removed, Finset.mem_filter, Finmap.mem_keys, Finmap.mem_iff] at hremoved
  obtain ⟨⟨entry, hentry⟩, hchanged⟩ := hremoved
  by_contra hkept
  apply hchanged
  rw [hentry]
  apply lookup_reserveKey_of_lookup
  rw [← hentry]
  apply ExpiryStore.lookup_sweep_of_notMem_swept
  exact fun pair hpair hkey => hkept ⟨pair, hpair, hkey⟩

theorem reserveKey_sweepsLeast (store : NonceStore) (key : String) (now : Instant) :
    store.SweepsLeast (guard.reserveKey store key now).2 now where
  card_le := by
    have hsubset : store.removed (guard.reserveKey store key now).2 ⊆
        (store.toExpiryStore.swept now 64).image fun pair => (ofLex pair).2 := by
      intro other hother
      obtain ⟨pair, hpair, hkey⟩ := mem_swept_of_mem_removed guard hother
      exact Finset.mem_image.mpr ⟨pair, hpair, hkey⟩
    calc (store.removed (guard.reserveKey store key now).2).card
        ≤ ((store.toExpiryStore.swept now 64).image fun pair => (ofLex pair).2).card :=
          Finset.card_le_card hsubset
      _ ≤ (store.toExpiryStore.swept now 64).card := Finset.card_image_le
      _ ≤ 64 := ExpiryStore.card_swept_le now 64 _
  least other hother := by
    obtain ⟨pair, hpair, rfl⟩ := mem_swept_of_mem_removed guard hother
    refine ⟨(ofLex pair).1, ExpiryStore.due_of_mem_swept pair hpair,
      ExpiryStore.swept_subset now 64 _ hpair, ?_⟩
    intro kept hkept
    rw [expirations_reserveKey] at hkept
    exact ExpiryStore.lt_of_mem_swept pair hpair kept hkept

theorem step_reserveKey_store (state : GuardState) (key : String) (now : Instant) :
    ((guardMachine guard clock).step state (.reserveKey key now)).1.store =
      (guard.reserveKey state.store key now).2 := by
  rcases guard.reserveKey_cases state.store key now with
    ⟨_, heq⟩ | ⟨_, _, heq⟩ | ⟨_, _, heq⟩ <;> simp [guardMachine, GuardState.step, heq]

/-- An attempt on a key whose entry outlives the sweep is a replay. -/
theorem step_reserveKey_of_lookup {state : GuardState} {key : String} {now : Instant}
    {entry : NonceEntry}
    (hentry : (state.store.expire now).entries.lookup key = some entry) :
    ((guardMachine guard clock).step state (.reserveKey key now)).2 =
      [.refused key now (.replayDetected key)] := by
  have hmem := Finmap.mem_of_lookup_eq_some hentry
  rcases guard.reserveKey_cases state.store key now with
    ⟨_, heq⟩ | ⟨hkey, _, _⟩ | ⟨hkey, _, _⟩
  · simp [guardMachine, GuardState.step, heq]
  · exact absurd hmem hkey
  · exact absurd hmem hkey

theorem run_drop_reserveKey {state : GuardState} {handle : PaymentNonceReservation}
    (hlive : handle ∈ state.handles) (dropped : Instant) (key : String) (now : Instant) :
    ((guardMachine guard clock).run state
        [.drop handle dropped, .reserveKey key now]).1.store =
      (guard.reserveKey (guard.drop clock state.store handle dropped) key now).2 := by
  simp only [Machine.run_cons, Machine.run_nil, step_reserveKey_store]
  simp [guardMachine, GuardState.step, GuardState.letGo, hlive]

/-- A drop adds no record, or the one its own reading dates. -/
theorem mem_expirations_drop {store : NonceStore} {handle : PaymentNonceReservation}
    {now : Instant} {pair : Instant ×ₗ String}
    (hpair : pair ∈ (guard.drop clock store handle now).expirations) :
    pair ∈ store.expirations ∨
      handle.retain = true ∧ (ofLex pair).1 = now + guard.ttl := by
  rcases guard.drop_cases clock store handle now with
    ⟨_, hdrop⟩ | ⟨_, _, hdrop⟩ | ⟨_, _, _, hdrop⟩ |
      ⟨deadline, _, hretain, hadd, hdrop⟩ <;> rw [hdrop] at hpair
  · exact Or.inl hpair
  · exact Or.inl hpair
  · exact Or.inl hpair
  · rcases Finset.mem_insert.mp hpair with rfl | hpair
    · exact Or.inr ⟨hretain, MonotonicClock.checkedAdd_eq_some hadd⟩
    · exact Or.inl hpair

/-- Records enter the index through retaining drops only, each dated by the
reading of its drop. -/
theorem mem_expirations_step {state : GuardState} {action : GuardAction}
    {pair : Instant ×ₗ String}
    (hpair : pair ∈ ((guardMachine guard clock).step state action).1.store.expirations) :
    pair ∈ state.store.expirations ∨
      ∃ now, action.reading = some now ∧ (ofLex pair).1 = now + guard.ttl := by
  cases action with
  | reserveKey key now =>
      rw [step_reserveKey_store, expirations_reserveKey] at hpair
      exact Or.inl (ExpiryStore.sweep_expirations_subset now 64 _ hpair)
  | retainOnDrop handle =>
      left
      simp only [guardMachine, GuardState.step] at hpair
      split at hpair <;> exact hpair
  | release handle now =>
      left
      simp only [guardMachine, GuardState.step] at hpair
      split at hpair
      · rcases mem_expirations_drop guard clock hpair with hbefore | ⟨hretain, _⟩
        · exact hbefore
        · contradiction
      · exact hpair
  | drop handle now =>
      simp only [guardMachine, GuardState.step] at hpair
      split at hpair
      · refine (mem_expirations_drop guard clock hpair).imp_right fun hnew => ?_
        exact ⟨now, if_pos hnew.1, hnew.2⟩
      · exact Or.inl hpair
  | clear =>
      simp [guardMachine, GuardState.step, NonceStore.clear] at hpair

/-- Every record is dated by a drop of the run that led to it. -/
theorem exists_reading_of_mem_expirations (actions : List GuardAction) :
    ∀ pair ∈ ((guardMachine guard clock).run GuardState.initial actions).1.store.expirations,
      ∃ now ∈ actions.filterMap GuardAction.reading,
        (ofLex pair).1 = now + guard.ttl := by
  induction actions using List.reverseRecOn with
  | nil => simp [GuardState.initial, NonceStore.empty]
  | append_singleton rest action ih =>
      intro pair hpair
      rw [Machine.run_concat] at hpair
      rw [List.filterMap_append]
      rcases mem_expirations_step guard clock hpair with hbefore | ⟨now, hreading, hdeadline⟩
      · obtain ⟨now, hnow, hdeadline⟩ := ih pair hbefore
        exact ⟨now, List.mem_append_left _ hnow, hdeadline⟩
      · exact ⟨now, List.mem_append_right _ (by simp [hreading]), hdeadline⟩

end Reserve

end KiteX402
