/-
Where every entry of the guard stands after any sequence of calls: pending
under one live handle, retained under one expiry record, or retained forever
because its deadline could not be represented.
-/
import KiteX402.NonceGuardMachine

namespace KiteX402

/-- The history shows that `handle` was reserved before some `clear`. -/
def PredatesClear (events : List GuardEvent) (handle : PaymentNonceReservation) :
    Prop :=
  ∃ before after, events = before ++ .cleared :: after ∧
    ∃ now, .reserved handle.key now handle.generation ∈ before

theorem PredatesClear.append {events : List GuardEvent}
    {handle : PaymentNonceReservation} (h : PredatesClear events handle)
    (more : List GuardEvent) : PredatesClear (events ++ more) handle := by
  obtain ⟨before, after, rfl, hnow⟩ := h
  exact ⟨before, after ++ more, by simp, hnow⟩

/-- The history shows a retaining drop of this generation at a time whose
deadline is not representable. -/
def DeadlineLost (guard : PaymentNonceReplayGuard) (clock : MonotonicClock)
    (events : List GuardEvent) (generation : Generation) : Prop :=
  ∃ handle now, .dropped handle now ∈ events ∧
    handle.generation = generation ∧ handle.retain = true ∧
    clock.checkedAdd now guard.ttl = none

theorem DeadlineLost.append {guard : PaymentNonceReplayGuard}
    {clock : MonotonicClock} {events : List GuardEvent} {generation : Generation}
    (h : DeadlineLost guard clock events generation) (more : List GuardEvent) :
    DeadlineLost guard clock (events ++ more) generation := by
  obtain ⟨handle, now, hmem, hrest⟩ := h
  exact ⟨handle, now, List.mem_append_left more hmem, hrest⟩

/-- What the history says about the handles that are no longer stored and
about the entries that have no handle. -/
structure GuardHistory (guard : PaymentNonceReplayGuard) (clock : MonotonicClock)
    (store : NonceStore) (handles : List PaymentNonceReservation)
    (events : List GuardEvent) : Prop where
  reserved : ∀ handle ∈ handles, ∃ now,
    .reserved handle.key now handle.generation ∈ events
  stale : ∀ handle ∈ handles, ¬handle.Stored store → PredatesClear events handle
  settled : ∀ key entry, store.entries.lookup key = some entry →
    (∃ handle ∈ handles, handle.generation = entry.generation) ∨
    (∃ deadline, toLex (deadline, key) ∈ store.expirations) ∨
    DeadlineLost guard clock events entry.generation

namespace GuardHistory

variable {guard : PaymentNonceReplayGuard} {clock : MonotonicClock}
  {store : NonceStore} {handles : List PaymentNonceReservation}
  {events : List GuardEvent}

theorem append (hhist : GuardHistory guard clock store handles events)
    (more : List GuardEvent) :
    GuardHistory guard clock store handles (events ++ more) where
  reserved handle hhandle := by
    obtain ⟨now, hmem⟩ := hhist.reserved handle hhandle
    exact ⟨now, List.mem_append_left more hmem⟩
  stale handle hhandle h := (hhist.stale handle hhandle h).append more
  settled key entry h := by
    rcases hhist.settled key entry h with hlive | hrecord | hlost
    · exact Or.inl hlive
    · exact Or.inr (Or.inl hrecord)
    · exact Or.inr (Or.inr (hlost.append more))

theorem expire (hhist : GuardHistory guard clock store handles events)
    (hinv : GuardInvariant guard store handles) (now : Instant) :
    GuardHistory guard clock (store.expire now) handles events where
  reserved := hhist.reserved
  stale handle hhandle h :=
    hhist.stale handle hhandle fun hstored =>
      h (hinv.stored_expire hhandle hstored now)
  settled key entry h := by
    rcases hhist.settled key entry (ExpiryStore.lookup_of_lookup_sweep h) with
      hlive | ⟨deadline, hrecord⟩ | hlost
    · exact Or.inl hlive
    · exact Or.inr (Or.inl
        ⟨deadline, ExpiryStore.mem_expirations_sweep hrecord h⟩)
    · exact Or.inr (Or.inr hlost)

theorem occupy (hhist : GuardHistory guard clock store handles events)
    {key : String} (hkey : key ∉ store.entries)
    (hevent : ∃ now, .reserved key now store.allocated ∈ events) :
    GuardHistory guard clock (store.occupy key)
      (⟨key, store.allocated, false⟩ :: handles) events where
  reserved handle hhandle := by
    rcases List.mem_cons.mp hhandle with rfl | hhandle
    · exact hevent
    · exact hhist.reserved handle hhandle
  stale handle hhandle h := by
    rcases List.mem_cons.mp hhandle with rfl | hhandle
    · exact absurd (NonceStore.lookup_occupy_self store key) h
    · exact hhist.stale handle hhandle fun hstored =>
        h (GuardInvariant.stored_occupy hkey hstored)
  settled other entry h := by
    by_cases hother : other = key
    · subst hother
      rw [NonceStore.lookup_occupy_self, Option.some_inj] at h
      exact Or.inl ⟨_, List.mem_cons_self, by rw [← h]⟩
    · rw [NonceStore.lookup_occupy_of_ne hother] at h
      rcases hhist.settled other entry h with ⟨handle, hhandle, hgen⟩ | hrest
      · exact Or.inl ⟨handle, List.mem_cons_of_mem _ hhandle, hgen⟩
      · exact Or.inr hrest

theorem retainOnDrop (hhist : GuardHistory guard clock store handles events)
    {handle : PaymentNonceReservation} (hhandle : handle ∈ handles) :
    GuardHistory guard clock store
      (handle.retainOnDrop :: handles.erase handle) events where
  reserved other hother := by
    rcases List.mem_cons.mp hother with rfl | hother
    · exact hhist.reserved handle hhandle
    · exact hhist.reserved other (List.mem_of_mem_erase hother)
  stale other hother h := by
    rcases List.mem_cons.mp hother with rfl | hother
    · exact hhist.stale handle hhandle h
    · exact hhist.stale other (List.mem_of_mem_erase hother) h
  settled key entry h := by
    rcases hhist.settled key entry h with ⟨other, hother, hgen⟩ | hrest
    · by_cases heq : other = handle
      · subst heq
        exact Or.inl ⟨_, List.mem_cons_self, hgen⟩
      · exact Or.inl ⟨other,
          List.mem_cons_of_mem _ ((List.mem_erase_of_ne heq).mpr hother), hgen⟩
    · exact Or.inr hrest

/-- An entry is the one `handle` was given, or has its place without it. -/
theorem own_or_settled (hhist : GuardHistory guard clock store handles events)
    (hinv : GuardInvariant guard store handles)
    {handle : PaymentNonceReservation} (hhandle : handle ∈ handles)
    {key : String} {entry : NonceEntry}
    (h : store.entries.lookup key = some entry) :
    (key = handle.key ∧ handle.generation = entry.generation ∧
      handle.Stored store) ∨
    (∃ other ∈ handles.erase handle, other.generation = entry.generation) ∨
    (∃ deadline, toLex (deadline, key) ∈ store.expirations) ∨
    DeadlineLost guard clock events entry.generation := by
  rcases hhist.settled key entry h with ⟨other, hother, hgen⟩ | hrest
  · by_cases heq : other = handle
    · subst heq
      have hentry : store.entries.lookup key = some ⟨other.generation⟩ := by
        rw [hgen]
        exact h
      have hkey := hinv.handle_key other hother key hentry
      refine Or.inl ⟨hkey, hgen, ?_⟩
      rw [PaymentNonceReservation.Stored, ← hkey]
      exact hentry
    · exact Or.inr (Or.inl
        ⟨other, (List.mem_erase_of_ne heq).mpr hother, hgen⟩)
  · exact Or.inr (Or.inr hrest)

theorem letGo (hhist : GuardHistory guard clock store handles events)
    (hinv : GuardInvariant guard store handles)
    {handle : PaymentNonceReservation} (hhandle : handle ∈ handles)
    (retain : Bool) (now : Instant) :
    GuardHistory guard clock
      (guard.drop clock store { handle with retain := retain } now)
      (handles.erase handle)
      (events ++ [.dropped { handle with retain := retain } now]) where
  reserved other hother := by
    obtain ⟨reservedAt, hmem⟩ :=
      hhist.reserved other (List.mem_of_mem_erase hother)
    exact ⟨reservedAt, List.mem_append_left _ hmem⟩
  stale other hother h :=
    (hhist.stale other (List.mem_of_mem_erase hother) fun hstored =>
      h (hinv.stored_drop clock hhandle hother hstored retain now)).append _
  settled key entry h := by
    have hown : store.entries.lookup key = some entry → _ := fun hlookup =>
      (hhist.append [.dropped { handle with retain := retain } now]).own_or_settled
        hinv hhandle hlookup
    rcases guard.drop_cases clock store { handle with retain := retain } now with
      ⟨hnot, hdrop⟩ | ⟨_, _, hdrop⟩ | ⟨_, hretain, hlost, hdrop⟩ |
        ⟨deadline, _, _, _, hdrop⟩ <;> rw [hdrop] at h ⊢
    · rcases hown h with ⟨_, _, hstored⟩ | hrest
      · exact absurd hstored hnot
      · exact hrest
    · have hne : key ≠ handle.key := by
        rintro rfl
        simp at h
      rw [NonceStore.lookup_remove_of_ne hne] at h
      rcases hown h with ⟨hkey, _, _⟩ | hrest
      · exact absurd hkey hne
      · exact hrest
    · rcases hown h with ⟨_, hgen, _⟩ | hrest
      · exact Or.inr (Or.inr ⟨_, now,
          List.mem_append_right _ List.mem_cons_self, hgen, hretain, hlost⟩)
      · exact hrest
    · rcases hown h with ⟨hkey, _, _⟩ | hlive | ⟨due, hrecord⟩ | hlost
      · exact Or.inr (Or.inl ⟨deadline, by simp [hkey]⟩)
      · exact Or.inl hlive
      · exact Or.inr (Or.inl ⟨due, by simp [hrecord]⟩)
      · exact Or.inr (Or.inr hlost)

theorem clear (hhist : GuardHistory guard clock store handles events) :
    GuardHistory guard clock store.clear handles (events ++ [.cleared]) where
  reserved := (hhist.append _).reserved
  stale handle hhandle _ := by
    obtain ⟨now, hmem⟩ := hhist.reserved handle hhandle
    exact ⟨events, [], rfl, now, hmem⟩
  settled key entry h := by simp [NonceStore.clear] at h

end GuardHistory

/-- The invariant of the guard's runs: the representation invariant and the
history that explains it. -/
structure GuardReached (guard : PaymentNonceReplayGuard) (clock : MonotonicClock)
    (state : GuardState) (events : List GuardEvent) : Prop where
  invariant : GuardInvariant guard state.store state.handles
  history : GuardHistory guard clock state.store state.handles events

section Runs

variable (guard : PaymentNonceReplayGuard) (clock : MonotonicClock)

theorem GuardReached.initial :
    GuardReached guard clock GuardState.initial [] where
  invariant := GuardInvariant.initial guard
  history := by
    constructor <;> simp [GuardState.initial, NonceStore.empty]

theorem GuardReached.step {state : GuardState} {events : List GuardEvent}
    (hreached : GuardReached guard clock state events) (action : GuardAction) :
    GuardReached guard clock ((guardMachine guard clock).step state action).1
      (events ++ ((guardMachine guard clock).step state action).2) where
  invariant := guardMachine_step_invariant guard clock state action
    hreached.invariant
  history := by
    have hinv := hreached.invariant
    have hhist := hreached.history
    rcases guardMachine_step_cases guard clock state action with
      ⟨key, now, hkey, _, _, heq⟩ | ⟨key, now, error, _, _, heq⟩ |
        ⟨handle, hlive, _, heq⟩ | ⟨handle, hlive, retain, now, _, heq⟩ |
        ⟨_, heq⟩ | heq <;> rw [heq]
    · exact ((hhist.expire hinv now).append _).occupy hkey ⟨now, by simp⟩
    · exact (hhist.expire hinv now).append _
    · exact (hhist.retainOnDrop hlive).append _
    · exact hhist.letGo hinv hlive retain now
    · exact hhist.clear
    · exact hhist.append _

theorem guardMachine_run_reached (actions : List GuardAction) :
    GuardReached guard clock
      ((guardMachine guard clock).run GuardState.initial actions).1
      ((guardMachine guard clock).run GuardState.initial actions).2 :=
  (guardMachine guard clock).run_induction
    (P := GuardReached guard clock) (GuardReached.initial guard clock)
    (fun _ _ action hreached => hreached.step guard clock action) actions

theorem callMachine_run_reached (calls : List GuardCall) :
    GuardReached guard clock
      ((callMachine guard clock).run GuardState.initial calls).1
      ((callMachine guard clock).run GuardState.initial calls).2 := by
  obtain ⟨actions, heq⟩ :=
    (guardMachine_expands guard clock).run_eq GuardState.initial calls
  rw [heq]
  exact guardMachine_run_reached guard clock actions

end Runs

/-- The situations of an entry. -/
inductive EntryStatus where
  | pending
  | retained
  | retainedForever
deriving DecidableEq

/-- How many live handles carry `generation`. -/
def liveHandles (handles : List PaymentNonceReservation)
    (generation : Generation) : ℕ :=
  handles.countP fun handle => handle.generation = generation

/-- The expiry records of `key`. -/
def NonceStore.records (store : NonceStore) (key : String) : Finset (Instant ×ₗ String) :=
  store.expirations.filter fun pair => (ofLex pair).2 = key

/-- `status` is a situation of the entry `generation` stored under `key`. -/
def HasStatus (guard : PaymentNonceReplayGuard) (clock : MonotonicClock)
    (state : GuardState) (events : List GuardEvent) (key : String)
    (generation : Generation) : EntryStatus → Prop
  | .pending =>
      liveHandles state.handles generation = 1 ∧
        (state.store.records key).card = 0
  | .retained =>
      liveHandles state.handles generation = 0 ∧
        (state.store.records key).card = 1
  | .retainedForever =>
      liveHandles state.handles generation = 0 ∧
        (state.store.records key).card = 0 ∧
        DeadlineLost guard clock events generation

/-- The guard's promise about its two containers and the live handles. -/
structure GuardConsistent (guard : PaymentNonceReplayGuard)
    (clock : MonotonicClock) (state : GuardState) (events : List GuardEvent) :
    Prop where
  size_le : state.store.size ≤ guard.maxCapacity
  record_entry : ∀ deadline key,
    toLex (deadline, key) ∈ state.store.expirations → key ∈ state.store.entries
  record_unique : ∀ deadline due key,
    toLex (deadline, key) ∈ state.store.expirations →
    toLex (due, key) ∈ state.store.expirations → deadline = due
  records_le : state.store.expirations.card ≤ state.store.size
  status : ∀ key entry, state.store.entries.lookup key = some entry →
    ∃! status, HasStatus guard clock state events key entry.generation status
  stale : ∀ handle ∈ state.handles,
    (∀ key, state.store.entries.lookup key ≠ some ⟨handle.generation⟩) →
    PredatesClear events handle ∧
      ∀ retain now, guard.drop clock state.store
        { handle with retain := retain } now = state.store

theorem HasStatus.unique {guard : PaymentNonceReplayGuard}
    {clock : MonotonicClock} {state : GuardState} {events : List GuardEvent}
    {key : String} {generation : Generation} {first second : EntryStatus}
    (hfirst : HasStatus guard clock state events key generation first)
    (hsecond : HasStatus guard clock state events key generation second) :
    first = second := by
  cases first <;> cases second <;> simp only [HasStatus] at hfirst hsecond <;>
    first
      | rfl
      | omega

namespace GuardInvariant

variable {guard : PaymentNonceReplayGuard} {store : NonceStore}
  {handles : List PaymentNonceReservation}

/-- Each record stands for a key of its own. -/
theorem records_le (hinv : GuardInvariant guard store handles) :
    store.expirations.card ≤ store.size := by
  refine Finset.card_le_card_of_injOn (fun pair => (ofLex pair).2) ?_ ?_
  · intro pair hpair
    obtain ⟨entry, hentry, _⟩ := hinv.record_entry (ofLex pair).1 (ofLex pair).2 hpair
    exact Finmap.mem_keys.mpr (Finmap.mem_of_lookup_eq_some hentry)
  · intro pair hpair other hother heq
    have hsame : toLex ((ofLex other).1, (ofLex pair).2) ∈ store.expirations := by
      have hkey : (ofLex pair).2 = (ofLex other).2 := heq
      rw [hkey]
      exact hother
    have hdeadline := hinv.record_unique _ _ _ hpair hsame
    exact ofLex_inj.mp (Prod.ext hdeadline heq)

theorem card_records_of_mem (hinv : GuardInvariant guard store handles)
    {deadline : Instant} {key : String}
    (hmem : toLex (deadline, key) ∈ store.expirations) :
    (store.records key).card = 1 := by
  rw [Finset.card_eq_one]
  refine ⟨toLex (deadline, key), ?_⟩
  ext pair
  rw [NonceStore.records, Finset.mem_filter, Finset.mem_singleton]
  constructor
  · rintro ⟨hpair, rfl⟩
    rw [hinv.record_unique _ _ _ hmem hpair]
    rfl
  · rintro rfl
    exact ⟨hmem, rfl⟩

theorem liveHandles_of_mem (hinv : GuardInvariant guard store handles)
    {handle : PaymentNonceReservation} (hhandle : handle ∈ handles) :
    liveHandles handles handle.generation = 1 := by
  have hcount := List.count_eq_one_of_mem hinv.handles_nodup
    (List.mem_map_of_mem hhandle)
  rw [← hcount, List.count, List.countP_map]
  rfl

end GuardInvariant

theorem card_records_eq_zero {store : NonceStore} {key : String}
    (hrecord : ∀ deadline, toLex (deadline, key) ∉ store.expirations) :
    (store.records key).card = 0 := by
  rw [Finset.card_eq_zero, NonceStore.records, Finset.filter_eq_empty_iff]
  rintro pair hpair rfl
  exact hrecord (ofLex pair).1 hpair

theorem liveHandles_eq_zero {handles : List PaymentNonceReservation}
    {generation : Generation}
    (hnone : ∀ handle ∈ handles, handle.generation ≠ generation) :
    liveHandles handles generation = 0 := by
  simpa [liveHandles, List.countP_eq_zero] using hnone

namespace GuardReached

variable {guard : PaymentNonceReplayGuard} {clock : MonotonicClock}
  {state : GuardState} {events : List GuardEvent}

theorem exists_status (hreached : GuardReached guard clock state events)
    {key : String} {entry : NonceEntry}
    (hentry : state.store.entries.lookup key = some entry) :
    ∃ status, HasStatus guard clock state events key entry.generation status := by
  have hinv := hreached.invariant
  by_cases hlive : ∃ handle ∈ state.handles, handle.generation = entry.generation
  · obtain ⟨handle, hhandle, hgen⟩ := hlive
    have hcount := hinv.liveHandles_of_mem hhandle
    refine ⟨.pending, hgen ▸ hcount, card_records_eq_zero ?_⟩
    intro deadline hmem
    obtain ⟨other, hother, hsettled⟩ := hinv.record_entry deadline key hmem
    rw [hentry, Option.some_inj] at hother
    exact hsettled handle hhandle (by rw [hgen, hother])
  · have hnone : ∀ handle ∈ state.handles, handle.generation ≠ entry.generation :=
      fun handle hhandle hgen => hlive ⟨handle, hhandle, hgen⟩
    have hzero := liveHandles_eq_zero hnone
    by_cases hrecord : ∃ deadline, toLex (deadline, key) ∈ state.store.expirations
    · obtain ⟨deadline, hmem⟩ := hrecord
      exact ⟨.retained, hzero, hinv.card_records_of_mem hmem⟩
    · have hlost : DeadlineLost guard clock events entry.generation := by
        rcases hreached.history.settled key entry hentry with h | h | h
        · exact absurd h hlive
        · exact absurd h hrecord
        · exact h
      exact ⟨.retainedForever, hzero,
        card_records_eq_zero fun deadline hmem => hrecord ⟨deadline, hmem⟩, hlost⟩

theorem consistent (hreached : GuardReached guard clock state events) :
    GuardConsistent guard clock state events where
  size_le := hreached.invariant.size_le
  record_entry deadline key hmem := by
    obtain ⟨entry, hentry, _⟩ := hreached.invariant.record_entry deadline key hmem
    exact Finmap.mem_of_lookup_eq_some hentry
  record_unique := hreached.invariant.record_unique
  records_le := hreached.invariant.records_le
  status key entry hentry := by
    obtain ⟨status, hstatus⟩ := hreached.exists_status hentry
    exact ⟨status, hstatus, fun other hother => hother.unique hstatus⟩
  stale handle hhandle hgone := by
    have hnot : ¬handle.Stored state.store := hgone handle.key
    refine ⟨hreached.history.stale handle hhandle hnot, fun retain now => ?_⟩
    rw [PaymentNonceReplayGuard.drop, if_neg]
    exact hnot

end GuardReached

/-- After any sequence of calls on the guard, with any timestamps, its
containers and the live handles are consistent. -/
theorem callMachine_consistent (guard : PaymentNonceReplayGuard)
    (clock : MonotonicClock) (calls : List GuardCall) :
    GuardConsistent guard clock
      ((callMachine guard clock).run GuardState.initial calls).1
      ((callMachine guard clock).run GuardState.initial calls).2 :=
  (callMachine_run_reached guard clock calls).consistent

end KiteX402
