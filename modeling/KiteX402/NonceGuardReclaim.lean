/-
How admissions reclaim what has expired.  Each of them sweeps at most 64
entries, least deadline first, so an entry that is due waits only for the
records that sort before its own.
-/
import KiteX402.NonceGuardSweep

namespace KiteX402

namespace NonceStore

/-- The records whose deadlines have come at `time`. -/
def dueBy (store : NonceStore) (time : Instant) : Finset (Instant ×ₗ String) :=
  store.expirations.filter fun pair => (ofLex pair).1 ≤ time

/-- Those of the records due in `start` whose entry is still in `store`. -/
def remaining (start : NonceStore) (time : Instant) (store : NonceStore) :
    Finset (Instant ×ₗ String) :=
  (start.dueBy time).filter fun pair =>
    store.entries.lookup (ofLex pair).2 = start.entries.lookup (ofLex pair).2

/-- The records that `next` adds to `store` and that tie with one still
remaining: the same deadline, and a lesser key. -/
def ties (start : NonceStore) (time : Instant) (store next : NonceStore) :
    Finset (Instant ×ₗ String) :=
  (next.expirations \ store.expirations).filter fun pair =>
    ∃ due ∈ start.remaining time next,
      (ofLex pair).1 = (ofLex due).1 ∧ (ofLex pair).2 < (ofLex due).2

/-- The records up to the last one remaining: what admissions have to sweep until
nothing of what was due in `start` is left. -/
def ahead (start : NonceStore) (time : Instant) (store : NonceStore) :
    Finset (Instant ×ₗ String) :=
  store.expirations.filter fun pair => ∃ due ∈ start.remaining time store, pair ≤ due

end NonceStore

/-- An attempt to reserve at `time` or later. -/
def GuardAction.reservesFrom (time : Instant) : GuardAction → Bool
  | .reserveKey _ now => decide (time ≤ now)
  | _ => false

/-- An entry that is in `store` only together with its record, and that never
comes back once it is gone: its generation has been handed out. -/
structure NonceStore.Tracked (store : NonceStore) (pair : Instant ×ₗ String) (entry : NonceEntry) :
    Prop where
  allocated : entry.generation < store.allocated
  record : store.entries.lookup (ofLex pair).2 = some entry → pair ∈ store.expirations

/-- Each record due in `start` has its entry tracked in `store`. -/
def NonceStore.Follows (start : NonceStore) (time : Instant) (store : NonceStore) : Prop :=
  ∀ pair ∈ start.dueBy time, ∃ entry,
    start.entries.lookup (ofLex pair).2 = some entry ∧ store.Tracked pair entry

section Track

variable {store : NonceStore} {pair : Instant ×ₗ String} {entry : NonceEntry}

theorem NonceStore.Tracked.expire (htracked : store.Tracked pair entry) (now : Instant) :
    (store.expire now).Tracked pair entry where
  allocated := htracked.allocated
  record hentry := by
    have hbefore := htracked.record (ExpiryStore.lookup_of_lookup_sweep hentry)
    exact ExpiryStore.mem_expirations_sweep hbefore hentry

/-- The entry that an admission adds is not the one tracked. -/
theorem NonceStore.Tracked.lookup_of_occupy (htracked : store.Tracked pair entry) {key : String}
    (hentry : (store.occupy key).entries.lookup (ofLex pair).2 = some entry) :
    store.entries.lookup (ofLex pair).2 = some entry := by
  by_cases hkey : (ofLex pair).2 = key
  · rw [hkey, NonceStore.lookup_occupy_self, Option.some_inj] at hentry
    have hallocated := htracked.allocated
    rw [← hentry] at hallocated
    exact absurd hallocated (lt_irrefl _)
  · rwa [NonceStore.lookup_occupy_of_ne hkey] at hentry

theorem NonceStore.Tracked.occupy (htracked : store.Tracked pair entry) (key : String) :
    (store.occupy key).Tracked pair entry where
  allocated := Nat.lt_succ_of_lt htracked.allocated
  record hentry := htracked.record (htracked.lookup_of_occupy hentry)

/-- A drop brings no entry back. -/
theorem lookup_of_lookup_drop {guard : PaymentNonceReplayGuard} {clock : MonotonicClock}
    {handle : PaymentNonceReservation} {now : Instant} {key : String}
    (hentry : (guard.drop clock store handle now).entries.lookup key = some entry) :
    store.entries.lookup key = some entry := by
  rcases guard.drop_cases clock store handle now with
    ⟨_, hdrop⟩ | ⟨_, _, hdrop⟩ | ⟨_, _, _, hdrop⟩ |
      ⟨deadline, _, _, _, hdrop⟩ <;> rw [hdrop] at hentry
  · exact hentry
  · by_cases hkey : key = handle.key
    · rw [hkey, NonceStore.lookup_remove_self] at hentry
      contradiction
    · rwa [NonceStore.lookup_remove_of_ne hkey] at hentry
  · exact hentry
  · exact hentry

theorem NonceStore.Tracked.drop {guard : PaymentNonceReplayGuard} {clock : MonotonicClock}
    (htracked : store.Tracked pair entry) (handle : PaymentNonceReservation) (now : Instant) :
    (guard.drop clock store handle now).Tracked pair entry := by
  have hrecord : (guard.drop clock store handle now).entries.lookup (ofLex pair).2 =
      some entry → pair ∈ store.expirations :=
    fun hentry => htracked.record (lookup_of_lookup_drop hentry)
  rcases guard.drop_cases clock store handle now with
    ⟨_, hdrop⟩ | ⟨_, _, hdrop⟩ | ⟨_, _, _, hdrop⟩ |
      ⟨deadline, _, _, _, hdrop⟩ <;> rw [hdrop] at hrecord ⊢
  · exact htracked
  · exact ⟨htracked.allocated, hrecord⟩
  · exact htracked
  · exact ⟨htracked.allocated, fun hentry => Finset.mem_insert_of_mem (hrecord hentry)⟩

theorem NonceStore.Tracked.clear (htracked : store.Tracked pair entry) :
    store.clear.Tracked pair entry where
  allocated := htracked.allocated
  record hentry := by simp [NonceStore.clear] at hentry

/-- A step keeps track of the entry, and does not bring it back. -/
theorem NonceStore.Tracked.step (guard : PaymentNonceReplayGuard) (clock : MonotonicClock)
    {state : GuardState} (htracked : state.store.Tracked pair entry) (action : GuardAction) :
    NonceStore.Tracked ((guardMachine guard clock).step state action).1.store pair entry ∧
      (((guardMachine guard clock).step state action).1.store.entries.lookup
          (ofLex pair).2 = some entry →
        state.store.entries.lookup (ofLex pair).2 = some entry) := by
  rcases guardMachine_step_cases guard clock state action with
    ⟨key, now, _, _, _, heq⟩ | ⟨key, now, error, _, _, heq⟩ |
      ⟨handle, _, _, heq⟩ | ⟨handle, _, retain, now, _, heq⟩ |
      ⟨_, heq⟩ | heq <;> rw [heq]
  · refine ⟨(htracked.expire now).occupy key, fun hentry => ?_⟩
    exact ExpiryStore.lookup_of_lookup_sweep
      ((htracked.expire now).lookup_of_occupy hentry)
  · exact ⟨htracked.expire now, ExpiryStore.lookup_of_lookup_sweep⟩
  · exact ⟨htracked, id⟩
  · exact ⟨htracked.drop _ now, lookup_of_lookup_drop⟩
  · refine ⟨htracked.clear, fun hentry => ?_⟩
    simp [NonceStore.clear] at hentry
  · exact ⟨htracked, id⟩

end Track

section Reclaim

variable (guard : PaymentNonceReplayGuard) (clock : MonotonicClock)
variable {start : NonceStore} {time : Instant} {state : GuardState}

theorem GuardInvariant.follows {guard : PaymentNonceReplayGuard}
    {handles : List PaymentNonceReservation} (hinv : GuardInvariant guard start handles)
    (time : Instant) : start.Follows time start := by
  intro pair hpair
  have hmem := (Finset.mem_filter.mp hpair).1
  obtain ⟨entry, hentry, _⟩ := hinv.record_entry (ofLex pair).1 (ofLex pair).2 hmem
  exact ⟨entry, hentry, hinv.entry_allocated _ entry hentry, fun _ => hmem⟩

theorem NonceStore.Follows.step (hfollows : start.Follows time state.store) (action : GuardAction) :
    start.Follows time ((guardMachine guard clock).step state action).1.store := by
  intro pair hpair
  obtain ⟨entry, hentry, htracked⟩ := hfollows pair hpair
  exact ⟨entry, hentry, (htracked.step guard clock action).1⟩

/-- What remains has its record in the index. -/
theorem NonceStore.Follows.remaining_subset {store : NonceStore}
    (hfollows : start.Follows time store) : start.remaining time store ⊆ store.expirations := by
  intro pair hpair
  obtain ⟨hdue, hsame⟩ := Finset.mem_filter.mp hpair
  obtain ⟨entry, hentry, htracked⟩ := hfollows pair hdue
  exact htracked.record (hsame.trans hentry)

/-- Nothing comes back. -/
theorem NonceStore.Follows.remaining_step_subset (hfollows : start.Follows time state.store)
    (action : GuardAction) :
    start.remaining time ((guardMachine guard clock).step state action).1.store ⊆
      start.remaining time state.store := by
  intro pair hpair
  obtain ⟨hdue, hsame⟩ := Finset.mem_filter.mp hpair
  obtain ⟨entry, hentry, htracked⟩ := hfollows pair hdue
  have hbefore := (htracked.step guard clock action).2 (hsame.trans hentry)
  exact Finset.mem_filter.mpr ⟨hdue, hbefore.trans hentry.symm⟩

theorem NonceStore.Follows.remaining_run_subset (actions : List GuardAction) :
    ∀ state : GuardState, start.Follows time state.store →
      start.remaining time ((guardMachine guard clock).run state actions).1.store ⊆
        start.remaining time state.store := by
  induction actions with
  | nil => exact fun state _ => Finset.Subset.refl _
  | cons action rest ih =>
      intro state hfollows
      have hrest := ih ((guardMachine guard clock).step state action).1
        (hfollows.step guard clock action)
      exact hrest.trans (hfollows.remaining_step_subset guard clock action)

theorem NonceStore.Follows.remaining_subset_ahead {store : NonceStore}
    (hfollows : start.Follows time store) :
    start.remaining time store ⊆ start.ahead time store := fun pair hpair =>
  Finset.mem_filter.mpr ⟨hfollows.remaining_subset hpair, pair, hpair, le_rfl⟩

/-- In `start` itself nothing but what is due sorts before what is due. -/
theorem NonceStore.ahead_self_subset (start : NonceStore) (time : Instant) :
    start.ahead time start ⊆ start.dueBy time := by
  intro pair hpair
  obtain ⟨hmem, due, hremaining, hle⟩ := Finset.mem_filter.mp hpair
  have hdue := (Finset.mem_filter.mp (Finset.mem_filter.mp hremaining).1).2
  have hfst : (ofLex pair).1 ≤ (ofLex due).1 := Prod.Lex.monotone_fst_ofLex hle
  exact Finset.mem_filter.mpr ⟨hmem, hfst.trans hdue⟩

/-- A record that an action adds is dated late enough when its deadline is not
before any that was due in `start`. -/
def DatedAfter (guard : PaymentNonceReplayGuard) (start : NonceStore) (time : Instant)
    (action : GuardAction) : Prop :=
  ∀ now, action.reading = some now →
    ∀ pair ∈ start.dueBy time, (ofLex pair).1 ≤ now + guard.ttl

/-- Only ties join what is ahead. -/
theorem NonceStore.Follows.ahead_step_subset (hfollows : start.Follows time state.store)
    {action : GuardAction} (hdated : DatedAfter guard start time action) :
    start.ahead time ((guardMachine guard clock).step state action).1.store ⊆
      start.ahead time state.store ∪
        start.ties time state.store
          ((guardMachine guard clock).step state action).1.store := by
  intro pair hpair
  obtain ⟨hmem, due, hremaining, hle⟩ := Finset.mem_filter.mp hpair
  have hbefore := hfollows.remaining_step_subset guard clock action hremaining
  by_cases hold : pair ∈ state.store.expirations
  · exact Finset.mem_union_left _ (Finset.mem_filter.mpr ⟨hold, due, hbefore, hle⟩)
  · apply Finset.mem_union_right
    rcases mem_expirations_step guard clock hmem with h | ⟨now, hreading, hdeadline⟩
    · exact absurd h hold
    · have hlate := hdated now hreading due (Finset.mem_filter.mp hremaining).1
      have hne : pair ≠ due := by
        rintro rfl
        exact hold (hfollows.remaining_subset hbefore)
      refine Finset.mem_filter.mpr
        ⟨Finset.mem_sdiff.mpr ⟨hmem, hold⟩, due, hremaining, ?_⟩
      rcases Prod.Lex.lt_iff.mp (lt_of_le_of_ne hle hne) with hless | htie
      · exact absurd (hdeadline ▸ hlate) (not_le.mpr hless)
      · exact htie

/-- While something that was due in `start` remains after a sweep, all that is
swept was ahead of it. -/
theorem NonceStore.ahead_union_swept_subset {store next : NonceStore} {now : Instant}
    (hindex : next.expirations = (store.expire now).expirations)
    (hback : start.remaining time next ⊆ start.remaining time store)
    {due : Instant ×ₗ String} (hdue : due ∈ start.remaining time next)
    (hleft : due ∈ next.expirations) :
    start.ahead time next ∪ store.toExpiryStore.swept now 64 ⊆ start.ahead time store := by
  intro pair hpair
  rcases Finset.mem_union.mp hpair with hahead | hswept
  · obtain ⟨hmem, other, hother, hle⟩ := Finset.mem_filter.mp hahead
    have hbefore : pair ∈ store.expirations :=
      ExpiryStore.sweep_expirations_subset now 64 _ (hindex ▸ hmem)
    exact Finset.mem_filter.mpr ⟨hbefore, other, hback hother, hle⟩
  · have hlt := ExpiryStore.lt_of_mem_swept pair hswept due (hindex ▸ hleft)
    exact Finset.mem_filter.mpr
      ⟨ExpiryStore.swept_subset now 64 _ hswept, due, hback hdue, hlt.le⟩

theorem NonceStore.disjoint_ahead_swept {store next : NonceStore} {now : Instant}
    (hindex : next.expirations = (store.expire now).expirations) :
    Disjoint (start.ahead time next) (store.toExpiryStore.swept now 64) := by
  rw [Finset.disjoint_left]
  intro pair hpair hswept
  have hkept : pair ∈ (store.expire now).expirations :=
    hindex ▸ (Finset.mem_filter.mp hpair).1
  exact absurd (ExpiryStore.lt_of_mem_swept pair hswept pair hkept) (lt_irrefl _)

/-- An admission that leaves something due has swept 64 records, all of them
ahead of it. -/
theorem NonceStore.Follows.ahead_reserve (hfollows : start.Follows time state.store) {key : String}
    {now : Instant} (hnow : time ≤ now)
    (hremains : (start.remaining time ((guardMachine guard clock).step state
      (.reserveKey key now)).1.store).Nonempty) :
    (start.ahead time ((guardMachine guard clock).step state
        (.reserveKey key now)).1.store).card + 64 ≤
      (start.ahead time state.store).card := by
  have hnext := hfollows.step guard clock (.reserveKey key now)
  have hback := hfollows.remaining_step_subset guard clock (.reserveKey key now)
  have hindex : ((guardMachine guard clock).step state
      (.reserveKey key now)).1.store.expirations =
        (state.store.expire now).expirations := by
    rw [step_reserveKey_store, expirations_reserveKey]
  generalize ((guardMachine guard clock).step state (.reserveKey key now)).1.store = next
    at hremains hnext hback hindex ⊢
  obtain ⟨due, hdue⟩ := hremains
  have hleft := hnext.remaining_subset hdue
  have hdeadline := (Finset.mem_filter.mp (Finset.mem_filter.mp hdue).1).2
  have hbudget : (state.store.toExpiryStore.swept now 64).card = 64 :=
    ExpiryStore.card_swept_of_due (hindex ▸ hleft) (hdeadline.trans hnow)
  calc (start.ahead time next).card + 64
      = (start.ahead time next ∪ state.store.toExpiryStore.swept now 64).card := by
        rw [Finset.card_union_of_disjoint (NonceStore.disjoint_ahead_swept hindex), hbudget]
    _ ≤ (start.ahead time state.store).card :=
        Finset.card_le_card (NonceStore.ahead_union_swept_subset hindex hback hdue hleft)

/-- What a step does to the records ahead, unless nothing remains. -/
theorem NonceStore.Follows.ahead_step (hfollows : start.Follows time state.store)
    {action : GuardAction} (hdated : DatedAfter guard start time action) :
    start.remaining time ((guardMachine guard clock).step state action).1.store = ∅ ∨
      (start.ahead time ((guardMachine guard clock).step state action).1.store).card +
          (if action.reservesFrom time then 64 else 0) ≤
        (start.ahead time state.store).card +
          (start.ties time state.store
            ((guardMachine guard clock).step state action).1.store).card := by
  rcases Finset.eq_empty_or_nonempty (start.remaining time
    ((guardMachine guard clock).step state action).1.store) with hnone | hremains
  · exact Or.inl hnone
  · right
    have hsteps := hfollows.ahead_step_subset guard clock hdated
    have hcard := (Finset.card_le_card hsteps).trans (Finset.card_union_le _ _)
    cases action with
    | reserveKey key now =>
        by_cases hnow : time ≤ now
        · have hswept := hfollows.ahead_reserve guard clock hnow hremains
          simp only [GuardAction.reservesFrom, hnow, decide_true, if_true]
          exact hswept.trans (Nat.le_add_right _ _)
        · simpa [GuardAction.reservesFrom, hnow] using hcard
    | retainOnDrop handle => exact hcard
    | release handle now => exact hcard
    | drop handle now => exact hcard
    | clear => exact hcard

/-- The potential of a whole run: each admission from `time` on pays for 64 of
the records ahead. -/
theorem NonceStore.Follows.ahead_run (hfollows : start.Follows time state.store)
    {actions : List GuardAction}
    (hdated : ∀ action ∈ actions, DatedAfter guard start time action) :
    start.remaining time ((guardMachine guard clock).run state actions).1.store = ∅ ∨
      (start.ahead time ((guardMachine guard clock).run state actions).1.store).card +
          64 * actions.countP (GuardAction.reservesFrom time) ≤
        (start.ahead time state.store).card +
          (guardMachine guard clock).total
            (fun state action => (start.ties time state.store
              ((guardMachine guard clock).step state action).1.store).card)
            state actions := by
  refine ((guardMachine guard clock).run_potential
    (P := fun state => start.Follows time state.store)
    (Q := DatedAfter guard start time)
    (fun state => start.remaining time state.store = ∅)
    (fun state => (start.ahead time state.store).card) _ _ 64 ?_ actions hdated
    state hfollows).2
  intro state action hfollows hdated
  refine ⟨hfollows.step guard clock action, fun hnone => ?_,
    hfollows.ahead_step guard clock hdated⟩
  exact Finset.subset_empty.mp (hnone ▸ hfollows.remaining_step_subset guard clock action)

end Reclaim

section Promise

variable (guard : PaymentNonceReplayGuard) (clock : MonotonicClock)

/-- How many records, over a run from `start`, tie with one due in `start` that
still remains when they are added. -/
def GuardState.tiesAlong (start : GuardState) (time : Instant) (rest : List GuardAction) : ℕ :=
  (guardMachine guard clock).total
    (fun state action => (start.store.ties time state.store
      ((guardMachine guard clock).step state action).1.store).card)
    start rest

/-- What bounded sweeping promises about the entries due in `start` at `time`, in
a run from there: every admission from then on reclaims 64 of them, ties aside,
none is reserved again before it is removed, and every sweep takes the least. -/
structure Reclaims (start : GuardState) (time : Instant) (rest : List GuardAction) :
    Prop where
  remaining_le :
    (start.store.remaining time ((guardMachine guard clock).run start rest).1.store).card ≤
      (start.store.dueBy time).card + start.tiesAlong guard clock time rest -
        64 * rest.countP (GuardAction.reservesFrom time)
  never_back : ∀ before after, rest = before ++ after →
    start.store.remaining time ((guardMachine guard clock).run start rest).1.store ⊆
      start.store.remaining time ((guardMachine guard clock).run start before).1.store
  not_reserved : ∀ before key now after, rest = before ++ .reserveKey key now :: after →
    let state := ((guardMachine guard clock).run start before).1
    ∀ pair ∈ start.store.remaining time (state.store.expire now), (ofLex pair).2 = key →
      ((guardMachine guard clock).step state (.reserveKey key now)).2 =
        [.refused key now (.replayDetected key)]
  sweeps_least : ∀ before key now after, rest = before ++ .reserveKey key now :: after →
    let state := ((guardMachine guard clock).run start before).1
    state.store.SweepsLeast
      ((guardMachine guard clock).step state (.reserveKey key now)).1.store now

/-- Of the readings in a run, each that a record of `first` is dated by comes
before each that a record of `rest` is dated by. -/
theorem exists_reading_before {r : Instant → Instant → Prop} {first rest : List GuardAction}
    (hclock : ((first ++ rest).filterMap GuardAction.reading).Pairwise r)
    {action : GuardAction} (haction : action ∈ rest) {now : Instant}
    (hreading : action.reading = some now) {pair : Instant ×ₗ String}
    (hpair : pair ∈
      ((guardMachine guard clock).run GuardState.initial first).1.store.expirations) :
    ∃ earlier, r earlier now ∧ (ofLex pair).1 = earlier + guard.ttl := by
  obtain ⟨earlier, hearlier, hdeadline⟩ :=
    exists_reading_of_mem_expirations guard clock first pair hpair
  rw [List.filterMap_append, List.pairwise_append] at hclock
  have hnow : now ∈ rest.filterMap GuardAction.reading :=
    List.mem_filterMap.mpr ⟨action, haction, hreading⟩
  exact ⟨earlier, hclock.2.2 earlier hearlier now hnow, hdeadline⟩

/-- When the clock does not run backwards, whatever a later drop retains is dated
no earlier than all that was retained before. -/
theorem datedAfter_of_clock {first rest : List GuardAction}
    (hclock : ((first ++ rest).filterMap GuardAction.reading).Pairwise (· ≤ ·))
    (time : Instant) :
    ∀ action ∈ rest, DatedAfter guard
      ((guardMachine guard clock).run GuardState.initial first).1.store time action := by
  intro action haction now hreading pair hpair
  obtain ⟨earlier, hle, hdeadline⟩ := exists_reading_before guard clock hclock haction
    hreading (Finset.mem_filter.mp hpair).1
  rw [hdeadline]
  exact Nat.add_le_add_right hle _

/-- From every reachable state of the guard, and under every later run whose
clock does not run backwards, its admissions reclaim what is due. -/
theorem sweeps_reclaim (first rest : List GuardAction) (time : Instant)
    (hclock : ((first ++ rest).filterMap GuardAction.reading).Pairwise (· ≤ ·)) :
    Reclaims guard clock ((guardMachine guard clock).run GuardState.initial first).1
      time rest := by
  have hdated := datedAfter_of_clock guard clock hclock time
  have hfollows := (guardMachine_run_invariant guard clock first).follows time
  generalize ((guardMachine guard clock).run GuardState.initial first).1 = start
    at hdated hfollows ⊢
  have hreached : ∀ before, start.store.Follows time
      ((guardMachine guard clock).run start before).1.store :=
    (guardMachine guard clock).run_invariant
      (P := fun state => start.store.Follows time state.store) hfollows
      (fun state action hstate => hstate.step guard clock action)
  constructor
  · rcases hfollows.ahead_run guard clock hdated with hnone | hspent
    · rw [hnone, Finset.card_empty]
      exact Nat.zero_le _
    · have hahead := Finset.card_le_card (hreached rest).remaining_subset_ahead
      have hdue := Finset.card_le_card (start.store.ahead_self_subset time)
      rw [GuardState.tiesAlong]
      omega
  · rintro before after rfl
    rw [Machine.run_append]
    exact NonceStore.Follows.remaining_run_subset guard clock after _ (hreached before)
  · rintro before key now after - state pair hpair rfl
    obtain ⟨hdue, hsame⟩ := Finset.mem_filter.mp hpair
    obtain ⟨entry, hentry, _⟩ := hfollows pair hdue
    exact step_reserveKey_of_lookup guard clock (hsame.trans hentry)
  · intro before key now after _ state
    rw [step_reserveKey_store]
    exact reserveKey_sweepsLeast guard state.store key now

/-- No two retaining drops read the same instant: then nothing ties. -/
theorem tiesAlong_eq_zero {first rest : List GuardAction}
    (hclock : ((first ++ rest).filterMap GuardAction.reading).Pairwise (· < ·))
    (time : Instant) :
    ((guardMachine guard clock).run GuardState.initial first).1.tiesAlong guard clock
      time rest = 0 := by
  refine (guardMachine guard clock).total_eq_zero
    (Q := fun action => action ∈ rest) ?_ rest (fun _ haction => haction) _
  intro state action haction
  rw [Finset.card_eq_zero, NonceStore.ties, Finset.filter_eq_empty_iff]
  rintro pair hpair ⟨due, hremaining, htie, _⟩
  obtain ⟨hmem, hnew⟩ := Finset.mem_sdiff.mp hpair
  have hdue := (Finset.mem_filter.mp (Finset.mem_filter.mp hremaining).1).1
  rcases mem_expirations_step guard clock hmem with hold | ⟨now, hreading, hdeadline⟩
  · exact hnew hold
  · obtain ⟨earlier, hlt, hdeadline'⟩ :=
      exists_reading_before guard clock hclock haction hreading hdue
    rw [hdeadline, hdeadline'] at htie
    exact absurd (Nat.add_right_cancel htie) hlt.ne'

end Promise

namespace SweepWitness

def guard : PaymentNonceReplayGuard := .new 100 1

def clock : MonotonicClock := ⟨Duration.fromSecs 100⟩

/-- The keys of the entries that expire together. -/
def key (i : ℕ) : String := String.ofList (List.replicate (i + 1) 'a')

theorem key_injective : Function.Injective key := by
  intro i j heq
  have hlists := congrArg String.toList heq
  simp only [key, String.toList_ofList] at hlists
  simpa using congrArg List.length hlists

theorem key_ne_empty (i : ℕ) : key i ≠ "" := by
  intro heq
  have hlists := congrArg String.toList heq
  simp [key] at hlists

theorem not_lt_empty (text : String) : ¬text < "" := by
  rw [String.lt_iff_toList_lt]
  exact List.not_lt_nil _

/-- Reserve a key at instant zero and retain it at once. -/
def recording (key : String) (generation : Generation) : List GuardAction :=
  [.reserveKey key 0, .retainOnDrop ⟨key, generation, false⟩, .drop ⟨key, generation, true⟩ 0]

def filling (count : ℕ) : List GuardAction :=
  (List.range count).flatMap fun i => recording (key i) i

/-- The entries of the first `count` keys, all of them retained since instant
zero. -/
structure Filled (count : ℕ) (state : GuardState) : Prop where
  handles : state.handles = []
  allocated : state.store.allocated = count
  keys : state.store.entries.keys = (Finset.range count).image key
  expirations : state.store.expirations =
    (Finset.range count).image fun i => toLex (guard.ttl, key i)

section Filled

variable {count : ℕ} {state : GuardState}

theorem Filled.size (hfilled : Filled count state) : state.store.size = count := by
  rw [ExpiryStore.size, hfilled.keys, Finset.card_image_of_injective _ key_injective,
    Finset.card_range]

/-- Nothing is due at instant zero. -/
theorem Filled.expire (hfilled : Filled count state) : state.store.expire 0 = state.store := by
  have hlater : ∀ pair ∈ state.store.expirations, 0 < (ofLex pair).1 := by
    intro pair hpair
    rw [hfilled.expirations] at hpair
    obtain ⟨i, _, rfl⟩ := Finset.mem_image.mp hpair
    exact guard.ttl_pos
  rw [NonceStore.expire, ExpiryStore.sweep_of_not_due hlater]

/-- A key of none of the entries is reserved, and nothing is swept. -/
theorem Filled.reserve (hfilled : Filled count state) (hcount : count < 100) {fresh : String}
    (hfresh : ∀ i < count, fresh ≠ key i) :
    (guardMachine guard clock).step state (.reserveKey fresh 0) =
      (⟨state.store.occupy fresh, [⟨fresh, count, false⟩]⟩, [.reserved fresh 0 count]) := by
  have hkey : fresh ∉ state.store.entries := by
    rw [← Finmap.mem_keys, hfilled.keys]
    intro hmem
    obtain ⟨i, hi, heq⟩ := Finset.mem_image.mp hmem
    exact hfresh i (Finset.mem_range.mp hi) heq.symm
  have hroom : ¬guard.maxCapacity ≤ state.store.size := by
    rw [hfilled.size]
    exact not_le.mpr hcount
  simp [guardMachine, GuardState.step, PaymentNonceReplayGuard.reserveKey, hfilled.expire,
    hkey, hroom, hfilled.handles, hfilled.allocated]

/-- Once its handle is dropped with its flag set, the new entry is retained. -/
theorem Filled.drop (hfilled : Filled count state) (fresh : String) :
    guard.drop clock (state.store.occupy fresh) ⟨fresh, count, true⟩ 0 =
      (state.store.occupy fresh).retainUntil fresh guard.ttl := by
  have hadd : clock.checkedAdd 0 guard.ttl = some guard.ttl := by decide
  have hstored : (⟨fresh, count, true⟩ : PaymentNonceReservation).Stored
      (state.store.occupy fresh) := by
    rw [PaymentNonceReservation.Stored, NonceStore.lookup_occupy_self, hfilled.allocated]
  simp [PaymentNonceReplayGuard.drop, hstored, hadd]

theorem Filled.record (hfilled : Filled count state) (hcount : count < 100) {fresh : String}
    (hfresh : ∀ i < count, fresh ≠ key i) :
    ((guardMachine guard clock).run state (recording fresh count)).1 =
      ⟨(state.store.occupy fresh).retainUntil fresh guard.ttl, []⟩ := by
  rw [recording, Machine.run_cons, hfilled.reserve hcount hfresh]
  simp [Machine.run_cons, guardMachine, GuardState.step, GuardState.letGo,
    PaymentNonceReservation.retainOnDrop, hfilled.drop]

theorem Filled.next (hfilled : Filled count state) (hcount : count < 100) :
    Filled (count + 1)
      ((guardMachine guard clock).run state (recording (key count) count)).1 := by
  have hfresh : ∀ i < count, key count ≠ key i :=
    fun i hi heq => absurd (key_injective heq) hi.ne'
  rw [hfilled.record hcount hfresh]
  constructor
  · rfl
  · simp [hfilled.allocated]
  · simp [NonceStore.occupy, keys_finmap_insert, hfilled.keys, Finset.range_add_one]
  · simp [NonceStore.retainUntil, hfilled.expirations, Finset.range_add_one]

theorem filled_filling (hcount : count ≤ 100) :
    Filled count ((guardMachine guard clock).run GuardState.initial (filling count)).1 := by
  induction count with
  | zero => constructor <;> simp [filling, GuardState.initial, NonceStore.empty]
  | succ count ih =>
      have hfilled := ih (Nat.le_of_succ_le hcount)
      have hsplit : filling (count + 1) = filling count ++ recording (key count) count := by
        simp [filling, List.range_succ]
      simp only [hsplit, Machine.run_append]
      exact hfilled.next (Nat.lt_of_succ_le hcount)

/-- A reservation that is not retained yet leaves what is due as it is. -/
theorem Filled.dueBy_occupy (hfilled : Filled count state) (fresh : String) :
    (state.store.occupy fresh).dueBy guard.ttl =
      (Finset.range count).image fun i => toLex (guard.ttl, key i) := by
  rw [NonceStore.dueBy, NonceStore.occupy_expirations, hfilled.expirations,
    Finset.filter_eq_self]
  intro pair hpair
  obtain ⟨i, _, rfl⟩ := Finset.mem_image.mp hpair
  exact le_rfl

theorem Filled.card_dueBy (hfilled : Filled count state) (fresh : String) :
    ((state.store.occupy fresh).dueBy guard.ttl).card = count := by
  have hinjective : Function.Injective fun i => toLex (guard.ttl, key i) :=
    fun i j heq => key_injective (Prod.mk.inj (toLex_inj.mp heq)).2
  rw [hfilled.dueBy_occupy, Finset.card_image_of_injective _ hinjective, Finset.card_range]

/-- The entries with one more, retained at instant zero too, under the least key
of all. -/
def tied (store : NonceStore) : NonceStore := (store.occupy "").retainUntil "" guard.ttl

theorem Filled.deadline_tied (hfilled : Filled count state) :
    ∀ pair ∈ (tied state.store).expirations, pair = toLex (guard.ttl, (ofLex pair).2) := by
  intro pair hpair
  rcases Finset.mem_insert.mp hpair with rfl | hpair
  · rfl
  · rw [NonceStore.occupy_expirations, hfilled.expirations] at hpair
    obtain ⟨i, _, rfl⟩ := Finset.mem_image.mp hpair
    rfl

/-- If none of the entries remains after an admission, its sweep took them all. -/
theorem Filled.dueBy_subset_swept (hfilled : Filled count state)
    (hnone : (state.store.occupy "").remaining guard.ttl
      (guard.reserveKey (tied state.store) "later" guard.ttl).2 = ∅) :
    (state.store.occupy "").dueBy guard.ttl ⊆
      (tied state.store).toExpiryStore.swept guard.ttl 64 := by
  intro pair hpair
  rw [NonceStore.remaining, Finset.filter_eq_empty_iff] at hnone
  have hchanged := hnone hpair
  rw [hfilled.dueBy_occupy] at hpair
  obtain ⟨i, hi, rfl⟩ := Finset.mem_image.mp hpair
  have hmem : key i ∈ state.store.entries.keys := by
    rw [hfilled.keys]
    exact Finset.mem_image_of_mem _ hi
  have hremoved : key i ∈
      (tied state.store).removed (guard.reserveKey (tied state.store) "later" guard.ttl).2 := by
    refine Finset.mem_filter.mpr ⟨?_, hchanged⟩
    simpa [tied, NonceStore.occupy, keys_finmap_insert] using Or.inr hmem
  obtain ⟨other, hother, hkey⟩ := mem_swept_of_mem_removed guard hremoved
  have hsame := hfilled.deadline_tied other (ExpiryStore.swept_subset guard.ttl 64 _ hother)
  rw [hkey] at hsame
  exact hsame ▸ hother

/-- A later record with the least key of all takes the place of one of 64. -/
theorem Filled.remaining_tied (hfilled : Filled 64 state) :
    ((state.store.occupy "").remaining guard.ttl
      (guard.reserveKey (tied state.store) "later" guard.ttl).2).Nonempty := by
  by_contra hnone
  rw [Finset.not_nonempty_iff_eq_empty] at hnone
  -- The sweep takes just the 64, but the least pair of the index is none of them.
  have hall := Finset.eq_of_subset_of_card_le (hfilled.dueBy_subset_swept hnone)
    ((ExpiryStore.card_swept_le guard.ttl 64 _).trans (hfilled.card_dueBy "").ge)
  rw [hfilled.dueBy_occupy] at hall
  have hleast : toLex (guard.ttl, "") ∈
      ((tied state.store).toExpiryStore.sweep guard.ttl 64).expirations := by
    rw [ExpiryStore.expirations_sweep, ← hall, Finset.mem_sdiff]
    refine ⟨Finset.mem_insert_self _ _, fun hmem => ?_⟩
    obtain ⟨i, _, heq⟩ := Finset.mem_image.mp hmem
    exact key_ne_empty i (Prod.mk.inj (toLex_inj.mp heq)).2
  have hfirst : toLex (guard.ttl, key 0) ∈
      (tied state.store).toExpiryStore.swept guard.ttl 64 := by
    rw [← hall]
    exact Finset.mem_image_of_mem _ (Finset.mem_range.mpr (by decide))
  rcases Prod.Lex.lt_iff.mp (ExpiryStore.lt_of_mem_swept _ hfirst _ hleast) with hlt | ⟨_, hlt⟩
  · exact lt_irrefl _ hlt
  · exact not_lt_empty _ hlt

end Filled

/-- 64 entries retained at instant zero, and the handle of the least key of all. -/
def first : List GuardAction :=
  filling 64 ++ [.reserveKey "" 0, .retainOnDrop ⟨"", 64, false⟩]

/-- The handle is dropped at instant zero as well; then an admission comes when
everything is due. -/
def rest : List GuardAction :=
  [.drop ⟨"", 64, true⟩ 0, .reserveKey "later" guard.ttl]

/-- What each action reads of the clock. -/
def time : GuardAction → Option Instant
  | .reserveKey _ now => some now
  | .release _ now => some now
  | .drop _ now => some now
  | _ => none

/-- The state that `first` reaches has the entries, and the handle. -/
theorem first_reaches : ∃ state, Filled 64 state ∧
    ((guardMachine guard clock).run GuardState.initial first).1 =
      ⟨state.store.occupy "", [⟨"", 64, true⟩]⟩ := by
  have hfilled := filled_filling (show 64 ≤ 100 by decide)
  refine ⟨_, hfilled, ?_⟩
  simp only [first, Machine.run_append, Machine.run_cons,
    hfilled.reserve (show 64 < 100 by decide) fun i _ => (key_ne_empty i).symm]
  simp [guardMachine, GuardState.step, PaymentNonceReservation.retainOnDrop]

theorem card_dueBy_first : (((guardMachine guard clock).run GuardState.initial first).1.store.dueBy
    guard.ttl).card = 64 := by
  obtain ⟨state, hfilled, hstart⟩ := first_reaches
  rw [hstart]
  exact hfilled.card_dueBy ""

/-- One of the 64 is still there after the admission. -/
theorem remaining_rest :
    (((guardMachine guard clock).run GuardState.initial first).1.store.remaining guard.ttl
      ((guardMachine guard clock).run
        ((guardMachine guard clock).run GuardState.initial first).1 rest).1.store).Nonempty := by
  obtain ⟨state, hfilled, hstart⟩ := first_reaches
  have hrun : ((guardMachine guard clock).run
      ⟨state.store.occupy "", [⟨"", 64, true⟩]⟩ rest).1.store =
        (guard.reserveKey (tied state.store) "later" guard.ttl).2 := by
    rw [tied, ← hfilled.drop ""]
    exact run_drop_reserveKey guard clock (List.mem_singleton_self _) 0 "later" guard.ttl
  rw [hstart, hrun]
  exact hfilled.remaining_tied

theorem countP_rest : rest.countP (GuardAction.reservesFrom guard.ttl) = 1 := by
  simp [rest, GuardAction.reservesFrom]

/-- 64 entries are due, one admission comes, and one of them remains. -/
theorem tied_reclaims_fewer :
    ((first ++ rest).filterMap time).Pairwise (· ≤ ·) ∧
      ¬(((guardMachine guard clock).run GuardState.initial first).1.store.remaining guard.ttl
          ((guardMachine guard clock).run
            ((guardMachine guard clock).run GuardState.initial first).1 rest).1.store).card ≤
        (((guardMachine guard clock).run GuardState.initial first).1.store.dueBy
            guard.ttl).card -
          64 * rest.countP (GuardAction.reservesFrom guard.ttl) := by
  refine ⟨by decide +kernel, ?_⟩
  rw [card_dueBy_first, countP_rest]
  exact not_le.mpr (Finset.card_pos.mpr remaining_rest)

/-- The newcomer is a tie, and with it the bound allows for the one that remains. -/
theorem tied_reclaims :
    0 < ((guardMachine guard clock).run GuardState.initial first).1.tiesAlong guard clock
        guard.ttl rest ∧
      Reclaims guard clock ((guardMachine guard clock).run GuardState.initial first).1
        guard.ttl rest := by
  have hreclaims := sweeps_reclaim guard clock first rest guard.ttl (by decide +kernel)
  refine ⟨?_, hreclaims⟩
  have hremaining := Finset.card_pos.mpr remaining_rest
  have hle := hreclaims.remaining_le
  rw [card_dueBy_first, countP_rest] at hle
  omega

end SweepWitness

end KiteX402
