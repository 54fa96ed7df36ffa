/-
No reservation outlives its request: what the replay guard keeps without a
deadline is held by a request at the gate, and what a request holds is kept.
-/
import KiteX402.GateSystem

namespace KiteX402

theorem NonceStore.mem_expire_expirations {store : NonceStore} {now deadline : Instant}
    {key : String} {entry : NonceEntry}
    (hentry : (store.expire now).entries.lookup key = some entry)
    (hrecord : toLex (deadline, key) ∈ store.expirations) :
    toLex (deadline, key) ∈ (store.expire now).expirations := by
  by_contra hgone
  have hswept : toLex (deadline, key) ∈ store.toExpiryStore.swept now 64 :=
    Finset.mem_sdiff.mpr ⟨hrecord, hgone⟩
  have hnone : (store.expire now).entries.lookup key = none :=
    ExpiryStore.lookup_sweep_of_mem_swept _ hswept
  rw [hnone] at hentry
  contradiction

/-- There is a time after which the entry under `key` may be swept. -/
def NonceStore.Dated (store : NonceStore) (key : String) : Prop :=
  ∃ deadline, toLex (deadline, key) ∈ store.expirations

/-- The drop of a retained handle found no representable time to keep its entry
until; such an entry stays for good. -/
def Undated (guard : PaymentNonceReplayGuard) (clock : MonotonicClock)
    (events : List GuardEvent) (key : String) (entry : NonceEntry) : Prop :=
  ∃ ended, .dropped ⟨key, entry.generation, true⟩ ended ∈ events ∧
    clock.checkedAdd ended guard.ttl = none

/-- Every entry of the store has a deadline, or is that of the handle `held`, or is
accounted for otherwise. -/
def KeptFor (store : NonceStore) (held : Option PaymentNonceReservation)
    (others : String → NonceEntry → Prop) : Prop :=
  ∀ key entry, store.entries.lookup key = some entry →
    store.Dated key ∨ (∃ retain, held = some ⟨key, entry.generation, retain⟩) ∨ others key entry

section Entries

variable {guard : PaymentNonceReplayGuard} {clock : MonotonicClock} {store store' : NonceStore}
  {others : String → NonceEntry → Prop}

theorem KeptFor.expire {held : Option PaymentNonceReservation} (hkept : KeptFor store held others)
    (now : Instant) : KeptFor (store.expire now) held others := by
  intro key entry hentry
  refine (hkept key entry (ExpiryStore.lookup_of_lookup_sweep hentry)).imp_left ?_
  rintro ⟨deadline, hrecord⟩
  exact ⟨deadline, NonceStore.mem_expire_expirations hentry hrecord⟩

theorem KeptFor.occupy (hkept : KeptFor store none others) (own : String) :
    KeptFor (store.occupy own) (some ⟨own, store.allocated, false⟩) others := by
  intro key entry hentry
  by_cases hkey : key = own
  · subst hkey
    rw [NonceStore.lookup_occupy_self, Option.some_inj] at hentry
    subst hentry
    exact Or.inr (Or.inl ⟨false, rfl⟩)
  · rw [NonceStore.lookup_occupy_of_ne hkey] at hentry
    rcases hkept key entry hentry with hdated | ⟨_, hnone⟩ | hother
    · exact Or.inl hdated
    · contradiction
    · exact Or.inr (Or.inr hother)

/-- A drop takes the entry out, gives it a deadline, or finds none. -/
theorem KeptFor.drop {handle : PaymentNonceReservation}
    (hkept : KeptFor store (some handle) others) (flag : Bool) (now : Instant) :
    KeptFor (guard.drop clock store { handle with retain := flag } now) none
      fun key entry => others key entry ∨ Undated guard clock
        [.dropped { handle with retain := flag } now] key entry := by
  have hbefore : ∀ key entry, store.entries.lookup key = some entry →
      store.Dated key ∨ (key = handle.key ∧ entry = ⟨handle.generation⟩) ∨ others key entry := by
    intro key entry hentry
    refine (hkept key entry hentry).imp_right (Or.imp_left ?_)
    rintro ⟨retain, heq⟩
    rw [Option.some.inj heq]
    exact ⟨rfl, rfl⟩
  intro key entry hentry
  rcases guard.drop_cases clock store { handle with retain := flag } now with
    ⟨hnot, hdrop⟩ | ⟨_, _, hdrop⟩ | ⟨_, hflag, hnone, hdrop⟩ | ⟨deadline, _, _, _, hdrop⟩ <;>
    rw [hdrop] at hentry ⊢
  · rcases hbefore key entry hentry with hdated | ⟨rfl, rfl⟩ | hother
    · exact Or.inl hdated
    · exact absurd hentry hnot
    · exact Or.inr (Or.inr (Or.inl hother))
  · have hne : key ≠ handle.key := by
      rintro rfl
      rw [NonceStore.lookup_remove_self] at hentry
      contradiction
    rw [NonceStore.lookup_remove_of_ne hne] at hentry
    rcases hbefore key entry hentry with hdated | ⟨heq, _⟩ | hother
    · exact Or.inl hdated
    · exact absurd heq hne
    · exact Or.inr (Or.inr (Or.inl hother))
  · rcases hbefore key entry hentry with hdated | ⟨rfl, rfl⟩ | hother
    · exact Or.inl hdated
    · refine Or.inr (Or.inr (Or.inr ⟨now, ?_, hnone⟩))
      rw [← hflag]
      exact List.mem_singleton_self _
    · exact Or.inr (Or.inr (Or.inl hother))
  · rw [NonceStore.retainUntil_entries] at hentry
    rcases hbefore key entry hentry with ⟨due, hrecord⟩ | ⟨rfl, rfl⟩ | hother
    · exact Or.inl ⟨due, NonceStore.mem_retainUntil_expirations.mpr (Or.inr hrecord)⟩
    · exact Or.inl ⟨deadline, NonceStore.mem_retainUntil_expirations.mpr (Or.inl ⟨rfl, rfl⟩)⟩
    · exact Or.inr (Or.inr (Or.inl hother))

variable {key : Option String} {now reserveAt : Instant}
  {held held' : Option PaymentNonceReservation} {events : List GuardEvent}

theorem GuardEffect.keptFor
    (heffect : GuardEffect guard clock key store now reserveAt held held' store' events)
    (hkept : KeptFor store held others) :
    KeptFor store' held' fun key entry => others key entry ∨ Undated guard clock events key entry := by
  have hmore : ∀ {store held}, KeptFor store held others →
      KeptFor store held fun key entry => others key entry ∨ Undated guard clock events key entry :=
    fun hkept key entry hentry => (hkept key entry hentry).imp_right (Or.imp_right Or.inl)
  cases heffect with
  | idle => exact hmore hkept
  | retained handle =>
      refine hmore fun key entry hentry => ?_
      refine (hkept key entry hentry).imp_right (Or.imp_left ?_)
      rintro ⟨retain, heq⟩
      rw [Option.some.inj heq]
      exact ⟨true, rfl⟩
  | reserved own hkey hown hroom => exact hmore ((hkept.expire reserveAt).occupy own)
  | refused own error hkey hrefused => exact hmore (hkept.expire reserveAt)
  | letGo handle flag hflag => exact hkept.drop flag now

/-- The handle that a request holds stays stored through its own steps. -/
theorem GuardEffect.stored_own
    (heffect : GuardEffect guard clock key store now reserveAt held held' store' events)
    (hstored : ∀ handle, held = some handle → handle.Stored store)
    {handle : PaymentNonceReservation} (hheld' : held' = some handle) : handle.Stored store' := by
  cases heffect with
  | idle => exact hstored handle hheld'
  | retained own =>
      cases hheld'
      exact hstored own rfl
  | reserved own =>
      cases hheld'
      exact NonceStore.lookup_occupy_self _ _
  | refused => contradiction
  | letGo => contradiction

/-- And so do the handles of the others. -/
theorem GuardEffect.stored_other
    (heffect : GuardEffect guard clock key store now reserveAt held held' store' events)
    {handles : List PaymentNonceReservation} (hinv : GuardInvariant guard store handles)
    (hheld : ∀ handle, held = some handle → handle ∈ handles)
    {other : PaymentNonceReservation} (hother : other ∈ handles)
    (hne : ∀ handle, held = some handle → other ≠ handle) (hstored : other.Stored store) :
    other.Stored store' := by
  cases heffect with
  | idle | retained => exact hstored
  | reserved own hkey hown hroom =>
      exact GuardInvariant.stored_occupy hown (hinv.stored_expire hother hstored _)
  | refused => exact hinv.stored_expire hother hstored _
  | letGo handle flag hflag =>
      have hleft := (List.mem_erase_of_ne (hne handle rfl)).mpr hother
      exact hinv.stored_drop clock (hheld handle rfl) hleft hstored flag _

end Entries

section System

variable {sys : GateSystem}

/-- A request other than `i` holds the entry. -/
def HeldApart (phases : ℕ → GatePhase) (i : ℕ) (key : String) (entry : NonceEntry) : Prop :=
  ∃ j retain, j ≠ i ∧ (phases j).reservation = some ⟨key, entry.generation, retain⟩

/-- The pending entries of the guard are the reservations of the requests at the
gate, no more and no less. -/
structure NoneLeaked (sys : GateSystem) (state : SystemState) (events : List SystemEvent) :
    Prop where
  entries : ∀ key entry, state.world.store.entries.lookup key = some entry →
    state.world.store.Dated key ∨
      (∃ i retain, (state.phases i).reservation = some ⟨key, entry.generation, retain⟩) ∨
      Undated sys.guard sys.rt.clock (guardTrace events) key entry
  held : ∀ i handle, (state.phases i).reservation = some handle →
    handle.Stored state.world.store ∧ ¬state.world.store.Dated handle.key

theorem NoneLeaked.start (sys : GateSystem) (metrics : PaymentMetrics) (clock : Instant) :
    NoneLeaked sys (.start ⟨NonceStore.empty, metrics⟩ clock) [] where
  entries key entry hentry := by
    have hnone : NonceStore.empty.entries.lookup key = none := Finmap.lookup_empty key
    rw [SystemState.start, hnone] at hentry
    contradiction
  held i handle hheld := by
    rw [SystemState.start] at hheld
    contradiction

variable {prior : List GuardEvent} {state : SystemState} {events : List SystemEvent}

/-- What any request holds after a step is stored and without a deadline. -/
theorem NoneLeaked.held_step (hleaked : NoneLeaked sys state events)
    (hinv : SystemInvariant sys prior state events) (action : SystemAction) :
    let next := (systemMachine sys).step state action
    ∀ i handle, (next.1.phases i).reservation = some handle →
      handle.Stored next.1.world.store ∧ ¬next.1.world.store.Dated handle.key := by
  intro next
  obtain ⟨handles', hprotects', hmem'⟩ := (hinv.step action).guarded
  have hundated : ∀ i handle, (next.1.phases i).reservation = some handle →
      handle.Stored next.1.world.store → ¬next.1.world.store.Dated handle.key := by
    rintro i handle hheld hstored ⟨deadline, hrecord⟩
    exact hprotects'.invariant.not_mem_expirations (hmem' i handle hheld) hstored deadline hrecord
  suffices hstored : ∀ i handle, (next.1.phases i).reservation = some handle →
      handle.Stored next.1.world.store from
    fun i handle hheld => ⟨hstored i handle hheld, hundated i handle hheld (hstored i handle hheld)⟩
  obtain ⟨handles, hprotects, hmem⟩ := hinv.guarded
  obtain ⟨reserveAt, _, heffect⟩ := systemMove_effect sys state action
  have hbefore := fun i handle hheld => (hleaked.held i handle hheld).1
  intro i handle hheld
  simp only [next, systemMachine] at hheld ⊢
  by_cases hi : i = action.request
  · subst hi
    rw [Function.update_self] at hheld
    exact heffect.stored_own (hbefore _) hheld
  · rw [Function.update_of_ne hi] at hheld
    refine heffect.stored_other hprotects.invariant (hmem _) (hmem i handle hheld) ?_
      (hbefore i handle hheld)
    rintro own hown rfl
    exact hi (hinv.owners i action.request handle handle hheld hown rfl)

theorem NoneLeaked.entries_step (hleaked : NoneLeaked sys state events) (action : SystemAction) :
    let next := (systemMachine sys).step state action
    ∀ key entry, next.1.world.store.entries.lookup key = some entry →
      next.1.world.store.Dated key ∨
        (∃ i retain, (next.1.phases i).reservation = some ⟨key, entry.generation, retain⟩) ∨
        Undated sys.guard sys.rt.clock (guardTrace (events ++ next.2)) key entry := by
  obtain ⟨reserveAt, _, heffect⟩ := systemMove_effect sys state action
  have hkept : KeptFor state.world.store (state.phases action.request).reservation
      fun key entry => HeldApart state.phases action.request key entry ∨
        Undated sys.guard sys.rt.clock (guardTrace events) key entry := by
    intro key entry hentry
    refine (hleaked.entries key entry hentry).imp_right ?_
    rintro (⟨i, retain, hheld⟩ | hundated)
    · by_cases hi : i = action.request
      · subst hi
        exact Or.inl ⟨retain, hheld⟩
      · exact Or.inr (Or.inl ⟨i, retain, hi, hheld⟩)
    · exact Or.inr (Or.inr hundated)
  intro next key entry hentry
  simp only [next, systemMachine] at hentry ⊢
  rw [guardTrace_append, guardTrace_stamp]
  rcases heffect.keptFor hkept key entry hentry with
    hdated | ⟨retain, hheld⟩ | (⟨j, retain, hj, hheld⟩ | ⟨ended, hmem, hnone⟩) |
      ⟨ended, hmem, hnone⟩
  · exact Or.inl hdated
  · exact Or.inr (Or.inl ⟨action.request, retain, by rw [Function.update_self]; exact hheld⟩)
  · exact Or.inr (Or.inl ⟨j, retain, by rw [Function.update_of_ne hj]; exact hheld⟩)
  · exact Or.inr (Or.inr ⟨ended, List.mem_append_left _ hmem, hnone⟩)
  · exact Or.inr (Or.inr ⟨ended, List.mem_append_right _ hmem, hnone⟩)

theorem noneLeaked_run (sys : GateSystem) (metrics : PaymentMetrics) (clock : Instant)
    (actions : List SystemAction) :
    let run := (systemMachine sys).run (.start ⟨NonceStore.empty, metrics⟩ clock) actions
    SystemInvariant sys [] run.1 run.2 ∧ NoneLeaked sys run.1 run.2 := by
  refine (systemMachine sys).run_induction
    (P := fun state events => SystemInvariant sys [] state events ∧ NoneLeaked sys state events)
    ⟨SystemInvariant.start (callMachine_run_protects sys.guard sys.rt.clock []) clock,
      .start sys metrics clock⟩ ?_ actions
  rintro state events action ⟨hinv, hleaked⟩
  exact ⟨hinv.step action, hleaked.entries_step action, hleaked.held_step hinv action⟩

end System

end KiteX402
