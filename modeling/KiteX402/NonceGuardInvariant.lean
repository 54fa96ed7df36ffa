/-
The representation invariant of the replay guard: its two containers and the
outstanding handles stay in step under every critical section, handles that
outlive a `clear` included.
-/
import KiteX402.Machine
import KiteX402.NonceGuard
import Mathlib.Data.List.Nodup

namespace KiteX402

/-- What ties the store to the handles that are still alive. -/
structure GuardInvariant (guard : PaymentNonceReplayGuard) (store : NonceStore)
    (handles : List PaymentNonceReservation) : Prop where
  size_le : store.size ≤ guard.maxCapacity
  handles_nodup : (handles.map PaymentNonceReservation.generation).Nodup
  handle_allocated : ∀ handle ∈ handles, handle.generation < store.allocated
  entry_allocated : ∀ key entry, store.entries.lookup key = some entry →
    entry.generation < store.allocated
  entry_unique : ∀ key other entry, store.entries.lookup key = some entry →
    store.entries.lookup other = some entry → key = other
  handle_key : ∀ handle ∈ handles, ∀ key,
    store.entries.lookup key = some ⟨handle.generation⟩ → key = handle.key
  record_entry : ∀ deadline key, toLex (deadline, key) ∈ store.expirations →
    ∃ entry, store.entries.lookup key = some entry ∧
      ∀ handle ∈ handles, handle.generation ≠ entry.generation
  record_unique : ∀ deadline due key,
    toLex (deadline, key) ∈ store.expirations →
    toLex (due, key) ∈ store.expirations → deadline = due

namespace GuardInvariant

variable {guard : PaymentNonceReplayGuard} {store : NonceStore}
  {handles : List PaymentNonceReservation}

theorem initial (guard : PaymentNonceReplayGuard) :
    GuardInvariant guard NonceStore.empty [] := by
  constructor <;> simp [NonceStore.empty, ExpiryStore.size]

/-- An expiry record that survives a sweep was not due, so its key was not
touched: no other record names it. -/
theorem lookup_expire_of_mem (hinv : GuardInvariant guard store handles)
    {now deadline : Instant} {key : String}
    (hmem : toLex (deadline, key) ∈ (store.expire now).expirations) :
    (store.expire now).entries.lookup key = store.entries.lookup key := by
  apply ExpiryStore.lookup_sweep_of_notMem_swept
  intro pair hpair hkey
  have hrest : toLex (deadline, key) ∈
      store.expirations \ store.toExpiryStore.swept now 64 := by
    rw [← ExpiryStore.expirations_sweep]
    exact hmem
  obtain ⟨hbefore, hkept⟩ := Finset.mem_sdiff.mp hrest
  have hpairMem : toLex ((ofLex pair).1, key) ∈ store.expirations := by
    rw [← hkey]
    exact ExpiryStore.swept_subset now 64 _ hpair
  have heq := hinv.record_unique _ _ _ hbefore hpairMem
  apply hkept
  rw [heq, ← hkey]
  exact hpair

theorem expire (hinv : GuardInvariant guard store handles) (now : Instant) :
    GuardInvariant guard (store.expire now) handles where
  size_le := (ExpiryStore.size_sweep_le now 64 _).trans hinv.size_le
  handles_nodup := hinv.handles_nodup
  handle_allocated := hinv.handle_allocated
  entry_allocated key entry h :=
    hinv.entry_allocated key entry (ExpiryStore.lookup_of_lookup_sweep h)
  entry_unique key other entry h h' :=
    hinv.entry_unique key other entry (ExpiryStore.lookup_of_lookup_sweep h)
      (ExpiryStore.lookup_of_lookup_sweep h')
  handle_key handle hhandle key h :=
    hinv.handle_key handle hhandle key (ExpiryStore.lookup_of_lookup_sweep h)
  record_entry deadline key hmem := by
    rw [hinv.lookup_expire_of_mem hmem]
    exact hinv.record_entry deadline key
      (ExpiryStore.sweep_expirations_subset now 64 _ hmem)
  record_unique deadline due key h h' :=
    hinv.record_unique deadline due key
      (ExpiryStore.sweep_expirations_subset now 64 _ h)
      (ExpiryStore.sweep_expirations_subset now 64 _ h')

/-- A fresh generation is new to the entries and to the handles alike. -/
theorem occupy (hinv : GuardInvariant guard store handles) {key : String}
    (hkey : key ∉ store.entries) (hroom : store.size < guard.maxCapacity) :
    GuardInvariant guard (store.occupy key)
      (⟨key, store.allocated, false⟩ :: handles) where
  size_le := by
    rw [NonceStore.size_occupy hkey]
    exact hroom
  handles_nodup := by
    rw [List.map_cons, List.nodup_cons]
    refine ⟨fun hmem => ?_, hinv.handles_nodup⟩
    obtain ⟨handle, hhandle, heq⟩ := List.mem_map.mp hmem
    exact absurd heq (hinv.handle_allocated handle hhandle).ne
  handle_allocated handle hhandle := by
    rcases List.mem_cons.mp hhandle with rfl | hhandle
    · exact Nat.lt_succ_self _
    · exact Nat.lt_succ_of_lt (hinv.handle_allocated handle hhandle)
  entry_allocated other entry h := by
    by_cases hother : other = key
    · subst hother
      rw [NonceStore.lookup_occupy_self, Option.some_inj] at h
      subst h
      exact Nat.lt_succ_self _
    · rw [NonceStore.lookup_occupy_of_ne hother] at h
      exact Nat.lt_succ_of_lt (hinv.entry_allocated other entry h)
  entry_unique first second entry h h' := by
    by_cases hfirst : first = key <;> by_cases hsecond : second = key
    · rw [hfirst, hsecond]
    · subst hfirst
      rw [NonceStore.lookup_occupy_self, Option.some_inj] at h
      rw [NonceStore.lookup_occupy_of_ne hsecond] at h'
      subst h
      exact absurd (hinv.entry_allocated second _ h') (lt_irrefl _)
    · subst hsecond
      rw [NonceStore.lookup_occupy_self, Option.some_inj] at h'
      rw [NonceStore.lookup_occupy_of_ne hfirst] at h
      subst h'
      exact absurd (hinv.entry_allocated first _ h) (lt_irrefl _)
    · rw [NonceStore.lookup_occupy_of_ne hfirst] at h
      rw [NonceStore.lookup_occupy_of_ne hsecond] at h'
      exact hinv.entry_unique first second entry h h'
  handle_key handle hhandle other h := by
    by_cases hother : other = key
    · subst hother
      rw [NonceStore.lookup_occupy_self, Option.some_inj, NonceEntry.mk.injEq] at h
      rcases List.mem_cons.mp hhandle with rfl | hhandle
      · rfl
      · exact absurd h.symm (hinv.handle_allocated handle hhandle).ne
    · rw [NonceStore.lookup_occupy_of_ne hother] at h
      rcases List.mem_cons.mp hhandle with rfl | hhandle
      · exact absurd (hinv.entry_allocated other _ h) (lt_irrefl _)
      · exact hinv.handle_key handle hhandle other h
  record_entry deadline other hmem := by
    obtain ⟨entry, hentry, hsettled⟩ := hinv.record_entry deadline other hmem
    have hother : other ≠ key := by
      rintro rfl
      exact hkey (Finmap.mem_of_lookup_eq_some hentry)
    refine ⟨entry, by rwa [NonceStore.lookup_occupy_of_ne hother], ?_⟩
    intro handle hhandle
    rcases List.mem_cons.mp hhandle with rfl | hhandle
    · exact (hinv.entry_allocated other entry hentry).ne'
    · exact hsettled handle hhandle
  record_unique := hinv.record_unique

/-- The invariant sees a handle only through its generation and its key. -/
theorem of_handles {handles' : List PaymentNonceReservation}
    (hinv : GuardInvariant guard store handles)
    (hnodup : (handles'.map PaymentNonceReservation.generation).Nodup)
    (hsame : ∀ handle' ∈ handles', ∃ handle ∈ handles,
      handle.generation = handle'.generation ∧ handle.key = handle'.key) :
    GuardInvariant guard store handles' where
  size_le := hinv.size_le
  handles_nodup := hnodup
  handle_allocated handle' hhandle' := by
    obtain ⟨handle, hhandle, hgen, _⟩ := hsame handle' hhandle'
    exact hgen ▸ hinv.handle_allocated handle hhandle
  entry_allocated := hinv.entry_allocated
  entry_unique := hinv.entry_unique
  handle_key handle' hhandle' key h := by
    obtain ⟨handle, hhandle, hgen, hkey⟩ := hsame handle' hhandle'
    exact hkey ▸ hinv.handle_key handle hhandle key (hgen ▸ h)
  record_entry deadline key hmem := by
    obtain ⟨entry, hentry, hsettled⟩ := hinv.record_entry deadline key hmem
    refine ⟨entry, hentry, fun handle' hhandle' => ?_⟩
    obtain ⟨handle, hhandle, hgen, _⟩ := hsame handle' hhandle'
    exact hgen ▸ hsettled handle hhandle
  record_unique := hinv.record_unique

theorem generation_notMem_erase (hinv : GuardInvariant guard store handles)
    {handle : PaymentNonceReservation} (hhandle : handle ∈ handles) :
    ∀ other ∈ handles.erase handle, other.generation ≠ handle.generation := by
  have hperm := List.perm_cons_erase hhandle
  have hnodup := (hperm.map PaymentNonceReservation.generation).nodup_iff.mp
    hinv.handles_nodup
  rw [List.map_cons, List.nodup_cons] at hnodup
  intro other hother heq
  exact hnodup.1 (List.mem_map.mpr ⟨other, hother, heq⟩)

theorem erase (hinv : GuardInvariant guard store handles)
    (handle : PaymentNonceReservation) :
    GuardInvariant guard store (handles.erase handle) :=
  hinv.of_handles
    (hinv.handles_nodup.sublist ((List.erase_sublist).map _))
    (fun other hother => ⟨other, List.mem_of_mem_erase hother, rfl, rfl⟩)

theorem retainOnDrop (hinv : GuardInvariant guard store handles)
    {handle : PaymentNonceReservation} (hhandle : handle ∈ handles) :
    GuardInvariant guard store (handle.retainOnDrop :: handles.erase handle) := by
  apply hinv.of_handles
  · rw [List.map_cons, List.nodup_cons]
    refine ⟨fun hmem => ?_, (hinv.erase handle).handles_nodup⟩
    obtain ⟨other, hother, heq⟩ := List.mem_map.mp hmem
    exact hinv.generation_notMem_erase hhandle other hother heq
  · intro other hother
    rcases List.mem_cons.mp hother with rfl | hother
    · exact ⟨handle, hhandle, rfl, rfl⟩
    · exact ⟨other, List.mem_of_mem_erase hother, rfl, rfl⟩

theorem remove (hinv : GuardInvariant guard store handles) {key : String}
    (hrecord : ∀ deadline, toLex (deadline, key) ∉ store.expirations) :
    GuardInvariant guard (store.remove key) handles := by
  have hlookup : ∀ other entry,
      (store.remove key).entries.lookup other = some entry →
        store.entries.lookup other = some entry := by
    intro other entry h
    by_cases hother : other = key
    · subst hother
      simp at h
    · rwa [NonceStore.lookup_remove_of_ne hother] at h
  constructor
  · exact (NonceStore.size_remove_le store key).trans hinv.size_le
  · exact hinv.handles_nodup
  · exact hinv.handle_allocated
  · exact fun other entry h => hinv.entry_allocated other entry (hlookup _ _ h)
  · exact fun first second entry h h' =>
      hinv.entry_unique first second entry (hlookup _ _ h) (hlookup _ _ h')
  · exact fun handle hhandle other h =>
      hinv.handle_key handle hhandle other (hlookup _ _ h)
  · intro deadline other hmem
    rw [NonceStore.remove_expirations] at hmem
    have hother : other ≠ key := by
      rintro rfl
      exact hrecord deadline hmem
    rw [NonceStore.lookup_remove_of_ne hother]
    exact hinv.record_entry deadline other hmem
  · exact hinv.record_unique

theorem retainUntil (hinv : GuardInvariant guard store handles) {key : String}
    {entry : NonceEntry} (hentry : store.entries.lookup key = some entry)
    (hsettled : ∀ handle ∈ handles, handle.generation ≠ entry.generation)
    (hrecord : ∀ deadline, toLex (deadline, key) ∉ store.expirations)
    (deadline : Instant) :
    GuardInvariant guard (store.retainUntil key deadline) handles where
  size_le := hinv.size_le
  handles_nodup := hinv.handles_nodup
  handle_allocated := hinv.handle_allocated
  entry_allocated := hinv.entry_allocated
  entry_unique := hinv.entry_unique
  handle_key := hinv.handle_key
  record_entry due other hmem := by
    rcases NonceStore.mem_retainUntil_expirations.mp hmem with ⟨_, rfl⟩ | hmem
    · exact ⟨entry, hentry, hsettled⟩
    · exact hinv.record_entry due other hmem
  record_unique first second other h h' := by
    rcases NonceStore.mem_retainUntil_expirations.mp h with ⟨rfl, rfl⟩ | hfirst <;>
      rcases NonceStore.mem_retainUntil_expirations.mp h' with
        ⟨rfl, hother⟩ | hsecond
    · rfl
    · exact absurd hsecond (hrecord second)
    · exact absurd (hother ▸ hfirst) (hrecord first)
    · exact hinv.record_unique first second other hfirst hsecond

/-- While its handle is alive an entry has no expiry record. -/
theorem not_mem_expirations (hinv : GuardInvariant guard store handles)
    {handle : PaymentNonceReservation} (hhandle : handle ∈ handles)
    (hstored : handle.Stored store) (deadline : Instant) :
    toLex (deadline, handle.key) ∉ store.expirations := by
  intro hmem
  obtain ⟨entry, hentry, hsettled⟩ := hinv.record_entry deadline handle.key hmem
  rw [PaymentNonceReservation.Stored, hentry, Option.some_inj] at hstored
  exact hsettled handle hhandle (by rw [hstored])

/-- No sweep reaches the entry of a live handle. -/
theorem stored_expire (hinv : GuardInvariant guard store handles)
    {handle : PaymentNonceReservation} (hhandle : handle ∈ handles)
    (hstored : handle.Stored store) (now : Instant) :
    handle.Stored (store.expire now) := by
  rw [PaymentNonceReservation.Stored, ← hstored]
  apply ExpiryStore.lookup_sweep_of_notMem_swept
  intro pair hpair hkey
  apply hinv.not_mem_expirations hhandle hstored (ofLex pair).1
  rw [← hkey]
  exact ExpiryStore.swept_subset now 64 _ hpair

/-- Nor does the entry of a live handle give way to an admission. -/
theorem stored_occupy {key : String} (hkey : key ∉ store.entries)
    {handle : PaymentNonceReservation} (hstored : handle.Stored store) :
    handle.Stored (store.occupy key) := by
  have hne : handle.key ≠ key := by
    rintro rfl
    exact hkey (Finmap.mem_of_lookup_eq_some hstored)
  rwa [PaymentNonceReservation.Stored, NonceStore.lookup_occupy_of_ne hne]

/-- The drop of one handle leaves the entry of every other live handle. -/
theorem stored_drop (hinv : GuardInvariant guard store handles)
    (clock : MonotonicClock) {handle other : PaymentNonceReservation}
    (hhandle : handle ∈ handles) (hother : other ∈ handles.erase handle)
    (hstored : other.Stored store) (retain : Bool) (now : Instant) :
    other.Stored
      (guard.drop clock store { handle with retain := retain } now) := by
  have hgen := hinv.generation_notMem_erase hhandle other hother
  rcases guard.drop_cases clock store { handle with retain := retain } now with
    ⟨_, hdrop⟩ | ⟨hself, _, hdrop⟩ | ⟨_, _, _, hdrop⟩ | ⟨_, _, _, _, hdrop⟩ <;>
    rw [hdrop]
  · exact hstored
  · have hne : other.key ≠ handle.key := by
      intro hkey
      rw [PaymentNonceReservation.Stored, hkey] at hstored
      rw [PaymentNonceReservation.Stored, hstored, Option.some_inj,
        NonceEntry.mk.injEq] at hself
      exact hgen hself
    rwa [PaymentNonceReservation.Stored, NonceStore.lookup_remove_of_ne hne]
  · exact hstored
  · exact hstored

/-- Dropping a live handle, whichever way its flag stands at that moment. -/
theorem drop (hinv : GuardInvariant guard store handles) (clock : MonotonicClock)
    {handle : PaymentNonceReservation} (hhandle : handle ∈ handles)
    (retain : Bool) (now : Instant) :
    GuardInvariant guard
      (guard.drop clock store { handle with retain := retain } now)
      (handles.erase handle) := by
  have herase := hinv.erase handle
  have hsettled := hinv.generation_notMem_erase hhandle
  have hrecord : handle.Stored store →
      ∀ deadline, toLex (deadline, handle.key) ∉ store.expirations :=
    hinv.not_mem_expirations hhandle
  rcases guard.drop_cases clock store { handle with retain := retain } now with
    ⟨_, hdrop⟩ | ⟨hstored, _, hdrop⟩ | ⟨_, _, _, hdrop⟩ |
      ⟨deadline, hstored, _, _, hdrop⟩ <;> rw [hdrop]
  · exact herase
  · exact herase.remove (hrecord hstored)
  · exact herase
  · exact herase.retainUntil hstored hsettled (hrecord hstored) deadline

theorem clear (hinv : GuardInvariant guard store handles) :
    GuardInvariant guard store.clear handles where
  size_le := by simp [NonceStore.clear, ExpiryStore.size]
  handles_nodup := hinv.handles_nodup
  handle_allocated := hinv.handle_allocated
  entry_allocated key entry h := by simp [NonceStore.clear] at h
  entry_unique key other entry h := by simp [NonceStore.clear] at h
  handle_key handle _ key h := by simp [NonceStore.clear] at h
  record_entry deadline key h := by simp [NonceStore.clear] at h
  record_unique deadline due key h := by simp [NonceStore.clear] at h

end GuardInvariant

end KiteX402
