/-
The ledger agrees with a plain log of its records: which are retained, what its
transaction index finds, and what its summary counts.
-/
import KiteX402.SettlementLedger

namespace KiteX402

/-- The ledger as a bounded log: a confirmation is final. -/
def ledgerLog (maxRecords : ℕ) : KeyedLog SettlementRecord (String × String) :=
  ⟨transactionKey, SettlementRecord.success, maxRecords⟩

namespace Ledger

/-- Drop a record and its index entries. -/
def takeOut (ledger : Ledger) (removed : SettlementRecord) : Ledger :=
  { ledger with records := ledger.records.erase removed }.removeIndexes removed

/-- The record that a call takes out of the ledger: the failure it replaces, or
the oldest when there is no room. -/
def removedBy (ledger : Ledger) (record : SettlementRecord) :
    Option SettlementRecord :=
  match (transactionKey record).bind ledger.byTx.lookup with
  | some previous => if previous.success then none else some previous
  | none =>
      if ledger.maxRecords ≤ ledger.records.length then ledger.records.head?
      else none

/-- The transaction index holds the retained records with a key. -/
structure Indexed (ledger : Ledger) : Prop where
  unique : (ledgerLog ledger.maxRecords).Unique ledger.records
  byTx : ∀ key record, ledger.byTx.lookup key = some record ↔
    record ∈ ledger.records ∧ transactionKey record = some key
  bounded : ledger.records.length ≤ ledger.maxRecords
  room : 0 < ledger.maxRecords

theorem new_indexed (maxRecords : ℕ) : (new maxRecords).Indexed where
  unique := List.Pairwise.nil
  byTx key record := by simp [new]
  bounded := Nat.zero_le _
  room := lt_of_lt_of_le (by decide) (le_max_right maxRecords 100)

@[simp] theorem removeIndexes_records (ledger : Ledger) (record : SettlementRecord) :
    (ledger.removeIndexes record).records = ledger.records := rfl

@[simp] theorem removeIndexes_maxRecords (ledger : Ledger)
    (record : SettlementRecord) :
    (ledger.removeIndexes record).maxRecords = ledger.maxRecords := rfl

@[simp] theorem takeOut_records (ledger : Ledger) (removed : SettlementRecord) :
    (ledger.takeOut removed).records = ledger.records.erase removed := rfl

@[simp] theorem takeOut_maxRecords (ledger : Ledger) (removed : SettlementRecord) :
    (ledger.takeOut removed).maxRecords = ledger.maxRecords := rfl

theorem lookup_takeOut_byTx (ledger : Ledger) (removed : SettlementRecord)
    (key : String × String) :
    (ledger.takeOut removed).byTx.lookup key =
      if transactionKey removed = some key then none else ledger.byTx.lookup key := by
  unfold takeOut removeIndexes
  cases hkey : transactionKey removed with
  | none => simp
  | some own =>
      by_cases hown : own = key
      · subst hown
        simp [Finmap.lookup_erase]
      · simp [hown, Finmap.lookup_erase_ne (Ne.symm hown)]

theorem lookup_push_byTx (toLowercase : String → String) (ledger : Ledger)
    (record : SettlementRecord) (key : String × String) :
    (ledger.push toLowercase record).byTx.lookup key =
      if transactionKey record = some key then some record
      else ledger.byTx.lookup key := by
  unfold push
  cases hkey : transactionKey record with
  | none => simp
  | some own =>
      by_cases hown : own = key
      · subst hown
        simp [Finmap.lookup_insert]
      · simp [hown, Finmap.lookup_insert_of_ne _ (Ne.symm hown)]

namespace Indexed

variable {ledger : Ledger} {toLowercase : String → String}

theorem takeOut (hindexed : ledger.Indexed) {removed : SettlementRecord}
    (hmem : removed ∈ ledger.records) : (ledger.takeOut removed).Indexed where
  unique := hindexed.unique.erase removed
  byTx key record := by
    rw [lookup_takeOut_byTx, takeOut_records]
    split
    next hkey =>
      simp only [reduceCtorEq, false_iff, not_and]
      exact fun hrecord => hindexed.unique.key_ne hmem hkey hrecord
    next hkey =>
      rw [hindexed.byTx]
      apply and_congr_left
      intro hrecord
      have hne : record ≠ removed := by
        rintro rfl
        exact hkey hrecord
      exact (List.mem_erase_of_ne hne).symm
  bounded := (List.length_erase_le).trans hindexed.bounded
  room := hindexed.room

theorem push (hindexed : ledger.Indexed) {record : SettlementRecord}
    (hroom : ledger.records.length < ledger.maxRecords)
    (hfresh : ∀ other ∈ ledger.records, ∀ key, transactionKey record = some key →
      transactionKey other ≠ some key) :
    (ledger.push toLowercase record).Indexed where
  unique := hindexed.unique.concat hfresh
  byTx key other := by
    rw [lookup_push_byTx]
    simp only [Ledger.push, List.mem_append, List.mem_singleton]
    split
    next hkey =>
      rw [Option.some_inj]
      constructor
      · rintro rfl
        exact ⟨Or.inr rfl, hkey⟩
      · rintro ⟨hother | rfl, hotherKey⟩
        · exact absurd hotherKey (hfresh other hother key hkey)
        · rfl
    next hkey =>
      rw [hindexed.byTx, or_and_right]
      constructor
      · exact Or.inl
      · rintro (h | ⟨rfl, hother⟩)
        · exact h
        · exact absurd hother hkey
  bounded := by
    simp only [Ledger.push, List.length_append, List.length_singleton]
    exact hroom
  room := hindexed.room

theorem makeRoom_cases (hindexed : ledger.Indexed) :
    (ledger.records.length < ledger.maxRecords ∧ ledger.makeRoom = ledger) ∨
    (∃ evicted ∈ ledger.records, ledger.maxRecords ≤ ledger.records.length ∧
      ledger.records.head? = some evicted ∧
      ledger.records.tail = ledger.records.erase evicted ∧
      ledger.makeRoom = ledger.takeOut evicted) := by
  by_cases hfull : ledger.maxRecords ≤ ledger.records.length
  · right
    have hpos := hindexed.room.trans_le hfull
    obtain ⟨evicted, rest, hrecords⟩ := List.exists_cons_of_length_pos hpos
    have hrest : ledger.records.erase evicted = rest := by
      rw [hrecords, List.erase_cons_head]
    refine ⟨evicted, by simp [hrecords], hfull, by simp [hrecords], ?_, ?_⟩
    · rw [hrest, hrecords, List.tail_cons]
    · rw [Ledger.takeOut, hrest]
      unfold makeRoom
      rw [if_pos hfull]
      split
      next evicted' rest' hrecords' =>
        obtain ⟨rfl, rfl⟩ := List.cons_eq_cons.mp (hrecords.symm.trans hrecords')
        rfl
      next hnil => simp [hnil] at hrecords
  · left
    exact ⟨not_le.mp hfull, if_neg hfull⟩

/-- What a call does: the record is dropped, or it is pushed, at once or after
another one was taken out. -/
theorem record_cases (hindexed : ledger.Indexed) (toLowercase : String → String)
    (record : SettlementRecord) :
    (∃ held, (transactionKey record).bind ledger.byTx.lookup = some held ∧
      held.success = true ∧ ledger.record toLowercase record = ledger ∧
      ledger.removedBy record = none) ∨
    ((transactionKey record).bind ledger.byTx.lookup = none ∧
      ledger.removedBy record = none ∧
      ledger.records.length < ledger.maxRecords ∧
      (∀ other ∈ ledger.records, ∀ key, transactionKey record = some key →
        transactionKey other ≠ some key) ∧
      ledger.record toLowercase record = ledger.push toLowercase record) ∨
    (∃ removed ∈ ledger.records, ledger.removedBy record = some removed ∧
      (∀ other ∈ ledger.records.erase removed, ∀ key,
        transactionKey record = some key → transactionKey other ≠ some key) ∧
      ledger.record toLowercase record =
        (ledger.takeOut removed).push toLowercase record) := by
  cases hprevious : (transactionKey record).bind ledger.byTx.lookup with
  | some previous =>
      obtain ⟨key, hkey, hlookup⟩ := Option.bind_eq_some_iff.mp hprevious
      obtain ⟨hmem, hprevKey⟩ := (hindexed.byTx key previous).mp hlookup
      cases hsuccess : previous.success with
      | true =>
          exact Or.inl ⟨previous, rfl, hsuccess,
            by simp [Ledger.record, hprevious, hsuccess],
            by simp [removedBy, hprevious, hsuccess]⟩
      | false =>
          refine Or.inr (Or.inr ⟨previous, hmem,
            by simp [removedBy, hprevious, hsuccess], ?_, ?_⟩)
          · intro other hother key' hkey'
            rw [hkey, Option.some_inj] at hkey'
            subst hkey'
            exact hindexed.unique.key_ne hmem hprevKey hother
          · have hshort : (ledger.takeOut previous).records.length <
                (ledger.takeOut previous).maxRecords := by
              have hpos := List.length_pos_of_mem hmem
              have hbound := hindexed.bounded
              rw [takeOut_records, takeOut_maxRecords,
                List.length_erase_of_mem hmem]
              omega
            have hroom : (ledger.takeOut previous).makeRoom =
                ledger.takeOut previous := if_neg (not_le.mpr hshort)
            simp only [Ledger.record, hprevious, hsuccess, Bool.false_eq_true,
              if_false]
            rw [← hroom]
            rfl
  | none =>
      have hfresh : ∀ other ∈ ledger.records, ∀ key,
          transactionKey record = some key → transactionKey other ≠ some key := by
        intro other hother key hkey hotherKey
        have hlookup := (hindexed.byTx key other).mpr ⟨hother, hotherKey⟩
        rw [hkey, Option.bind_some, hlookup] at hprevious
        contradiction
      have hrecord : ledger.record toLowercase record =
          ledger.makeRoom.push toLowercase record := by
        simp [Ledger.record, hprevious]
      rcases hindexed.makeRoom_cases with
        ⟨hroom, heq⟩ | ⟨evicted, hmem, hfull, hhead, _, heq⟩
      · exact Or.inr (Or.inl ⟨rfl, by simp [removedBy, hprevious, not_le.mpr hroom],
          hroom, hfresh, by rw [hrecord, heq]⟩)
      · refine Or.inr (Or.inr ⟨evicted, hmem,
          by simp [removedBy, hprevious, hfull, hhead], ?_, by rw [hrecord, heq]⟩)
        exact fun other hother => hfresh other (List.mem_of_mem_erase hother)

theorem record (hindexed : ledger.Indexed) (toLowercase : String → String)
    (record : SettlementRecord) : (ledger.record toLowercase record).Indexed := by
  rcases hindexed.record_cases toLowercase record with
    ⟨_, _, _, heq, _⟩ | ⟨_, _, hroom, hfresh, heq⟩ |
    ⟨removed, hmem, _, hfresh, heq⟩ <;> rw [heq]
  · exact hindexed
  · exact hindexed.push hroom hfresh
  · apply (hindexed.takeOut hmem).push _ hfresh
    have hpos := List.length_pos_of_mem hmem
    have hbound := hindexed.bounded
    rw [takeOut_records, takeOut_maxRecords, List.length_erase_of_mem hmem]
    omega

end Indexed

end Ledger

end KiteX402
