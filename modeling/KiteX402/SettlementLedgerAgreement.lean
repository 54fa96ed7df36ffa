/-
What the ledger answers after any sequence of calls, in terms of the plain log
of its records.
-/
import KiteX402.SettlementLedgerIndex
import Mathlib.Algebra.GroupWithZero.Nat

namespace KiteX402

namespace Ledger

/-- An order in which the transaction index can be iterated. -/
structure Enumerates (order : List ((String × String) × SettlementRecord))
    (byTx : Finmap fun _ : String × String => SettlementRecord) : Prop where
  nodup : order.Nodup
  mem : ∀ key record, (key, record) ∈ order ↔ byTx.lookup key = some record

theorem exists_enumerates
    (byTx : Finmap fun _ : String × String => SettlementRecord) :
    ∃ order, Enumerates order byTx := by
  refine ⟨byTx.entries.toList.map fun entry => (entry.1, entry.2), ?_, ?_⟩
  · refine List.Nodup.map ?_ ?_
    · rintro ⟨key, record⟩ ⟨key', record'⟩ heq
      cases heq
      rfl
    · rw [← Multiset.coe_nodup, Multiset.coe_toList]
      exact byTx.nodupKeys.nodup
  · intro key record
    rw [Finmap.lookup_eq_some_iff, List.mem_map]
    constructor
    · rintro ⟨⟨key', record'⟩, hmem, heq⟩
      cases heq
      exact Multiset.mem_toList.mp hmem
    · intro hmem
      exact ⟨⟨key, record⟩, Multiset.mem_toList.mpr hmem, rfl⟩

/-- A list keeps exactly one item when it has an item that passes and no other. -/
theorem filter_eq_singleton_iff {α : Type} {p : α → Bool} {items : List α}
    (hnodup : items.Nodup) {item : α} :
    items.filter p = [item] ↔
      item ∈ items ∧ p item = true ∧ ∀ other ∈ items, p other = true → other = item := by
  constructor
  · intro hfilter
    have hitem : item ∈ items.filter p := by rw [hfilter]; exact List.mem_singleton_self _
    obtain ⟨hmem, hpass⟩ := List.mem_filter.mp hitem
    refine ⟨hmem, hpass, fun other hother hotherPass => ?_⟩
    have : other ∈ items.filter p := List.mem_filter.mpr ⟨hother, hotherPass⟩
    rwa [hfilter, List.mem_singleton] at this
  · rintro ⟨hmem, hpass, honly⟩
    have hperm : (items.filter p).Perm [item] := by
      rw [List.perm_ext_iff_of_nodup (hnodup.filter p) (List.nodup_singleton item)]
      intro other
      rw [List.mem_filter, List.mem_singleton]
      constructor
      · rintro ⟨hother, hotherPass⟩
        exact honly other hother hotherPass
      · rintro rfl
        exact ⟨hmem, hpass⟩
    exact List.perm_singleton.mp hperm

theorem transactionKey_network {record : SettlementRecord} {network hash : String}
    (hkey : transactionKey record = some (network, hash)) : record.network = network := by
  unfold transactionKey at hkey
  simp only at hkey
  split at hkey
  · contradiction
  · exact congrArg Prod.fst (Option.some_inj.mp hkey)

namespace Indexed

variable {ledger : Ledger}

theorem getByNetworkTx (hindexed : ledger.Indexed) (network txHash : String)
    (record : SettlementRecord) :
    ledger.getByNetworkTx network txHash = some record ↔
      record ∈ ledger.records ∧
        transactionKey record = some (network, normalizedHash txHash) :=
  hindexed.byTx _ _

theorem getByTx (hindexed : ledger.Indexed)
    {order : List ((String × String) × SettlementRecord)}
    (horder : Enumerates order ledger.byTx) (txHash : String)
    (record : SettlementRecord) :
    Ledger.getByTx order txHash = some record ↔
      record ∈ ledger.records ∧
      transactionKey record = some (record.network, normalizedHash txHash) ∧
      ∀ other ∈ ledger.records,
        transactionKey other = some (other.network, normalizedHash txHash) →
          other.network = record.network := by
  have hone : ∀ entry, order.filter (fun entry => entry.1.2 = normalizedHash txHash) =
      [entry] ↔ entry ∈ order ∧ entry.1.2 = normalizedHash txHash ∧
        ∀ other ∈ order, other.1.2 = normalizedHash txHash → other = entry := by
    intro entry
    rw [filter_eq_singleton_iff horder.nodup]
    simp only [decide_eq_true_eq]
  have hentry : ∀ key record, (key, record) ∈ order ↔
      record ∈ ledger.records ∧ transactionKey record = some key :=
    fun key record => (horder.mem key record).trans (hindexed.byTx key record)
  constructor
  · intro hget
    unfold Ledger.getByTx at hget
    simp only at hget
    split at hget
    next entry hfilter =>
      obtain ⟨hmem, hhash, honly⟩ := (hone entry).mp hfilter
      obtain ⟨⟨network, hash⟩, found⟩ := entry
      simp only at hhash
      subst hhash
      obtain rfl := Option.some_inj.mp hget
      obtain ⟨hrecord, hkey⟩ := (hentry _ _).mp hmem
      obtain rfl := transactionKey_network hkey
      refine ⟨hrecord, hkey, fun other hother hotherKey => ?_⟩
      have heq := honly (_, other) ((hentry _ _).mpr ⟨hother, hotherKey⟩) rfl
      exact congrArg (fun entry => entry.1.1) heq
    next => contradiction
  · rintro ⟨hrecord, hkey, honly⟩
    have hfilter := (hone ((record.network, normalizedHash txHash), record)).mpr
      ⟨(hentry _ _).mpr ⟨hrecord, hkey⟩, rfl, ?_⟩
    · unfold Ledger.getByTx
      simp only
      rw [hfilter]
    · rintro ⟨⟨network, hash⟩, other⟩ hmem rfl
      obtain ⟨hother, hotherKey⟩ := (hentry _ _).mp hmem
      obtain rfl := transactionKey_network hotherKey
      have hsame := honly other hother hotherKey
      rw [hsame] at hotherKey ⊢
      rw [hindexed.unique.eq_of_key hother hrecord hotherKey hkey]

end Indexed

section Summary

/-- What the counters of a summary say about a list of records. -/
structure Summarizes (summary : LedgerSummary) (records : List SettlementRecord) :
    Prop where
  successful : summary.successfulCount =
    UInt64.ofNat (records.countP SettlementRecord.success)
  failed : summary.failedCount =
    UInt64.ofNat (records.countP fun record => !record.success)
  volume : summary.totalSettledVolume.toNat =
    min ((records.filter SettlementRecord.success).map
      fun record => record.amount.toNat).sum (2 ^ 64 - 1)

theorem Summarizes.concat {summary : LedgerSummary} {records : List SettlementRecord}
    (hsummary : Summarizes summary records) (record : SettlementRecord) :
    Summarizes (addToSummary summary record) (records ++ [record]) := by
  cases hsuccess : record.success with
  | true =>
      refine ⟨?_, ?_, ?_⟩ <;>
        simp only [addToSummary, hsuccess, if_true, List.countP_append,
          List.countP_singleton, List.filter_append, List.map_append,
          List.sum_append, Bool.not_true, Bool.false_eq_true, if_false, Nat.add_zero]
      · rw [hsummary.successful, UInt64.ofNat_add]
        rfl
      · exact hsummary.failed
      · have hlast : ([record].filter SettlementRecord.success) = [record] := by
          simp [hsuccess]
        rw [toNat_saturatingAdd, hsummary.volume, hlast]
        simp only [List.map_cons, List.map_nil, List.sum_singleton]
        omega
  | false =>
      refine ⟨?_, ?_, ?_⟩ <;>
        simp only [addToSummary, hsuccess, Bool.false_eq_true, if_false,
          List.countP_append, List.countP_singleton, List.filter_append,
          List.map_append, List.sum_append, Bool.not_false, if_true, Nat.add_zero]
      · exact hsummary.successful
      · rw [hsummary.failed, UInt64.ofNat_add]
        rfl
      · have hlast : ([record].filter SettlementRecord.success) = [] := by
          simp [hsuccess]
        rw [hsummary.volume, hlast]
        rfl

end Summary

section Run

variable (toLowercase : String → String)

theorem run_concat (maxRecords : ℕ) (calls : List SettlementRecord)
    (record : SettlementRecord) :
    run toLowercase maxRecords (calls ++ [record]) =
      (run toLowercase maxRecords calls).record toLowercase record :=
  List.foldl_concat ..

theorem record_maxRecords (ledger : Ledger) (record : SettlementRecord) :
    (ledger.record toLowercase record).maxRecords = ledger.maxRecords := by
  have hroom : ∀ ledger : Ledger, ledger.makeRoom.maxRecords = ledger.maxRecords := by
    intro ledger
    unfold makeRoom
    split
    · split <;> rfl
    · rfl
  unfold Ledger.record
  split
  · split
    · rfl
    · exact hroom _
  · exact hroom ledger

theorem run_indexed (maxRecords : ℕ) (calls : List SettlementRecord) :
    (run toLowercase maxRecords calls).Indexed ∧
      (run toLowercase maxRecords calls).maxRecords = max maxRecords 100 := by
  induction calls using List.reverseRecOn with
  | nil => exact ⟨new_indexed maxRecords, rfl⟩
  | append_singleton calls record ih =>
      rw [run_concat, record_maxRecords]
      exact ⟨ih.1.record toLowercase record, ih.2⟩

/-- A confirmation is evicted as the oldest at some call of a sequence. -/
def Evicts (maxRecords : ℕ) (held : SettlementRecord)
    (before after : List SettlementRecord) : Prop :=
  ∃ middle record rest, after = middle ++ record :: rest ∧
    let ledger := run toLowercase maxRecords (before ++ middle)
    ledger.maxRecords ≤ ledger.records.length ∧ ledger.records.head? = some held ∧
      (ledger.record toLowercase record).records = ledger.records.tail ++ [record]

/-- What holds of the ledger after a sequence of calls. -/
structure Agrees (maxRecords : ℕ) (calls : List SettlementRecord) : Prop where
  records : (run toLowercase maxRecords calls).records =
    calls.foldl (ledgerLog (max maxRecords 100)).record []
  unique : (ledgerLog (max maxRecords 100)).Unique
    (run toLowercase maxRecords calls).records
  bounded : (run toLowercase maxRecords calls).records.length ≤ max maxRecords 100
  byNetworkTx : ∀ network txHash record,
    (run toLowercase maxRecords calls).getByNetworkTx network txHash = some record ↔
      record ∈ (run toLowercase maxRecords calls).records ∧
        transactionKey record = some (network, normalizedHash txHash)
  byTx : ∀ order, Enumerates order (run toLowercase maxRecords calls).byTx →
    ∀ txHash record, getByTx order txHash = some record ↔
      record ∈ (run toLowercase maxRecords calls).records ∧
      transactionKey record = some (record.network, normalizedHash txHash) ∧
      ∀ other ∈ (run toLowercase maxRecords calls).records,
        transactionKey other = some (other.network, normalizedHash txHash) →
          other.network = record.network
  summary : Summarizes (run toLowercase maxRecords calls).summary
    (run toLowercase maxRecords calls).records
  confirmed : ∀ held ∈ (run toLowercase maxRecords calls).records,
    held.success = true → ∀ key, transactionKey held = some key →
      (run toLowercase maxRecords calls).records.count held = 1 ∧
      ∀ record, transactionKey record = some key →
        run toLowercase maxRecords (calls ++ [record]) =
          run toLowercase maxRecords calls
  kept : ∀ held ∈ (run toLowercase maxRecords calls).records,
    held.success = true → ∀ more,
      (run toLowercase maxRecords calls).records.count held ≤
          (run toLowercase maxRecords (calls ++ more)).records.count held ∨
        Evicts toLowercase maxRecords held calls more

end Run

end Ledger

end KiteX402
