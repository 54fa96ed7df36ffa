/-
The payer index of the ledger: it is exact as long as the two ways of putting a
payer in lower case agree on the records taken out.
-/
import KiteX402.Machine
import KiteX402.SettlementLedgerAgreement

namespace KiteX402

namespace Ledger

variable (toLowercase : String → String)

/-- The retained records under a payer key, oldest first. -/
def payerRecords (ledger : Ledger) (key : String) : List SettlementRecord :=
  ledger.records.filter fun record => toLowercase record.payer = key

/-- The payer index finds the retained records of every payer, and only them. -/
structure PayerExact (ledger : Ledger) : Prop where
  found : ∀ payer, ledger.findByPayer toLowercase payer =
    ledger.payerRecords toLowercase (toLowercase payer)
  keys : ∀ key ∈ ledger.byPayer,
    ∃ record ∈ ledger.records, toLowercase record.payer = key

/-- The record a call takes out has a payer that both functions put in lower
case alike. -/
def CaseAgrees (ledger : Ledger) (record : SettlementRecord) : Prop :=
  ∀ removed, ledger.removedBy record = some removed →
    toLowercase removed.payer = toAsciiLowercase removed.payer

/-- A list, unless it is empty. -/
def nonempty (records : List SettlementRecord) : Option (List SettlementRecord) :=
  if records = [] then none else some records

theorem getD_nonempty (records : List SettlementRecord) :
    (nonempty records).getD [] = records := by
  unfold nonempty
  split
  next hnil => rw [hnil]; rfl
  next => rfl

/-- The payer index holds the retained records of each key that has any. -/
def PayerIndexed (ledger : Ledger) : Prop :=
  ∀ key, ledger.byPayer.lookup key = nonempty (ledger.payerRecords toLowercase key)

theorem mem_payerRecords {ledger : Ledger} {key : String} {record : SettlementRecord} :
    record ∈ ledger.payerRecords toLowercase key ↔
      record ∈ ledger.records ∧ toLowercase record.payer = key := by
  rw [payerRecords, List.mem_filter, decide_eq_true_eq]

theorem payerRecords_takeOut (ledger : Ledger) (removed : SettlementRecord)
    (key : String) : (ledger.takeOut removed).payerRecords toLowercase key =
      (ledger.payerRecords toLowercase key).erase removed := by
  rw [payerRecords, payerRecords, List.erase_filter, takeOut_records]

theorem payerRecords_push (ledger : Ledger) (record : SettlementRecord)
    (key : String) : (ledger.push toLowercase record).payerRecords toLowercase key =
      ledger.payerRecords toLowercase key ++
        if toLowercase record.payer = key then [record] else [] := by
  simp only [payerRecords, Ledger.push, List.filter_append, List.filter_singleton]
  by_cases hkey : toLowercase record.payer = key <;> simp [hkey]

theorem lookup_takeOut_byPayer (ledger : Ledger) (removed : SettlementRecord)
    (key : String) : (ledger.takeOut removed).byPayer.lookup key =
      if toAsciiLowercase removed.payer = key
      then (ledger.byPayer.lookup key).bind fun records =>
        nonempty (records.erase removed)
      else ledger.byPayer.lookup key := by
  simp only [Ledger.takeOut, removeIndexes]
  cases hpayer : ledger.byPayer.lookup (toAsciiLowercase removed.payer) with
  | none =>
      by_cases hkey : toAsciiLowercase removed.payer = key
      · subst hkey
        simp only [hpayer, if_true, Option.bind_none]
      · simp only [hkey, if_false]
  | some records =>
      by_cases hkey : toAsciiLowercase removed.payer = key
      · subst hkey
        simp only [hpayer, if_true, Option.bind_some, nonempty]
        split
        · exact Finmap.lookup_erase _ _
        · exact Finmap.lookup_insert _
      · simp only [hkey, if_false]
        split
        · exact Finmap.lookup_erase_ne (Ne.symm hkey)
        · exact Finmap.lookup_insert_of_ne _ (Ne.symm hkey)

theorem lookup_push_byPayer (ledger : Ledger) (record : SettlementRecord)
    (key : String) : (ledger.push toLowercase record).byPayer.lookup key =
      if toLowercase record.payer = key
      then some ((ledger.byPayer.lookup key).getD [] ++ [record])
      else ledger.byPayer.lookup key := by
  unfold push
  by_cases hkey : toLowercase record.payer = key
  · subst hkey
    simp [Finmap.lookup_insert]
  · simp [hkey, Finmap.lookup_insert_of_ne _ (Ne.symm hkey)]

variable {toLowercase} {ledger : Ledger}

theorem PayerIndexed.getD (hpayer : ledger.PayerIndexed toLowercase) (key : String) :
    (ledger.byPayer.lookup key).getD [] = ledger.payerRecords toLowercase key := by
  rw [hpayer key, getD_nonempty]

theorem payerIndexed_iff_exact :
    ledger.PayerIndexed toLowercase ↔ ledger.PayerExact toLowercase := by
  constructor
  · intro hpayer
    refine ⟨fun payer => hpayer.getD _, fun key hkey => ?_⟩
    rw [← Finmap.lookup_isSome, hpayer key] at hkey
    cases hrecords : ledger.payerRecords toLowercase key with
    | nil => simp [hrecords, nonempty] at hkey
    | cons record rest =>
        have hmem : record ∈ ledger.payerRecords toLowercase key := by
          rw [hrecords]
          exact List.mem_cons_self
        exact ⟨record, (mem_payerRecords toLowercase).mp hmem⟩
  · intro hexact key
    cases hlookup : ledger.byPayer.lookup key with
    | some records =>
        have hkey : key ∈ ledger.byPayer := by
          rw [← Finmap.lookup_isSome, hlookup]
          rfl
        obtain ⟨record, hrecord, rfl⟩ := hexact.keys key hkey
        have hfound := hexact.found record.payer
        rw [findByPayer, hlookup, Option.getD_some] at hfound
        have hmem : record ∈ records := by
          rw [hfound]
          exact (mem_payerRecords toLowercase).mpr ⟨hrecord, rfl⟩
        rw [← hfound, nonempty, if_neg (List.ne_nil_of_mem hmem)]
    | none =>
        rw [nonempty, if_pos]
        by_contra hne
        obtain ⟨record, hmem⟩ := List.exists_mem_of_ne_nil _ hne
        obtain ⟨_, rfl⟩ := (mem_payerRecords toLowercase).mp hmem
        have hfound := hexact.found record.payer
        rw [findByPayer, hlookup, Option.getD_none] at hfound
        exact hne hfound.symm

theorem PayerIndexed.push (hpayer : ledger.PayerIndexed toLowercase)
    (record : SettlementRecord) :
    (ledger.push toLowercase record).PayerIndexed toLowercase := by
  intro key
  rw [lookup_push_byPayer, payerRecords_push, hpayer.getD]
  split
  · rw [nonempty, if_neg (by simp)]
  · rw [List.append_nil, hpayer key]

theorem PayerIndexed.takeOut (hpayer : ledger.PayerIndexed toLowercase)
    {removed : SettlementRecord}
    (hcase : toLowercase removed.payer = toAsciiLowercase removed.payer) :
    (ledger.takeOut removed).PayerIndexed toLowercase := by
  intro key
  rw [lookup_takeOut_byPayer, payerRecords_takeOut, hpayer key]
  split
  next hkey =>
    unfold nonempty
    split
    next hnil => simp [hnil]
    next => rfl
  next hkey =>
    rw [List.erase_of_not_mem]
    intro hmem
    have hlower := ((mem_payerRecords toLowercase).mp hmem).2
    exact hkey (hcase ▸ hlower)

section Stale

variable (toLowercase)

/-- How often the payer index holds a record. -/
def indexCount (ledger : Ledger) (record : SettlementRecord) : ℕ :=
  ((ledger.byPayer.lookup (toLowercase record.payer)).getD []).count record

/-- The payer index holds a record more often than the ledger retains it, under
a key where no removal looks for it. -/
def Stale (ledger : Ledger) : Prop :=
  ∃ record : SettlementRecord,
    toLowercase record.payer ≠ toAsciiLowercase record.payer ∧
    ledger.records.count record < ledger.indexCount toLowercase record

theorem indexCount_push (ledger : Ledger) (record other : SettlementRecord) :
    (ledger.push toLowercase record).indexCount toLowercase other =
      ledger.indexCount toLowercase other + if record = other then 1 else 0 := by
  unfold indexCount
  rw [lookup_push_byPayer]
  by_cases hkey : toLowercase record.payer = toLowercase other.payer
  · rw [if_pos hkey, Option.getD_some, List.count_append, List.count_singleton]
    simp only [beq_iff_eq]
  · have hne : record ≠ other := by
      rintro rfl
      exact hkey rfl
    rw [if_neg hkey, if_neg hne, Nat.add_zero]

theorem count_push (ledger : Ledger) (record other : SettlementRecord) :
    (ledger.push toLowercase record).records.count other =
      ledger.records.count other + if record = other then 1 else 0 := by
  simp only [Ledger.push, List.count_append, List.count_singleton, beq_iff_eq]

theorem indexCount_le_takeOut (ledger : Ledger) (removed : SettlementRecord)
    {record : SettlementRecord}
    (hcase : toLowercase record.payer ≠ toAsciiLowercase record.payer) :
    ledger.indexCount toLowercase record ≤
      (ledger.takeOut removed).indexCount toLowercase record := by
  unfold indexCount
  rw [lookup_takeOut_byPayer]
  split
  next hkey =>
    have hne : record ≠ removed := by
      rintro rfl
      exact hcase hkey.symm
    cases ledger.byPayer.lookup (toLowercase record.payer) with
    | none => exact Nat.le_refl _
    | some records =>
        rw [Option.bind_some, getD_nonempty, Option.getD_some,
          List.count_erase_of_ne hne]
  next => exact Nat.le_refl _

variable {toLowercase}

theorem Stale.push (hstale : ledger.Stale toLowercase) (record : SettlementRecord) :
    (ledger.push toLowercase record).Stale toLowercase := by
  obtain ⟨other, hcase, hcount⟩ := hstale
  refine ⟨other, hcase, ?_⟩
  rw [indexCount_push, count_push]
  exact Nat.add_lt_add_right hcount _

theorem Stale.takeOut (hstale : ledger.Stale toLowercase)
    (removed : SettlementRecord) : (ledger.takeOut removed).Stale toLowercase := by
  obtain ⟨other, hcase, hcount⟩ := hstale
  refine ⟨other, hcase, ?_⟩
  have hrecords : (ledger.takeOut removed).records.count other ≤
      ledger.records.count other := List.erase_sublist.count_le other
  have hindex := indexCount_le_takeOut toLowercase ledger removed hcase
  omega

/-- A stale entry stays. -/
theorem Stale.record (hstale : ledger.Stale toLowercase) (hindexed : ledger.Indexed)
    (record : SettlementRecord) :
    (ledger.record toLowercase record).Stale toLowercase := by
  rcases hindexed.record_cases toLowercase record with
    ⟨_, _, _, heq, _⟩ | ⟨_, _, _, _, heq⟩ | ⟨removed, _, _, _, heq⟩ <;> rw [heq]
  · exact hstale
  · exact hstale.push record
  · exact (hstale.takeOut removed).push record

theorem PayerIndexed.indexCount_eq (hpayer : ledger.PayerIndexed toLowercase)
    (record : SettlementRecord) :
    ledger.indexCount toLowercase record = ledger.records.count record := by
  rw [indexCount, hpayer.getD, payerRecords, List.count_filter]
  exact decide_eq_true rfl

theorem PayerIndexed.not_stale (hpayer : ledger.PayerIndexed toLowercase) :
    ¬ ledger.Stale toLowercase := by
  rintro ⟨record, _, hcount⟩
  rw [hpayer.indexCount_eq] at hcount
  exact Nat.lt_irrefl _ hcount

/-- A record taken out under another key than the one it was put in under stays
in the index. -/
theorem PayerIndexed.stale_takeOut (hpayer : ledger.PayerIndexed toLowercase)
    {removed : SettlementRecord} (hmem : removed ∈ ledger.records)
    (hcase : toLowercase removed.payer ≠ toAsciiLowercase removed.payer) :
    (ledger.takeOut removed).Stale toLowercase := by
  refine ⟨removed, hcase, ?_⟩
  have hindex := indexCount_le_takeOut toLowercase ledger removed hcase
  have hpos := List.count_pos_iff.mpr hmem
  rw [hpayer.indexCount_eq] at hindex
  rw [takeOut_records, List.count_erase_self]
  omega

end Stale

/-- A call keeps the payer index when the two lower cases agree on what it takes
out, and leaves a stale entry otherwise. -/
theorem PayerIndexed.record (hpayer : ledger.PayerIndexed toLowercase)
    (hindexed : ledger.Indexed) (record : SettlementRecord) :
    (ledger.CaseAgrees toLowercase record ∧
      (ledger.record toLowercase record).PayerIndexed toLowercase) ∨
    (¬ ledger.CaseAgrees toLowercase record ∧
      (ledger.record toLowercase record).Stale toLowercase) := by
  rcases hindexed.record_cases toLowercase record with
    ⟨_, _, _, heq, hnone⟩ | ⟨_, hnone, _, _, heq⟩ | ⟨removed, hmem, hsome, _, heq⟩ <;>
    rw [heq]
  · exact Or.inl ⟨by simp [CaseAgrees, hnone], hpayer⟩
  · exact Or.inl ⟨by simp [CaseAgrees, hnone], hpayer.push record⟩
  · have hagrees : ledger.CaseAgrees toLowercase record ↔
        toLowercase removed.payer = toAsciiLowercase removed.payer := by
      simp [CaseAgrees, hsome]
    rw [hagrees]
    by_cases hcase : toLowercase removed.payer = toAsciiLowercase removed.payer
    · exact Or.inl ⟨hcase, (hpayer.takeOut hcase).push record⟩
    · exact Or.inr ⟨hcase, (hpayer.stale_takeOut hmem hcase).push record⟩

theorem new_payerIndexed (maxRecords : ℕ) : (new maxRecords).PayerIndexed toLowercase :=
  fun key => by simp [new, nonempty, payerRecords]

/-- The two lower cases agree on everything a sequence of calls takes out. -/
def CasesAgree (toLowercase : String → String) (maxRecords : ℕ)
    (calls : List SettlementRecord) : Prop :=
  ∀ before record after, calls = before ++ record :: after →
    (run toLowercase maxRecords before).CaseAgrees toLowercase record

theorem casesAgree_concat (maxRecords : ℕ) (calls : List SettlementRecord)
    (record : SettlementRecord) :
    CasesAgree toLowercase maxRecords (calls ++ [record]) ↔
      CasesAgree toLowercase maxRecords calls ∧
        (run toLowercase maxRecords calls).CaseAgrees toLowercase record := by
  constructor
  · intro hagree
    refine ⟨fun before other after hsplit => ?_, hagree calls record [] rfl⟩
    exact hagree before other (after ++ [record]) (by simp [hsplit])
  · rintro ⟨hcalls, hrecord⟩ before other after hsplit
    rcases concat_eq_split hsplit with ⟨rfl, rfl, rfl⟩ | ⟨rest, _, hrest⟩
    · exact hrecord
    · exact hcalls before other rest hrest

theorem run_payer (maxRecords : ℕ) (calls : List SettlementRecord) :
    (CasesAgree toLowercase maxRecords calls ∧
      (run toLowercase maxRecords calls).PayerIndexed toLowercase) ∨
    (¬ CasesAgree toLowercase maxRecords calls ∧
      (run toLowercase maxRecords calls).Stale toLowercase) := by
  induction calls using List.reverseRecOn with
  | nil =>
      refine Or.inl ⟨fun before record after hsplit => ?_, new_payerIndexed maxRecords⟩
      simp at hsplit
  | append_singleton calls record ih =>
      have hindexed := (run_indexed toLowercase maxRecords calls).1
      rw [run_concat, casesAgree_concat]
      rcases ih with ⟨hagree, hpayer⟩ | ⟨hnot, hstale⟩
      · rcases hpayer.record hindexed record with ⟨hcase, hnext⟩ | ⟨hcase, hnext⟩
        · exact Or.inl ⟨⟨hagree, hcase⟩, hnext⟩
        · exact Or.inr ⟨fun h => hcase h.2, hnext⟩
      · exact Or.inr ⟨fun h => hnot h.1, hstale.record hindexed record⟩

/-- The payer index is exact after a sequence of calls just when the two lower
cases agree on everything the calls took out. -/
theorem payerExact_iff_casesAgree (toLowercase : String → String) (maxRecords : ℕ)
    (calls : List SettlementRecord) :
    (run toLowercase maxRecords calls).PayerExact toLowercase ↔
      CasesAgree toLowercase maxRecords calls := by
  rw [← payerIndexed_iff_exact]
  rcases run_payer maxRecords calls with ⟨hagree, hpayer⟩ | ⟨hnot, hstale⟩
  · exact iff_of_true hpayer hagree
  · exact iff_of_false (fun hpayer => hpayer.not_stale hstale) hnot

end Ledger

namespace PayerWitness

/-- `str::to_lowercase` on the letters of Latin-1. -/
def latinLowercase (text : String) : String :=
  String.ofList (text.toList.map fun c =>
    if 0xc0 ≤ c.toNat ∧ c.toNat ≤ 0xde ∧ c.toNat ≠ 0xd7 then
      Char.ofNat (c.toNat + 32)
    else c.toLower)

def failure : SettlementRecord :=
  ⟨"0x1", "ÉLODIE", "0xshop", 5, "eip155:2368", 100, false, some "timeout"⟩

def confirmation : SettlementRecord :=
  ⟨"0x1", "ÉLODIE", "0xshop", 5, "eip155:2368", 101, true, none⟩

theorem transactionKey_failure :
    transactionKey failure = some ("eip155:2368", "0x1") := by
  rw [transactionKey, normalizedHash, toAsciiLowercase_eq]
  decide +kernel

theorem transactionKey_confirmation :
    transactionKey confirmation = some ("eip155:2368", "0x1") :=
  transactionKey_failure

theorem latinLowercase_payer : latinLowercase "ÉLODIE" = "élodie" := by decide +kernel

theorem toAsciiLowercase_payer : toAsciiLowercase "ÉLODIE" = "Élodie" := by
  rw [toAsciiLowercase_eq]
  decide +kernel

/-- The confirmation took the place of the failure, and its payer still finds
both. -/
theorem failure_still_found :
    (Ledger.run latinLowercase 100 [failure, confirmation]).records = [confirmation] ∧
    (Ledger.run latinLowercase 100 [failure, confirmation]).findByPayer latinLowercase
      "ÉLODIE" = [failure, confirmation] := by
  have hopen : failure.success = false := rfl
  have hfailure : latinLowercase failure.payer = "élodie" := latinLowercase_payer
  have hconfirmation : latinLowercase confirmation.payer = "élodie" := latinLowercase_payer
  have hremoved : toAsciiLowercase failure.payer = "Élodie" := toAsciiLowercase_payer
  simp [Ledger.run, Ledger.record, Ledger.new, Ledger.makeRoom, Ledger.push,
    Ledger.removeIndexes, Ledger.findByPayer, transactionKey_failure,
    transactionKey_confirmation, hopen, hfailure, hconfirmation, hremoved]
  rw [hconfirmation, latinLowercase_payer, Finmap.lookup_insert, Finmap.lookup_insert]
  rfl

theorem not_payerExact :
    ¬ (Ledger.run latinLowercase 100 [failure, confirmation]).PayerExact
      latinLowercase := by
  intro hexact
  obtain ⟨hrecords, hfound⟩ := failure_still_found
  have hlength := congrArg List.length (hexact.found "ÉLODIE")
  rw [hfound, Ledger.payerRecords, hrecords] at hlength
  have hle := List.length_filter_le
    (fun record => decide (latinLowercase record.payer = latinLowercase "ÉLODIE"))
    [confirmation]
  rw [← hlength] at hle
  contradiction

end PayerWitness

end KiteX402
