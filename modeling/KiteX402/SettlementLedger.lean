/-
The settlement ledger: the retained records, indexed by transaction and by
payer.
-/
import KiteX402.Expiration
import KiteX402.KeyedLog
import KiteX402.Text
import Mathlib.Data.Finmap

namespace KiteX402

structure SettlementRecord where
  txHash : String
  payer : String
  payTo : String
  amount : UInt64
  network : String
  timestampSecs : UInt64
  success : Bool
  errorReason : Option String
deriving DecidableEq

structure LedgerSummary where
  totalSettledVolume : UInt64
  successfulCount : UInt64
  failedCount : UInt64
deriving DecidableEq

/-- `Inner`. -/
structure Ledger where
  records : List SettlementRecord
  byTx : Finmap fun _ : String × String => SettlementRecord
  byPayer : Finmap fun _ : String => List SettlementRecord
  maxRecords : ℕ

/-- A transaction hash without surrounding white space, in lower case. -/
def normalizedHash (txHash : String) : String :=
  toAsciiLowercase (String.ofList (trim txHash.toList))

def transactionKey (record : SettlementRecord) : Option (String × String) :=
  let tx := normalizedHash record.txHash
  if tx = "" then none else some (record.network, tx)

namespace Ledger

/-- `SettlementLedger::new`. -/
def new (maxRecords : ℕ) : Ledger := ⟨[], ∅, ∅, max maxRecords 100⟩

def removeIndexes (ledger : Ledger) (record : SettlementRecord) : Ledger :=
  let byTx := match transactionKey record with
    | some key => ledger.byTx.erase key
    | none => ledger.byTx
  let payer := toAsciiLowercase record.payer
  let byPayer := match ledger.byPayer.lookup payer with
    | some records =>
        let rest := records.erase record
        if rest = [] then ledger.byPayer.erase payer
        else ledger.byPayer.insert payer rest
    | none => ledger.byPayer
  { ledger with byTx := byTx, byPayer := byPayer }

/-- Evict the oldest record when the ledger is full. -/
def makeRoom (ledger : Ledger) : Ledger :=
  if ledger.maxRecords ≤ ledger.records.length then
    match ledger.records with
    | evicted :: rest => { ledger with records := rest }.removeIndexes evicted
    | [] => ledger
  else ledger

section Record

variable (toLowercase : String → String)

/-- Index a record and retain it as the newest. -/
def push (ledger : Ledger) (record : SettlementRecord) : Ledger :=
  let payerKey := toLowercase record.payer
  let byTx := match transactionKey record with
    | some key => ledger.byTx.insert key record
    | none => ledger.byTx
  { ledger with
    byTx := byTx
    byPayer := ledger.byPayer.insert payerKey
      ((ledger.byPayer.lookup payerKey).getD [] ++ [record])
    records := ledger.records ++ [record] }

/-- `SettlementLedger::record`; `toLowercase` is `str::to_lowercase`. -/
def record (ledger : Ledger) (record : SettlementRecord) : Ledger :=
  match (transactionKey record).bind ledger.byTx.lookup with
  | some previous =>
      if previous.success then ledger
      else
        let rest := { ledger with records := ledger.records.erase previous }
        ((rest.removeIndexes previous).makeRoom).push toLowercase record
  | none => ledger.makeRoom.push toLowercase record

def findByPayer (ledger : Ledger) (payer : String) : List SettlementRecord :=
  (ledger.byPayer.lookup (toLowercase payer)).getD []

/-- The ledger after a sequence of calls. -/
def run (maxRecords : ℕ) (calls : List SettlementRecord) : Ledger :=
  calls.foldl (record toLowercase) (new maxRecords)

end Record

/-- `get_by_tx`; `order` is the order in which the map is iterated. -/
def getByTx (order : List ((String × String) × SettlementRecord)) (txHash : String) :
    Option SettlementRecord :=
  let tx := normalizedHash txHash
  match order.filter fun entry => entry.1.2 = tx with
  | [entry] => some entry.2
  | _ => none

def getByNetworkTx (ledger : Ledger) (network txHash : String) :
    Option SettlementRecord :=
  ledger.byTx.lookup (network, normalizedHash txHash)

def addToSummary (summary : LedgerSummary) (record : SettlementRecord) :
    LedgerSummary :=
  if record.success then
    { summary with
      successfulCount := summary.successfulCount + 1
      totalSettledVolume := saturatingAdd summary.totalSettledVolume record.amount }
  else { summary with failedCount := summary.failedCount + 1 }

def summary (ledger : Ledger) : LedgerSummary :=
  ledger.records.foldl addToSummary ⟨0, 0, 0⟩

end Ledger

end KiteX402
