/-
The idempotency cache: leases on keys while a request is executed, and the
responses of those that completed.
-/
import KiteX402.Service
import Mathlib.Data.Finmap

namespace KiteX402

structure IdempotencyConfig where
  ttl : Duration
  maxEntries : ℕ
  inProgressTimeout : Duration

/-- `IdempotencyConfig::default()`. -/
def IdempotencyConfig.default : IdempotencyConfig :=
  ⟨Duration.fromSecs 300, 5000, Duration.fromSecs 60⟩

structure CachedResponse where
  status : UInt16
  headers : List (String × String)
  body : List UInt8
deriving DecidableEq

inductive AcquireResult where
  | acquired
  | inProgress
  | cached (response : CachedResponse)
deriving DecidableEq

namespace IdempotencyCache

inductive Entry where
  | inProgress (startedAt : Instant)
  | completed (response : CachedResponse) (cachedAt : Instant)
deriving DecidableEq

/-- `HashMap<String, Entry>`. -/
abbrev Entries := Finmap fun _ : String => Entry

/-- `HashMap::retain`. -/
def retain (keep : Entry → Bool) (entries : Entries) : Entries :=
  ⟨entries.entries.filter fun entry => keep entry.2,
    Multiset.nodup_keys.mp
      (Multiset.nodup_of_le (Multiset.map_le_map (Multiset.filter_le _ _))
        entries.nodupKeys.nodup_keys)⟩

theorem lookup_retain (keep : Entry → Bool) (entries : Entries) (key : String) :
    (retain keep entries).lookup key = (entries.lookup key).filter keep := by
  apply Option.ext
  intro entry
  rw [Option.filter_eq_some_iff, Finmap.lookup_eq_some_iff, Finmap.lookup_eq_some_iff]
  exact Multiset.mem_filter

variable (config : IdempotencyConfig) (now : Instant)

/-- Whether an entry still counts. -/
def Entry.live : Entry → Bool
  | .inProgress startedAt => now - startedAt < config.inProgressTimeout
  | .completed _ cachedAt => now - cachedAt < config.ttl

/-- What an entry answers to a request for its key while it counts. -/
def Entry.result : Entry → AcquireResult
  | .inProgress _ => .inProgress
  | .completed response _ => .cached response

/-- The entries once those that no longer count are cleaned up, which is done
when the cache is full. -/
def cleanUp (entries : Entries) : Entries :=
  if config.maxEntries ≤ entries.keys.card then retain (Entry.live config now) entries
  else entries

/-- `IdempotencyCache::acquire`. -/
def acquire (entries : Entries) (key : String) : Entries × AcquireResult :=
  match (entries.lookup key).filter (Entry.live config now) with
  | some entry => (entries, entry.result)
  | none => ((cleanUp config now entries).insert key (.inProgress now), .acquired)

/-- `IdempotencyCache::complete`. -/
def complete (entries : Entries) (key : String) (response : CachedResponse) : Entries :=
  entries.insert key (.completed response now)

/-- `IdempotencyCache::release`. -/
def release (entries : Entries) (key : String) : Entries :=
  match entries.lookup key with
  | some (.inProgress _) => entries.erase key
  | _ => entries

/-- A call of one of the clients. -/
inductive Call where
  | acquire (client : ℕ) (key : String)
  | complete (client : ℕ) (key : String) (response : CachedResponse)
  | release (client : ℕ) (key : String)
deriving DecidableEq

def Call.client : Call → ℕ
  | .acquire client _ | .complete client _ _ | .release client _ => client

def Call.key : Call → String
  | .acquire _ key | .complete _ key _ | .release _ key => key

/-- The calls of all clients, each under the lock of the cache; only `acquire`
returns something. -/
def answer (entries : Entries) : Call → Entries × Option AcquireResult
  | .acquire _ key =>
      ((acquire config now entries key).1, some (acquire config now entries key).2)
  | .complete _ key response => (complete now entries key response, none)
  | .release _ key => (release entries key, none)

def service : Service Entries Call (Option AcquireResult) :=
  ⟨answer config, fun _ => 0⟩

/-- A session with a new cache. -/
def run (start : Instant) (calls : List (Timed Call)) :
    Session Entries × List (Answered Call (Option AcquireResult)) :=
  (service config).run start ∅ calls

end IdempotencyCache

end KiteX402
