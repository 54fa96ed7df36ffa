/-
How many entries the idempotency cache holds, whatever the clock reads.
-/
import KiteX402.ExpiryStore
import KiteX402.Idempotency

namespace KiteX402

namespace IdempotencyCache

/-- `IdempotencyCache::len`. -/
def len (entries : Entries) : ℕ := entries.keys.card

/-- The cache under any clock: each call comes with what it reads. -/
def clocked (config : IdempotencyConfig) :
    Machine Entries (Instant × Call) (Option AcquireResult) :=
  ⟨fun entries read =>
    let answered := answer config read.1 entries read.2
    (answered.1, [answered.2])⟩

/-- The entries of a new cache after some calls. -/
def reached (config : IdempotencyConfig) (reads : List (Instant × Call)) : Entries :=
  ((clocked config).run ∅ reads).1

/-- A new lease finds fewer live entries than allowed, and what is completed
without one fewer entries. -/
def FindsRoom (config : IdempotencyConfig) (entries : Entries) (now : Instant) : Call → Prop
  | .acquire _ key =>
      (∃ entry, entries.lookup key = some entry ∧ entry.live config now = true) ∨
        len (retain (Entry.live config now) entries) < config.maxEntries
  | .complete _ key _ => key ∈ entries ∨ len entries < config.maxEntries
  | .release _ _ => True

section Room

variable {config : IdempotencyConfig} {entries : Entries} {now : Instant} {key : String}

theorem len_retain_le (keep : Entry → Bool) (entries : Entries) :
    len (retain keep entries) ≤ len entries := by
  refine Finset.card_le_card fun key hkey => ?_
  rw [Finmap.mem_keys, ← Finmap.lookup_isSome, lookup_retain] at hkey
  rw [Finmap.mem_keys, ← Finmap.lookup_isSome]
  exact Option.isSome_of_isSome_filter _ _ hkey

theorem len_insert_of_mem (hkey : key ∈ entries) (entry : Entry) :
    len (entries.insert key entry) = len entries := by
  rw [len, keys_finmap_insert, Finset.insert_eq_of_mem (Finmap.mem_keys.mpr hkey), len]

theorem len_insert_of_notMem (hkey : key ∉ entries) (entry : Entry) :
    len (entries.insert key entry) = len entries + 1 := by
  rw [len, keys_finmap_insert, Finset.card_insert_of_notMem (Finmap.mem_keys.not.mpr hkey), len]

theorem len_insert_le (entry : Entry) : len (entries.insert key entry) ≤ len entries + 1 := by
  rw [len, keys_finmap_insert]
  exact Finset.card_insert_le _ _

theorem len_release_le (entries : Entries) (key : String) :
    len (release entries key) ≤ len entries := by
  unfold release
  split
  next =>
    rw [len, Finmap.keys_erase]
    exact Finset.card_erase_le
  next => exact le_rfl

theorem cleanUp_of_full (hfull : config.maxEntries ≤ len entries) :
    cleanUp config now entries = retain (Entry.live config now) entries := if_pos hfull

theorem cleanUp_of_room (hroom : len entries < config.maxEntries) :
    cleanUp config now entries = entries := if_neg (not_le.mpr hroom)

/-- A cache within its bound stays so just when the call finds room. -/
theorem len_acquire_le_iff (hlen : len entries ≤ config.maxEntries) (client : ℕ) :
    len (acquire config now entries key).1 ≤ config.maxEntries ↔
      FindsRoom config entries now (.acquire client key) := by
  unfold acquire
  cases hlive : (entries.lookup key).filter (Entry.live config now) with
  | some entry => exact iff_of_true hlen (Or.inl ⟨entry, Option.filter_eq_some_iff.mp hlive⟩)
  | none =>
      have hnot : ¬∃ entry, entries.lookup key = some entry ∧ entry.live config now = true := by
        rintro ⟨entry, hentry⟩
        exact nomatch hlive.symm.trans (Option.filter_eq_some_iff.mpr hentry)
      simp only [FindsRoom, or_iff_right hnot]
      by_cases hfull : config.maxEntries ≤ len entries
      · have hgone : key ∉ retain (Entry.live config now) entries := by
          rw [← Finmap.lookup_eq_none, lookup_retain]
          exact hlive
        rw [cleanUp_of_full hfull, len_insert_of_notMem hgone]
        exact Nat.succ_le_iff
      · have hroom : len entries < config.maxEntries := not_le.mp hfull
        rw [cleanUp_of_room hroom]
        exact iff_of_true ((len_insert_le _).trans hroom) ((len_retain_le _ _).trans_lt hroom)

theorem len_complete_le_iff (hlen : len entries ≤ config.maxEntries) (client : ℕ)
    (response : CachedResponse) :
    len (complete now entries key response) ≤ config.maxEntries ↔
      FindsRoom config entries now (.complete client key response) := by
  unfold complete
  by_cases hkey : key ∈ entries
  · rw [len_insert_of_mem hkey]
    exact iff_of_true hlen (Or.inl hkey)
  · simp only [FindsRoom, len_insert_of_notMem hkey, or_iff_right hkey]
    exact Nat.succ_le_iff

theorem len_answer_le_iff (hlen : len entries ≤ config.maxEntries) (call : Call) :
    len (answer config now entries call).1 ≤ config.maxEntries ↔
      FindsRoom config entries now call := by
  cases call with
  | acquire client key => exact len_acquire_le_iff hlen client
  | complete client key response => exact len_complete_le_iff hlen client response
  | release client key => exact iff_of_true ((len_release_le entries key).trans hlen) trivial

/-- The cache is within its bound in every state of a run exactly when each call
finds room: completing a key never cleans up, and live entries are never
evicted. -/
theorem len_bounded_iff (config : IdempotencyConfig) (reads : List (Instant × Call)) :
    (∀ before after, reads = before ++ after →
        len (reached config before) ≤ config.maxEntries) ↔
      Justified (fun before read =>
        FindsRoom config (reached config before) read.1 read.2) reads :=
  (clocked config).run_invariant_iff (P := fun entries => len entries ≤ config.maxEntries)
    (Q := fun entries read => FindsRoom config entries read.1 read.2) (Nat.zero_le _)
    (fun _ read hlen => len_answer_le_iff hlen read.2) reads

end Room

end IdempotencyCache

namespace BoundWitness

open IdempotencyCache

/-- One entry, kept for a minute. -/
def tight : IdempotencyConfig := ⟨Duration.fromSecs 60, 1, Duration.fromSecs 60⟩

/-- A second key is acquired while the first is live. -/
theorem second_key_exceeds :
    1 ≤ tight.maxEntries ∧
      ¬∀ before after, [(0, .acquire 0 "a"), (1, .acquire 0 "b")] = before ++ after →
        len (reached tight before) ≤ tight.maxEntries := by
  refine ⟨by decide, fun hbounded => ?_⟩
  have hlen := hbounded [(0, .acquire 0 "a"), (1, .acquire 0 "b")] [] rfl
  exact absurd hlen (by decide +kernel)

end BoundWitness

end KiteX402
