/-
The cache answers each key from the calls on that key alone: entries cleaned
up and entries that no longer count cannot be told apart.
-/
import KiteX402.Idempotency

namespace KiteX402

namespace IdempotencyCache

abbrev Event := Answered Call (Option AcquireResult)

/-- What a call makes of the entry of its key. -/
def entryAfter (entry : Option Entry) (event : Event) : Option Entry :=
  match event.call with
  | .acquire _ _ =>
      if event.result = some .acquired then some (.inProgress event.time) else entry
  | .complete _ _ response => some (.completed response event.time)
  | .release _ _ =>
      match entry with
      | some (.inProgress _) => none
      | entry => entry

/-- The calls on a key. -/
def onKey (key : String) (history : List Event) : List Event :=
  history.filter fun event => event.call.key = key

/-- The entry of a key if only the calls on it are looked at and nothing is
ever cleaned up. -/
def entryOf (history : List Event) (key : String) : Option Entry :=
  (onKey key history).foldl entryAfter none

/-- The answer to a call from the earlier calls on its key. -/
def keyAnswer (config : IdempotencyConfig) (before : List Event) (now : Instant) :
    Call → Option AcquireResult
  | .acquire _ _ =>
      some (((before.foldl entryAfter none).filter (Entry.live config now)).elim
        .acquired Entry.result)
  | _ => none

theorem entryOf_concat (history : List Event) (event : Event) {key : String}
    (hkey : event.call.key = key) :
    entryOf (history ++ [event]) key = entryAfter (entryOf history key) event := by
  unfold entryOf onKey
  rw [List.filter_append, List.filter_singleton, hkey, decide_eq_true rfl, cond_true,
    List.foldl_concat]

theorem entryOf_concat_of_ne (history : List Event) (event : Event) {key : String}
    (hkey : event.call.key ≠ key) :
    entryOf (history ++ [event]) key = entryOf history key := by
  unfold entryOf onKey
  rw [List.filter_append, List.filter_singleton, decide_eq_false hkey, cond_false,
    List.append_nil]

/-- An entry that no longer counts does not count later. -/
theorem Entry.live_antitone {config : IdempotencyConfig} {entry : Entry}
    {now later : Instant} (htime : now ≤ later) (hdead : entry.live config now = false) :
    entry.live config later = false := by
  cases entry with
  | inProgress startedAt =>
      simp only [Entry.live, decide_eq_false_iff_not, not_lt] at hdead ⊢
      exact hdead.trans (Nat.sub_le_sub_right htime _)
  | completed response cachedAt =>
      simp only [Entry.live, decide_eq_false_iff_not, not_lt] at hdead ⊢
      exact hdead.trans (Nat.sub_le_sub_right htime _)

/-- What is stored under a key is its entry, or nothing when the entry no longer
counts. -/
def Stands (config : IdempotencyConfig) (now : Instant) (stored entry : Option Entry) :
    Prop :=
  stored = entry ∨ (stored = none ∧ entry.filter (Entry.live config now) = none)

namespace Stands

variable {config : IdempotencyConfig} {now later : Instant}
  {stored entry : Option Entry}

theorem mono (hstands : Stands config now stored entry) (htime : now ≤ later) :
    Stands config later stored entry := by
  rcases hstands with heq | ⟨hnone, hdead⟩
  · exact Or.inl heq
  · refine Or.inr ⟨hnone, ?_⟩
    rw [Option.filter_eq_none_iff] at hdead ⊢
    intro held hheld hlive
    have hearlier := hdead held hheld
    rw [Bool.not_eq_true] at hearlier
    rw [Entry.live_antitone htime hearlier] at hlive
    contradiction

theorem filter_live (hstands : Stands config now stored entry) :
    stored.filter (Entry.live config now) = entry.filter (Entry.live config now) := by
  rcases hstands with heq | ⟨hnone, hdead⟩
  · rw [heq]
  · rw [hdead, hnone, Option.filter_none]

/-- The clean-up leaves what still counts. -/
theorem clean (hstands : Stands config now stored entry) :
    Stands config now (stored.filter (Entry.live config now)) entry := by
  rw [hstands.filter_live]
  cases hfilter : entry.filter (Entry.live config now) with
  | none => exact Or.inr ⟨rfl, hfilter⟩
  | some held =>
      rw [Option.filter_eq_some_iff] at hfilter
      exact Or.inl hfilter.1.symm

end Stands

theorem lookup_cleanUp (config : IdempotencyConfig) (now : Instant)
    (entries : Entries) (key : String) :
    (cleanUp config now entries).lookup key = entries.lookup key ∨
      (cleanUp config now entries).lookup key =
        (entries.lookup key).filter (Entry.live config now) := by
  unfold cleanUp
  split
  · exact Or.inr (lookup_retain _ _ _)
  · exact Or.inl rfl

theorem lookup_release (entries : Entries) (key other : String) :
    (release entries key).lookup other =
      if key = other then
        match entries.lookup other with
        | some (.inProgress _) => none
        | entry => entry
      else entries.lookup other := by
  unfold release
  by_cases hkey : key = other
  · subst hkey
    rw [if_pos rfl]
    cases hlookup : entries.lookup key with
    | none => exact hlookup
    | some entry =>
        cases entry with
        | inProgress startedAt => exact Finmap.lookup_erase key entries
        | completed response => exact hlookup
  · rw [if_neg hkey]
    split
    · exact Finmap.lookup_erase_ne (Ne.symm hkey)
    · rfl

/-- Every key stands as its own calls left it. -/
def Tracks (config : IdempotencyConfig) (session : Session Entries)
    (history : List Event) : Prop :=
  ∀ key, Stands config session.now (session.state.lookup key) (entryOf history key)

section Step

variable {config : IdempotencyConfig} {session : Session Entries}
  {history : List Event}

theorem Tracks.result_eq (htracks : Tracks config session history) {time : Instant}
    (htime : session.now ≤ time) (call : Call) :
    (answer config time session.state call).2 =
      keyAnswer config (onKey call.key history) time call := by
  cases call with
  | acquire client key =>
      have hstands := ((htracks key).mono htime).filter_live
      simp only [answer, keyAnswer, Call.key, acquire]
      rw [hstands]
      unfold entryOf
      cases ((onKey key history).foldl entryAfter none).filter (Entry.live config time) with
      | none => rfl
      | some entry => rfl
  | complete client key response => rfl
  | release client key => rfl

theorem Tracks.acquire (htracks : Tracks config session history) {time : Instant}
    (htime : session.now ≤ time) (client : ℕ) (key : String) :
    Tracks config ⟨time, (acquire config time session.state key).1⟩
      (history ++ [⟨time, .acquire client key,
        some (acquire config time session.state key).2⟩]) := by
  intro other
  have hother := (htracks other).mono htime
  unfold IdempotencyCache.acquire
  by_cases hkey : key = other
  · rw [entryOf_concat _ ⟨time, .acquire client key, _⟩ hkey]
    cases hfilter : (session.state.lookup key).filter (Entry.live config time) with
    | some entry =>
        have hresult : entry.result ≠ .acquired := by cases entry <;> simp [Entry.result]
        simp only [entryAfter, Option.some_inj, hresult, if_false]
        exact hother
    | none =>
        simp only [entryAfter, if_true]
        rw [hkey, Finmap.lookup_insert]
        exact Or.inl rfl
  · rw [entryOf_concat_of_ne _ ⟨time, .acquire client key, _⟩ hkey]
    cases hfilter : (session.state.lookup key).filter (Entry.live config time) with
    | some entry => exact hother
    | none =>
        simp only
        rw [Finmap.lookup_insert_of_ne _ (Ne.symm hkey)]
        rcases lookup_cleanUp config time session.state other with heq | heq <;> rw [heq]
        · exact hother
        · exact hother.clean

theorem Tracks.complete (htracks : Tracks config session history) {time : Instant}
    (htime : session.now ≤ time) (client : ℕ) (key : String)
    (response : CachedResponse) :
    Tracks config ⟨time, complete time session.state key response⟩
      (history ++ [⟨time, .complete client key response, none⟩]) := by
  intro other
  unfold IdempotencyCache.complete
  by_cases hkey : key = other
  · rw [entryOf_concat _ ⟨time, .complete client key response, _⟩ hkey, hkey]
    exact Or.inl (Finmap.lookup_insert _)
  · rw [entryOf_concat_of_ne _ ⟨time, .complete client key response, _⟩ hkey,
      Finmap.lookup_insert_of_ne _ (Ne.symm hkey)]
    exact (htracks other).mono htime

theorem Tracks.release (htracks : Tracks config session history) {time : Instant}
    (htime : session.now ≤ time) (client : ℕ) (key : String) :
    Tracks config ⟨time, release session.state key⟩
      (history ++ [⟨time, .release client key, none⟩]) := by
  intro other
  have hother := (htracks other).mono htime
  by_cases hkey : key = other
  · rw [entryOf_concat _ ⟨time, .release client key, _⟩ hkey, lookup_release, if_pos hkey]
    simp only [entryAfter]
    rcases hother with heq | ⟨hnone, hdead⟩
    · rw [heq]
      exact Or.inl rfl
    · rw [hnone]
      cases hentry : entryOf history other with
      | none => exact Or.inl rfl
      | some entry =>
          cases entry with
          | inProgress startedAt => exact Or.inl rfl
          | completed response cachedAt =>
              rw [hentry] at hdead
              exact Or.inr ⟨rfl, hdead⟩
  · rw [entryOf_concat_of_ne _ ⟨time, .release client key, _⟩ hkey, lookup_release,
      if_neg hkey]
    exact hother

theorem Tracks.step (htracks : Tracks config session history) {time : Instant}
    (htime : session.now ≤ time) (call : Call) :
    Tracks config ⟨time, (answer config time session.state call).1⟩
      (history ++ [⟨time, call, (answer config time session.state call).2⟩]) := by
  cases call with
  | acquire client key => exact htracks.acquire htime client key
  | complete client key response => exact htracks.complete htime client key response
  | release client key => exact htracks.release htime client key

end Step

end IdempotencyCache

end KiteX402
