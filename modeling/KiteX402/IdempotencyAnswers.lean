/-
The answers of the cache in terms of the last call that set the entry of a key.
-/
import KiteX402.IdempotencyHistory

namespace KiteX402

namespace IdempotencyCache

/-- A call that sets the entry of a key: it completes it, or acquires it. -/
def Sets (key : String) (event : Event) : Prop :=
  match event.call with
  | .acquire _ own => own = key ∧ event.result = some .acquired
  | .complete _ own _ => own = key
  | .release _ _ => False

def Frees (key : String) (event : Event) : Prop :=
  ∃ client, event.call = .release client key

/-- The last call of a history that set the entry of a key, and what came after
it. -/
structure LastSet (key : String) (history : List Event) (event : Event)
    (after : List Event) : Prop where
  split : ∃ before, history = before ++ event :: after
  sets : Sets key event
  last : ∀ other ∈ after, ¬ Sets key other

section LastSet

variable {key : String} {history after : List Event} {event last : Event}

theorem lastSet_concat_of_sets (hsets : Sets key last) :
    LastSet key (history ++ [last]) event after ↔ event = last ∧ after = [] := by
  constructor
  · rintro ⟨⟨before, hsplit⟩, _, hnone⟩
    rcases concat_eq_split hsplit with ⟨_, hevent, hafter⟩ | ⟨rest, hafter, _⟩
    · exact ⟨hevent, hafter⟩
    · exact absurd hsets (hnone last (by simp [hafter]))
  · rintro ⟨rfl, rfl⟩
    exact ⟨⟨history, rfl⟩, hsets, nofun⟩

theorem lastSet_concat_of_not_sets (hsets : ¬ Sets key last) :
    LastSet key (history ++ [last]) event after ↔
      ∃ rest, after = rest ++ [last] ∧ LastSet key history event rest := by
  constructor
  · rintro ⟨⟨before, hsplit⟩, hevent, hnone⟩
    rcases concat_eq_split hsplit with ⟨_, heq, _⟩ | ⟨rest, hafter, hhistory⟩
    · exact absurd (heq ▸ hevent) hsets
    · refine ⟨rest, hafter, ⟨before, hhistory⟩, hevent, fun other hother => ?_⟩
      exact hnone other (by simp [hafter, hother])
  · rintro ⟨rest, rfl, ⟨before, hsplit⟩, hevent, hnone⟩
    refine ⟨⟨before, by simp [hsplit]⟩, hevent, fun other hother => ?_⟩
    rcases List.mem_append.mp hother with hrest | hlast
    · exact hnone other hrest
    · rwa [List.mem_singleton.mp hlast]

theorem LastSet.unique {other : Event} {rest : List Event}
    (hfirst : LastSet key history event after)
    (hsecond : LastSet key history other rest) : event = other ∧ after = rest := by
  induction history using List.reverseRecOn generalizing after rest with
  | nil =>
      obtain ⟨before, hsplit⟩ := hfirst.split
      simp at hsplit
  | append_singleton history last ih =>
      by_cases hsets : Sets key last
      · obtain ⟨rfl, rfl⟩ := (lastSet_concat_of_sets hsets).mp hfirst
        obtain ⟨rfl, rfl⟩ := (lastSet_concat_of_sets hsets).mp hsecond
        exact ⟨rfl, rfl⟩
      · obtain ⟨first, rfl, hbefore⟩ := (lastSet_concat_of_not_sets hsets).mp hfirst
        obtain ⟨second, rfl, hbefore'⟩ := (lastSet_concat_of_not_sets hsets).mp hsecond
        obtain ⟨hevent, rfl⟩ := ih hbefore hbefore'
        exact ⟨hevent, rfl⟩

end LastSet

/-- What an entry says about the calls on its key. -/
def Describes (key : String) (history : List Event) : Option Entry → Prop
  | none => ∀ event after, LastSet key history event after →
      (∃ client, event.call = .acquire client key) ∧ ∃ other ∈ after, Frees key other
  | some (.inProgress startedAt) => ∃ event after client,
      LastSet key history event after ∧ event.call = .acquire client key ∧
      event.time = startedAt ∧ ∀ other ∈ after, ¬ Frees key other
  | some (.completed response cachedAt) => ∃ event after client,
      LastSet key history event after ∧ event.call = .complete client key response ∧
      event.time = cachedAt

namespace Describes

variable {key : String} {history : List Event} {entry : Option Entry} {last : Event}

/-- Calls that neither set nor free the entry leave it. -/
theorem frame (h : Describes key history entry) (hsets : ¬ Sets key last)
    (hfrees : ¬ Frees key last) : Describes key (history ++ [last]) entry := by
  match entry with
  | none =>
      intro event after hlast
      obtain ⟨rest, rfl, hrest⟩ := (lastSet_concat_of_not_sets hsets).mp hlast
      obtain ⟨hcall, other, hother, hother'⟩ := h event rest hrest
      exact ⟨hcall, other, List.mem_append_left _ hother, hother'⟩
  | some (.inProgress startedAt) =>
      obtain ⟨event, after, client, hlast, hcall, htime, hnone⟩ := h
      refine ⟨event, after ++ [last], client,
        (lastSet_concat_of_not_sets hsets).mpr ⟨after, rfl, hlast⟩, hcall, htime, ?_⟩
      intro other hother
      rcases List.mem_append.mp hother with hafter | hnew
      · exact hnone other hafter
      · rwa [List.mem_singleton.mp hnew]
  | some (.completed response cachedAt) =>
      obtain ⟨event, after, client, hlast, hcall, htime⟩ := h
      exact ⟨event, after ++ [last], client,
        (lastSet_concat_of_not_sets hsets).mpr ⟨after, rfl, hlast⟩, hcall, htime⟩

/-- A release ends a lease and leaves a response. -/
theorem release (h : Describes key history entry) {client : ℕ}
    (hcall : last.call = .release client key) :
    Describes key (history ++ [last]) (entryAfter entry last) := by
  have hsets : ¬ Sets key last := by simp [Sets, hcall]
  match entry with
  | none =>
      simp only [entryAfter, hcall]
      intro event after hlast
      obtain ⟨rest, rfl, hrest⟩ := (lastSet_concat_of_not_sets hsets).mp hlast
      obtain ⟨hacquire, other, hother, hfrees⟩ := h event rest hrest
      exact ⟨hacquire, other, List.mem_append_left _ hother, hfrees⟩
  | some (.inProgress startedAt) =>
      simp only [entryAfter, hcall]
      obtain ⟨event, after, holder, hlast, hacquire, htime, hnone⟩ := h
      intro other rest hother
      have hnew := (lastSet_concat_of_not_sets hsets).mpr ⟨after, rfl, hlast⟩
      obtain ⟨rfl, rfl⟩ := hnew.unique hother
      exact ⟨⟨holder, hacquire⟩, last, by simp, client, hcall⟩
  | some (.completed response cachedAt) =>
      simp only [entryAfter, hcall]
      obtain ⟨event, after, holder, hlast, hcomplete, htime⟩ := h
      exact ⟨event, after ++ [last], holder,
        (lastSet_concat_of_not_sets hsets).mpr ⟨after, rfl, hlast⟩, hcomplete, htime⟩

theorem concat (h : Describes key history (entryOf history key)) (event : Event) :
    Describes key (history ++ [event]) (entryOf (history ++ [event]) key) := by
  by_cases hkey : event.call.key = key
  · rw [entryOf_concat history event hkey]
    cases hcall : event.call with
    | acquire client own =>
        rw [hcall] at hkey
        obtain rfl : own = key := hkey
        by_cases hresult : event.result = some .acquired
        · have hsets : Sets own event := by simp [Sets, hcall, hresult]
          simp only [entryAfter, hcall, hresult, if_true]
          exact ⟨event, [], client, (lastSet_concat_of_sets hsets).mpr ⟨rfl, rfl⟩,
            hcall, rfl, by simp⟩
        · have hsets : ¬ Sets own event := by simp [Sets, hcall, hresult]
          have hfrees : ¬ Frees own event := by simp [Frees, hcall]
          simp only [entryAfter, hcall, hresult, if_false]
          exact h.frame hsets hfrees
    | complete client own response =>
        rw [hcall] at hkey
        obtain rfl : own = key := hkey
        have hsets : Sets own event := by simp [Sets, hcall]
        simp only [entryAfter, hcall]
        exact ⟨event, [], client, (lastSet_concat_of_sets hsets).mpr ⟨rfl, rfl⟩,
          hcall, rfl⟩
    | release client own =>
        rw [hcall] at hkey
        obtain rfl : own = key := hkey
        exact h.release hcall
  · rw [entryOf_concat_of_ne history event hkey]
    have hsets : ¬ Sets key event := by
      intro hsets
      unfold Sets at hsets
      cases hcall : event.call with
      | acquire client own =>
          rw [hcall] at hsets hkey
          exact hkey hsets.1
      | complete client own response =>
          rw [hcall] at hsets hkey
          exact hkey hsets
      | release client own => simp [hcall] at hsets
    have hfrees : ¬ Frees key event := by
      rintro ⟨client, hcall⟩
      rw [hcall] at hkey
      exact hkey rfl
    exact h.frame hsets hfrees

end Describes

theorem describes_entryOf (key : String) (history : List Event) :
    Describes key history (entryOf history key) := by
  induction history using List.reverseRecOn with
  | nil =>
      intro event after hlast
      obtain ⟨before, hsplit⟩ := hlast.split
      simp at hsplit
  | append_singleton history event ih => exact ih.concat event

theorem entryOf_eq_completed_iff {key : String} {history : List Event}
    {response : CachedResponse} {cachedAt : Instant} :
    entryOf history key = some (.completed response cachedAt) ↔
      Describes key history (some (.completed response cachedAt)) := by
  constructor
  · intro hentry
    rw [← hentry]
    exact describes_entryOf key history
  · rintro ⟨event, after, client, hlast, hcall, htime⟩
    have hdescribes := describes_entryOf key history
    match hentry : entryOf history key with
    | none =>
        rw [hentry] at hdescribes
        obtain ⟨⟨holder, hacquire⟩, _⟩ := hdescribes event after hlast
        simp [hacquire] at hcall
    | some (.inProgress startedAt) =>
        rw [hentry] at hdescribes
        obtain ⟨other, rest, holder, hother, hacquire, _⟩ := hdescribes
        obtain ⟨rfl, _⟩ := hlast.unique hother
        simp [hacquire] at hcall
    | some (.completed response' cachedAt') =>
        rw [hentry] at hdescribes
        obtain ⟨other, rest, holder, hother, hcomplete, htime'⟩ := hdescribes
        obtain ⟨rfl, _⟩ := hlast.unique hother
        rw [hcall] at hcomplete
        cases hcomplete
        rw [← htime, ← htime']

theorem entryOf_eq_inProgress_iff {key : String} {history : List Event}
    {startedAt : Instant} :
    entryOf history key = some (.inProgress startedAt) ↔
      Describes key history (some (.inProgress startedAt)) := by
  constructor
  · intro hentry
    rw [← hentry]
    exact describes_entryOf key history
  · rintro ⟨event, after, client, hlast, hcall, htime, hheld⟩
    have hdescribes := describes_entryOf key history
    match hentry : entryOf history key with
    | none =>
        rw [hentry] at hdescribes
        obtain ⟨_, other, hother, hfrees⟩ := hdescribes event after hlast
        exact absurd hfrees (hheld other hother)
    | some (.inProgress startedAt') =>
        rw [hentry] at hdescribes
        obtain ⟨other, rest, holder, hother, _, htime', _⟩ := hdescribes
        obtain ⟨rfl, _⟩ := hlast.unique hother
        rw [← htime, ← htime']
    | some (.completed response cachedAt) =>
        rw [hentry] at hdescribes
        obtain ⟨other, rest, holder, hother, hcomplete, _⟩ := hdescribes
        obtain ⟨rfl, _⟩ := hlast.unique hother
        simp [hcomplete] at hcall

section Answers

variable {config : IdempotencyConfig} {entry : Option Entry} {now : Instant}

/-- Whatever is answered but a new lease, a live entry answers. -/
theorem answer_eq_iff {result : AcquireResult} (hresult : result ≠ .acquired) :
    (entry.filter (Entry.live config now)).elim .acquired Entry.result = result ↔
      ∃ held, entry = some held ∧ held.live config now = true ∧ held.result = result := by
  constructor
  · intro hanswer
    cases hfilter : entry.filter (Entry.live config now) with
    | none =>
        rw [hfilter, Option.elim_none] at hanswer
        exact absurd hanswer.symm hresult
    | some held =>
        obtain ⟨hheld, hlive⟩ := Option.filter_eq_some_iff.mp hfilter
        rw [hfilter, Option.elim_some] at hanswer
        exact ⟨held, hheld, hlive, hanswer⟩
  · rintro ⟨held, rfl, hlive, hheld⟩
    rw [Option.filter_some_pos hlive, Option.elim_some, hheld]

theorem answer_eq_cached_iff {response : CachedResponse} :
    (entry.filter (Entry.live config now)).elim .acquired Entry.result =
        .cached response ↔
      ∃ cachedAt, entry = some (.completed response cachedAt) ∧
        now - cachedAt < config.ttl := by
  rw [answer_eq_iff (by simp)]
  constructor
  · rintro ⟨held, hheld, hlive, hresult⟩
    cases held with
    | inProgress startedAt => contradiction
    | completed stored cachedAt =>
        cases hresult
        exact ⟨cachedAt, hheld, of_decide_eq_true hlive⟩
  · rintro ⟨cachedAt, hheld, htime⟩
    exact ⟨_, hheld, decide_eq_true htime, rfl⟩

theorem answer_eq_inProgress_iff :
    (entry.filter (Entry.live config now)).elim .acquired Entry.result = .inProgress ↔
      ∃ startedAt, entry = some (.inProgress startedAt) ∧
        now - startedAt < config.inProgressTimeout := by
  rw [answer_eq_iff (by simp)]
  constructor
  · rintro ⟨held, hheld, hlive, hresult⟩
    cases held with
    | inProgress startedAt => exact ⟨startedAt, hheld, of_decide_eq_true hlive⟩
    | completed stored cachedAt => contradiction
  · rintro ⟨startedAt, hheld, htime⟩
    exact ⟨_, hheld, decide_eq_true htime, rfl⟩

end Answers

/-- Every answer of a session is that of the calls on its key. -/
theorem run_answers (config : IdempotencyConfig) (start : Instant)
    (calls : List (Timed Call)) :
    Tracks config (run config start calls).1 (run config start calls).2 ∧
      Justified (fun before event => event.result =
        keyAnswer config (onKey event.call.key before) event.time event.call)
        (run config start calls).2 := by
  apply (service config).run_induction (P := fun session history =>
    Tracks config session history ∧ Justified (fun before event => event.result =
      keyAnswer config (onKey event.call.key before) event.time event.call) history)
  · refine ⟨fun key => Or.inl ?_, justified_nil _⟩
    exact Finmap.lookup_empty key
  · intro session history time call ⟨htracks, hjustified⟩ htime
    exact ⟨htracks.step htime call, hjustified.concat (htracks.result_eq htime call)⟩

/-- The answers on a key, from its own calls. -/
structure Isolated (config : IdempotencyConfig) : Prop where
  cached : ∀ start calls before event after client key,
    (run config start calls).2 = before ++ event :: after →
    event.call = .acquire client key → ∀ response,
      (event.result = some (.cached response) ↔ ∃ cachedAt,
        Describes key before (some (.completed response cachedAt)) ∧
        event.time - cachedAt < config.ttl)
  inProgress : ∀ start calls before event after client key,
    (run config start calls).2 = before ++ event :: after →
    event.call = .acquire client key →
      (event.result = some .inProgress ↔ ∃ startedAt,
        Describes key before (some (.inProgress startedAt)) ∧
        event.time - startedAt < config.inProgressTimeout)
  acquired : ∀ start calls before event after client key,
    (run config start calls).2 = before ++ event :: after →
    event.call = .acquire client key →
      (event.result = some .acquired ↔
        event.result ≠ some .inProgress ∧ ∀ response, event.result ≠ some (.cached response))
  alone : ∀ maxEntries start start' calls calls' key,
    (onKey key (run config start calls).2).map Answered.stamp =
      (onKey key (run { config with maxEntries } start' calls').2).map Answered.stamp →
    onKey key (run config start calls).2 =
      onKey key (run { config with maxEntries } start' calls').2
  kept : ∀ entries key own response cachedAt,
    entries.lookup key = some (.completed response cachedAt) →
    (release entries own).lookup key = some (.completed response cachedAt)

theorem onKey_determined (config : IdempotencyConfig) (start : Instant)
    (calls : List (Timed Call)) (key : String) :
    Justified (fun before event =>
      event.result = keyAnswer config before event.time event.call)
      (onKey key (run config start calls).2) := by
  refine Justified.filter ((run_answers config start calls).2.mono ?_)
  intro before event hresult hkey
  rw [decide_eq_true_eq] at hkey
  rwa [hkey] at hresult

/-- Clean-ups and calls on other keys never show in the answers on a key. -/
theorem cache_isolated (config : IdempotencyConfig) : Isolated config where
  cached start calls before event after client key hsplit hcall response := by
    have hresult := (run_answers config start calls).2 before event after hsplit
    simp only [hcall, keyAnswer, Call.key] at hresult
    rw [hresult, Option.some_inj, answer_eq_cached_iff]
    exact exists_congr fun _ => and_congr_left fun _ => entryOf_eq_completed_iff
  inProgress start calls before event after client key hsplit hcall := by
    have hresult := (run_answers config start calls).2 before event after hsplit
    simp only [hcall, keyAnswer, Call.key] at hresult
    rw [hresult, Option.some_inj, answer_eq_inProgress_iff]
    exact exists_congr fun _ => and_congr_left fun _ => entryOf_eq_inProgress_iff
  acquired start calls before event after client key hsplit hcall := by
    have hresult := (run_answers config start calls).2 before event after hsplit
    simp only [hcall, keyAnswer] at hresult
    cases hanswer : ((onKey key before).foldl entryAfter none |>.filter
        (Entry.live config event.time)).elim .acquired Entry.result with
    | acquired => simp [hresult, Call.key, hanswer]
    | inProgress => simp [hresult, Call.key, hanswer]
    | cached response => simp [hresult, Call.key, hanswer]
  alone maxEntries start start' calls calls' key hstamps :=
    eq_of_determined (onKey_determined config start calls key)
      (onKey_determined { config with maxEntries } start' calls' key) hstamps
  kept entries key own response cachedAt hlookup := by
    rw [lookup_release, hlookup]
    exact ite_self _

end IdempotencyCache

end KiteX402
