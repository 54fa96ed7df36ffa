/-
Leases of the idempotency cache: a key is granted to one client at a time, as
long as no other client releases it.
-/
import KiteX402.IdempotencyHistory

namespace KiteX402

namespace IdempotencyCache

/-- The client is granted the key. -/
def Acquires (client : ℕ) (key : String) (event : Event) : Prop :=
  event.call = .acquire client key ∧ event.result = some .acquired

/-- The client gives the key back. -/
def Ends (client : ℕ) (key : String) (event : Event) : Prop :=
  event.call = .release client key ∨
    ∃ response, event.call = .complete client key response

/-- A key is granted again within the timeout of its lease only after the client
that held it gave it back. -/
def ExclusiveLeases (config : IdempotencyConfig) (history : List Event) : Prop :=
  ∀ before first middle second after client other key,
    history = before ++ first :: (middle ++ second :: after) →
    Acquires client key first → Acquires other key second →
    second.time < first.time + config.inProgressTimeout →
      ∃ event ∈ middle, Ends client key event

/-- The client that a key was last granted to. -/
def holder (history : List Event) (key : String) : Option ℕ :=
  (history.filter fun event =>
    event.call.key = key ∧ event.result = some .acquired).getLast?.map
      fun event => event.call.client

/-- A call by another client than its holder does not end a lease: it is not a
release within the timeout, and what it completes is cached for as long as the
lease would have lasted. -/
def LeaseKept (config : IdempotencyConfig)
    (reached : Session Entries × List Event) (timed : Timed Call) : Prop :=
  let now := reached.1.now + timed.elapsed
  match timed.call with
  | .acquire _ _ => True
  | .release client key => ∀ startedAt,
      reached.1.state.lookup key = some (.inProgress startedAt) →
      now < startedAt + config.inProgressTimeout →
      holder reached.2 key = some client
  | .complete client key _ => ∀ startedAt,
      reached.1.state.lookup key = some (.inProgress startedAt) →
      now < startedAt + config.inProgressTimeout →
      holder reached.2 key = some client ∨
        startedAt + config.inProgressTimeout ≤ now + config.ttl

theorem holder_concat_acquired {history : List Event} {event : Event} {client : ℕ}
    {key : String} (hevent : Acquires client key event) :
    holder (history ++ [event]) key = some client := by
  obtain ⟨hcall, hresult⟩ := hevent
  unfold holder
  rw [List.filter_append, List.filter_singleton, hcall, hresult]
  simp [Call.key, hcall, Call.client]

theorem holder_concat {history : List Event} {event : Event} {key : String}
    (hevent : ¬ (event.call.key = key ∧ event.result = some .acquired)) :
    holder (history ++ [event]) key = holder history key := by
  unfold holder
  rw [List.filter_append, List.filter_singleton, decide_eq_false hevent, cond_false,
    List.append_nil]

/-- The entry of a key keeps it from being granted as long as a lease lasts. -/
def Backed (config : IdempotencyConfig) (session : Session Entries)
    (history : List Event) (startedAt : Instant) (client : ℕ) (key : String) : Prop :=
  (session.state.lookup key = some (.inProgress startedAt) ∧
    holder history key = some client) ∨
  ∃ response cachedAt, session.state.lookup key = some (.completed response cachedAt) ∧
    cachedAt ≤ session.now ∧
    startedAt + config.inProgressTimeout ≤ cachedAt + config.ttl

/-- A lease that was not given back is backed until it times out. -/
def Leased (config : IdempotencyConfig) (session : Session Entries)
    (history : List Event) : Prop :=
  ∀ before first middle client key, history = before ++ first :: middle →
    Acquires client key first → (∀ event ∈ middle, ¬ Ends client key event) →
    session.now < first.time + config.inProgressTimeout →
      first.time ≤ session.now ∧ Backed config session history first.time client key

section Step

variable {config : IdempotencyConfig} {entries : Entries} {now : Instant}
  {key : String} {entry : Entry}

theorem lookup_cleanUp_of_live (hlookup : entries.lookup key = some entry)
    (hlive : entry.live config now = true) :
    (cleanUp config now entries).lookup key = some entry := by
  rcases lookup_cleanUp config now entries key with heq | heq
  · rw [heq, hlookup]
  · rw [heq, hlookup, Option.filter_some_pos hlive]

/-- A key whose entry counts is not granted. -/
theorem acquire_of_live (hlookup : entries.lookup key = some entry)
    (hlive : entry.live config now = true) :
    acquire config now entries key = (entries, entry.result) := by
  unfold acquire
  rw [hlookup, Option.filter_some_pos hlive]

/-- Calls on other keys leave an entry that counts. -/
theorem lookup_answer_of_ne {call : Call} (hkey : call.key ≠ key)
    (hlookup : entries.lookup key = some entry) (hlive : entry.live config now = true) :
    (answer config now entries call).1.lookup key = some entry := by
  cases call with
  | acquire client own =>
      have hne : key ≠ own := Ne.symm hkey
      simp only [answer, acquire]
      split
      · exact hlookup
      · simp only
        rw [Finmap.lookup_insert_of_ne _ hne]
        exact lookup_cleanUp_of_live hlookup hlive
  | complete client own response =>
      have hne : key ≠ own := Ne.symm hkey
      simp only [answer, complete]
      rw [Finmap.lookup_insert_of_ne _ hne]
      exact hlookup
  | release client own =>
      have hne : own ≠ key := hkey
      simp only [answer]
      rw [lookup_release, if_neg hne]
      exact hlookup

end Step

section Lease

variable {config : IdempotencyConfig} {session : Session Entries}
  {history : List Event} {startedAt : Instant} {client : ℕ} {key : String}

/-- The entry behind a lease counts as long as the lease lasts. -/
theorem Backed.live (hbacked : Backed config session history startedAt client key)
    {time : Instant} (hstart : startedAt ≤ time) (htime : session.now ≤ time)
    (hearly : time < startedAt + config.inProgressTimeout) :
    ∃ entry, session.state.lookup key = some entry ∧ entry.live config time = true := by
  rcases hbacked with ⟨hlookup, _⟩ | ⟨response, cachedAt, hlookup, hpast, hlong⟩
  · refine ⟨_, hlookup, decide_eq_true ?_⟩
    exact (Nat.sub_lt_iff_lt_add' hstart).mpr hearly
  · refine ⟨_, hlookup, decide_eq_true ?_⟩
    exact (Nat.sub_lt_iff_lt_add' (hpast.trans htime)).mpr (hearly.trans_le hlong)

/-- A lease stays backed by a call that leaves its key alone. -/
theorem Backed.keep (hbacked : Backed config session history startedAt client key)
    {next : Session Entries} {event : Event}
    (hlookup : next.state.lookup key = session.state.lookup key)
    (hevent : ¬ (event.call.key = key ∧ event.result = some .acquired))
    (htime : session.now ≤ next.now) :
    Backed config next (history ++ [event]) startedAt client key := by
  unfold Backed
  rw [hlookup, holder_concat hevent]
  rcases hbacked with hheld | ⟨response, cachedAt, hstored, hpast, hlong⟩
  · exact Or.inl hheld
  · exact Or.inr ⟨response, cachedAt, hstored, hpast.trans htime, hlong⟩

theorem Backed.complete (hbacked : Backed config session history startedAt client key)
    {elapsed : Duration} {other : ℕ} {response : CachedResponse}
    (hkept : LeaseKept config (session, history) ⟨elapsed, .complete other key response⟩)
    (hearly : session.now + elapsed < startedAt + config.inProgressTimeout)
    (hother : other ≠ client) :
    startedAt + config.inProgressTimeout ≤ session.now + elapsed + config.ttl := by
  rcases hbacked with ⟨hlookup, hholder⟩ | ⟨_, cachedAt, _, hpast, hlong⟩
  · rcases hkept startedAt hlookup hearly with hsame | hlong
    · rw [hholder, Option.some_inj] at hsame
      exact absurd hsame.symm hother
    · exact hlong
  · apply hlong.trans
    exact Nat.add_le_add_right (hpast.trans (Nat.le_add_right _ _)) _

theorem Backed.release (hbacked : Backed config session history startedAt client key)
    {elapsed : Duration} {other : ℕ}
    (hkept : LeaseKept config (session, history) ⟨elapsed, .release other key⟩)
    (hearly : session.now + elapsed < startedAt + config.inProgressTimeout)
    (hother : other ≠ client) :
    (release session.state key).lookup key = session.state.lookup key := by
  rw [lookup_release, if_pos rfl]
  rcases hbacked with ⟨hlookup, hholder⟩ | ⟨response, cachedAt, hlookup, _⟩
  · have hsame := hkept startedAt hlookup hearly
    rw [hholder, Option.some_inj] at hsame
    exact absurd hsame.symm hother
  · rw [hlookup]

/-- A call that keeps leases leaves a lease backed, unless its holder gives it
back; and it is not granted the key. -/
theorem Backed.step (hbacked : Backed config session history startedAt client key)
    {elapsed : Duration} {call : Call} {time : Instant}
    (hnow : time = session.now + elapsed)
    (hkept : LeaseKept config (session, history) ⟨elapsed, call⟩)
    (hstart : startedAt ≤ session.now)
    (hearly : time < startedAt + config.inProgressTimeout)
    (hheld : ¬ Ends client key ⟨time, call, (answer config time session.state call).2⟩) :
    (∀ other, ¬ Acquires other key
      ⟨time, call, (answer config time session.state call).2⟩) ∧
    Backed config ⟨time, (answer config time session.state call).1⟩
      (history ++ [⟨time, call, (answer config time session.state call).2⟩])
      startedAt client key := by
  have htime : session.now ≤ time := hnow ▸ Nat.le_add_right _ _
  obtain ⟨entry, hlookup, hlive⟩ := hbacked.live (hstart.trans htime) htime hearly
  by_cases hkey : call.key = key
  · cases call with
    | acquire other own =>
        obtain rfl : own = key := hkey
        have hanswer : answer config time session.state (.acquire other own) =
            (session.state, some entry.result) := by
          rw [answer, acquire_of_live hlookup hlive]
        have hresult : some entry.result ≠ some AcquireResult.acquired := by
          cases entry <;> simp [Entry.result]
        rw [hanswer]
        exact ⟨fun _ hacquires => hresult hacquires.2,
          hbacked.keep rfl (fun h => hresult h.2) htime⟩
    | complete other own response =>
        obtain rfl : own = key := hkey
        have hother : other ≠ client := by
          rintro rfl
          exact hheld (Or.inr ⟨response, rfl⟩)
        subst hnow
        exact ⟨fun _ hacquires => absurd hacquires.1 (by simp),
          Or.inr ⟨response, _, Finmap.lookup_insert _, Nat.le_refl _,
            hbacked.complete hkept hearly hother⟩⟩
    | release other own =>
        obtain rfl : own = key := hkey
        have hother : other ≠ client := by
          rintro rfl
          exact hheld (Or.inl rfl)
        subst hnow
        exact ⟨fun _ hacquires => absurd hacquires.1 (by simp),
          hbacked.keep (hbacked.release hkept hearly hother)
            (fun h => absurd h.2 (by simp [answer])) htime⟩
  · have hother : ∀ other, ¬ Acquires other key
        ⟨time, call, (answer config time session.state call).2⟩ := by
      rintro other ⟨rfl, _⟩
      exact hkey rfl
    refine ⟨hother, hbacked.keep ?_ (fun h => hkey h.1) htime⟩
    rw [lookup_answer_of_ne hkey hlookup hlive, hlookup]

/-- A grant backs the lease it starts. -/
theorem backed_of_acquires {time : Instant} {call : Call}
    (hacquires : Acquires client key
      ⟨time, call, (answer config time session.state call).2⟩) :
    Backed config ⟨time, (answer config time session.state call).1⟩
      (history ++ [⟨time, call, (answer config time session.state call).2⟩])
      time client key := by
  refine Or.inl ⟨?_, holder_concat_acquired hacquires⟩
  obtain ⟨hcall, hresult⟩ := hacquires
  simp only at hcall hresult
  subst hcall
  simp only [answer, Option.some_inj] at hresult ⊢
  unfold acquire at hresult ⊢
  split at hresult
  next entry hentry =>
    cases entry <;> simp [Entry.result] at hresult
  next => exact Finmap.lookup_insert _

theorem Leased.step (hleased : Leased config session history)
    (hexclusive : ExclusiveLeases config history)
    {elapsed : Duration} {call : Call} {time : Instant}
    (hnow : time = session.now + elapsed)
    (hkept : LeaseKept config (session, history) ⟨elapsed, call⟩) :
    Leased config ⟨time, (answer config time session.state call).1⟩
      (history ++ [⟨time, call, (answer config time session.state call).2⟩]) ∧
    ExclusiveLeases config
      (history ++ [⟨time, call, (answer config time session.state call).2⟩]) := by
  have htime : session.now ≤ time := hnow ▸ Nat.le_add_right _ _
  constructor
  · intro before first middle client key hsplit hfirst hheld hearly
    rcases concat_eq_split hsplit with ⟨rfl, rfl, rfl⟩ | ⟨rest, rfl, hhistory⟩
    · exact ⟨Nat.le_refl _, backed_of_acquires hfirst⟩
    · obtain ⟨hstart, hbacked⟩ := hleased before first rest client key hhistory hfirst
        (fun event hevent => hheld event (List.mem_append_left _ hevent))
        (htime.trans_lt hearly)
      exact ⟨hstart.trans htime,
        (hbacked.step hnow hkept hstart hearly (hheld _ (by simp))).2⟩
  · intro before first middle second after client other key hsplit hfirst hsecond hearly
    have hsplit' : history ++ [⟨time, call, (answer config time session.state call).2⟩] =
        (before ++ first :: middle) ++ second :: after := by simpa using hsplit
    rcases concat_eq_split hsplit' with ⟨hhistory, rfl, _⟩ | ⟨rest, rfl, hhistory⟩
    · by_contra hnone
      have hheld : ∀ event ∈ middle, ¬ Ends client key event :=
        fun event hevent hends => hnone ⟨event, hevent, hends⟩
      obtain ⟨hstart, hbacked⟩ := hleased before first middle client key hhistory.symm
        hfirst hheld (htime.trans_lt hearly)
      by_cases hends : Ends client key
          ⟨time, call, (answer config time session.state call).2⟩
      · obtain ⟨hcall, _⟩ := hsecond
        simp only at hcall
        rcases hends with hrelease | ⟨response, hcomplete⟩
        · simp [hcall] at hrelease
        · simp [hcall] at hcomplete
      · exact (hbacked.step hnow hkept hstart hearly hends).1 other hsecond
    · exact hexclusive before first middle second rest client other key
        (by simpa using hhistory) hfirst hsecond hearly

end Lease

/-- Every call of a session keeps leases. -/
def LeasesKept (config : IdempotencyConfig) (start : Instant)
    (calls : List (Timed Call)) : Prop :=
  Justified (fun before timed => LeaseKept config (run config start before) timed) calls

/-- While no client ends the lease of another, a key is granted to one client at
a time. -/
theorem leases_exclusive {config : IdempotencyConfig} {start : Instant}
    {calls : List (Timed Call)} (hkept : LeasesKept config start calls) :
    ExclusiveLeases config (run config start calls).2 := by
  have hrun : Leased config (run config start calls).1 (run config start calls).2 ∧
      ExclusiveLeases config (run config start calls).2 := by
    induction calls using List.reverseRecOn with
    | nil =>
        refine ⟨fun before first middle client key hsplit => ?_,
          fun before first middle second after client other key hsplit => ?_⟩ <;>
          simp [run] at hsplit
    | append_singleton calls timed ih =>
        obtain ⟨hbefore, hlast⟩ := justified_append.mp hkept
        obtain ⟨hleased, hexclusive⟩ := ih hbefore
        have hnow : LeaseKept config (run config start calls) timed := by
          have hlast := hlast [] timed [] rfl
          simpa only [List.append_nil] using hlast
        unfold run
        rw [Service.run_concat]
        exact hleased.step hexclusive rfl hnow
  exact hrun.2

end IdempotencyCache

namespace LeaseWitness

open IdempotencyCache

/-- The holder gives the key back before the next client asks. -/
def orderly : List (Timed Call) :=
  [⟨0, .acquire 1 "order-7"⟩, ⟨5, .release 1 "order-7"⟩, ⟨5, .acquire 2 "order-7"⟩]

theorem orderly_exclusive :
    LeasesKept IdempotencyConfig.default 0 orderly ∧
      ExclusiveLeases IdempotencyConfig.default
        (run IdempotencyConfig.default 0 orderly).2 := by
  have hkept : LeasesKept IdempotencyConfig.default 0 orderly := by
    unfold LeasesKept orderly
    simp only [justified_cons, justified_nil, and_true]
    refine ⟨trivial, fun startedAt _ _ => ?_, trivial⟩
    decide +kernel
  exact ⟨hkept, leases_exclusive hkept⟩

/-- A lease times out, another client takes it over, and the first one releases
the key late. -/
def late : List (Timed Call) :=
  [⟨0, .acquire 1 "order-7"⟩, ⟨Duration.fromSecs 60, .acquire 2 "order-7"⟩,
    ⟨Duration.fromSecs 1, .release 1 "order-7"⟩,
    ⟨Duration.fromSecs 1, .acquire 3 "order-7"⟩]

theorem late_history :
    (run IdempotencyConfig.default 0 late).2 =
      [⟨0, .acquire 1 "order-7", some .acquired⟩,
        ⟨Duration.fromSecs 60, .acquire 2 "order-7", some .acquired⟩,
        ⟨Duration.fromSecs 61, .release 1 "order-7", none⟩,
        ⟨Duration.fromSecs 62, .acquire 3 "order-7", some .acquired⟩] := by
  decide +kernel

/-- The late release ends the lease of the second client. -/
theorem late_release_not_exclusive :
    ¬ ExclusiveLeases IdempotencyConfig.default
      (run IdempotencyConfig.default 0 late).2 := by
  intro hexclusive
  obtain ⟨event, hevent, hends⟩ := hexclusive
    [⟨0, .acquire 1 "order-7", some .acquired⟩]
    ⟨Duration.fromSecs 60, .acquire 2 "order-7", some .acquired⟩
    [⟨Duration.fromSecs 61, .release 1 "order-7", none⟩]
    ⟨Duration.fromSecs 62, .acquire 3 "order-7", some .acquired⟩ [] 2 3 "order-7"
    late_history ⟨rfl, rfl⟩ ⟨rfl, rfl⟩ (by decide)
  obtain rfl := List.mem_singleton.mp hevent
  simp [Ends] at hends

end LeaseWitness

end KiteX402
