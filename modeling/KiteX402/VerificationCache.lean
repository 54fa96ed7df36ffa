/-
The cache of payment verifications: an entry counts for its time to live, and is
removed only when it is asked for after that.
-/
import KiteX402.Service
import Mathlib.Data.Finmap

namespace KiteX402

/-- A verification as it is cached. -/
structure CachedVerification where
  isValid : Bool
  payer : String
  amount : String
  cachedAt : Instant
  ttl : Duration
deriving DecidableEq

namespace VerificationCacheStore

/-- `HashMap<String, CachedVerification>`. -/
abbrev Entries := Finmap fun _ : String => CachedVerification

/-- `cached_at.elapsed() < ttl`. -/
def live (now : Instant) (entry : CachedVerification) : Bool :=
  now - entry.cachedAt < entry.ttl

/-- `VerificationCacheStore::get`. -/
def get (now : Instant) (entries : Entries) (signatureHash : String) :
    Entries × Option CachedVerification :=
  match entries.lookup signatureHash with
  | some entry =>
      if live now entry then (entries, some entry) else (entries.erase signatureHash, none)
  | none => (entries, none)

/-- `VerificationCacheStore::insert`. -/
def insert (defaultTtl : Duration) (now : Instant) (entries : Entries)
    (signatureHash : String) (isValid : Bool) (payer amount : String)
    (customTtl : Option Duration) : Entries :=
  entries.insert signatureHash ⟨isValid, payer, amount, now, customTtl.getD defaultTtl⟩

/-- `VerificationCacheStore::clear`. -/
def clear : Entries := ∅

inductive Call where
  | get (signatureHash : String)
  | insert (signatureHash : String) (isValid : Bool) (payer amount : String)
      (customTtl : Option Duration)
  | clear
deriving DecidableEq

/-- The calls of all clients, each under the lock of the store; only `get` returns
something. -/
def answer (defaultTtl : Duration) (now : Instant) (entries : Entries) :
    Call → Entries × Option CachedVerification
  | .get signatureHash => get now entries signatureHash
  | .insert signatureHash isValid payer amount customTtl =>
      (insert defaultTtl now entries signatureHash isValid payer amount customTtl, none)
  | .clear => (clear, none)

def service (defaultTtl : Duration) : Service Entries Call (Option CachedVerification) :=
  ⟨answer defaultTtl, fun _ => 0⟩

/-- A session with a new store. -/
def run (defaultTtl : Duration) (start : Instant) (calls : List (Timed Call)) :
    Session Entries × List (Answered Call (Option CachedVerification)) :=
  (service defaultTtl).run start ∅ calls

abbrev Event := Answered Call (Option CachedVerification)

section Stored

/-- The same store, if it removed nothing for its age. -/
def keepingAnswer (defaultTtl : Duration) (now : Instant) (entries : Entries) :
    Call → Entries × Option CachedVerification
  | .get signatureHash => (entries, (entries.lookup signatureHash).filter (live now))
  | call => answer defaultTtl now entries call

def keepingRun (defaultTtl : Duration) (start : Instant) (calls : List (Timed Call)) :
    Session Entries × List Event :=
  Service.run ⟨keepingAnswer defaultTtl, fun _ => 0⟩ start ∅ calls

/-- What a call makes of the entry last stored under a hash. -/
def storedAfter (defaultTtl : Duration) (signatureHash : String)
    (entry : Option CachedVerification) (event : Event) : Option CachedVerification :=
  match event.call with
  | .get _ => entry
  | .insert own isValid payer amount customTtl =>
      if own = signatureHash then
        some ⟨isValid, payer, amount, event.time, customTtl.getD defaultTtl⟩
      else entry
  | .clear => none

/-- The entry that was last stored under a hash and has not been cleared. -/
def stored (defaultTtl : Duration) (history : List Event) (signatureHash : String) :
    Option CachedVerification :=
  history.foldl (storedAfter defaultTtl signatureHash) none

/-- What the earlier calls say about the answer to a call. -/
def expected (defaultTtl : Duration) (before : List Event) (now : Instant) :
    Call → Option CachedVerification
  | .get signatureHash => (stored defaultTtl before signatureHash).filter (live now)
  | _ => none

def AnswersByTtl (defaultTtl : Duration) (history : List Event) : Prop :=
  Justified (fun before event =>
    event.result = expected defaultTtl before event.time event.call) history

/-- A call that decides anew what is stored under a hash. -/
def Resets (signatureHash : String) (event : Event) : Prop :=
  match event.call with
  | .get _ => False
  | .insert own _ _ _ _ => own = signatureHash
  | .clear => True

/-- A call asked for a hash in vain, and nothing was stored under it since. -/
def Missed (signatureHash : String) (history : List Event) : Prop :=
  ∃ before time after, history = before ++ ⟨time, .get signatureHash, none⟩ :: after ∧
    ∀ event ∈ after, ¬Resets signatureHash event

/-- What the store holds and what it answers. -/
structure CacheExact (defaultTtl : Duration) (start : Instant) (calls : List (Timed Call)) :
    Prop where
  answers : AnswersByTtl defaultTtl (run defaultTtl start calls).2
  unobservable : (run defaultTtl start calls).2 = (keepingRun defaultTtl start calls).2
  held : ∀ signatureHash entry,
    (run defaultTtl start calls).1.state.lookup signatureHash = some entry ↔
      stored defaultTtl (run defaultTtl start calls).2 signatureHash = some entry ∧
        ¬Missed signatureHash (run defaultTtl start calls).2

end Stored

section Step

variable {defaultTtl : Duration} {now later time : Instant} {entries : Entries}
  {signatureHash : String} {history : List Event} {session : Session Entries}

/-- What has expired stays expired. -/
theorem filter_live_antitone {entry : Option CachedVerification} (htime : now ≤ later)
    (hdead : entry.filter (live now) = none) : entry.filter (live later) = none := by
  rw [Option.filter_eq_none_iff] at hdead ⊢
  intro held hheld hlive
  apply hdead held hheld
  simp only [live, decide_eq_true_eq] at hlive ⊢
  exact Nat.lt_of_le_of_lt (Nat.sub_le_sub_right htime _) hlive

theorem get_result (now : Instant) (entries : Entries) (signatureHash : String) :
    (get now entries signatureHash).2 = (entries.lookup signatureHash).filter (live now) := by
  unfold get
  cases entries.lookup signatureHash with
  | none => rfl
  | some entry => cases hlive : live now entry <;> simp [Option.filter, hlive]

theorem lookup_get (now : Instant) (entries : Entries) (own signatureHash : String) :
    (get now entries own).1.lookup signatureHash =
      if own = signatureHash then (entries.lookup signatureHash).filter (live now)
      else entries.lookup signatureHash := by
  unfold get
  by_cases hown : own = signatureHash
  · subst hown
    rw [if_pos rfl]
    cases hlookup : entries.lookup own with
    | none => exact hlookup
    | some entry =>
        cases hlive : live now entry with
        | true => simp [Option.filter, hlive, hlookup]
        | false => simp [Option.filter, hlive]
  · rw [if_neg hown]
    cases entries.lookup own with
    | none => rfl
    | some entry =>
        dsimp only
        split
        · rfl
        · exact Finmap.lookup_erase_ne (Ne.symm hown)

theorem stored_concat (history : List Event) (event : Event) :
    stored defaultTtl (history ++ [event]) signatureHash =
      storedAfter defaultTtl signatureHash (stored defaultTtl history signatureHash) event :=
  List.foldl_concat _ _ _ _

theorem missed_concat {event : Event} :
    Missed signatureHash (history ++ [event]) ↔
      (event.call = .get signatureHash ∧ event.result = none) ∨
        (Missed signatureHash history ∧ ¬Resets signatureHash event) := by
  constructor
  · rintro ⟨before, asked, after, hsplit, hnone⟩
    rcases concat_eq_split hsplit with ⟨-, hevent, -⟩ | ⟨rest, rfl, hhistory⟩
    · rw [← hevent]
      exact Or.inl ⟨rfl, rfl⟩
    · refine Or.inr ⟨⟨before, asked, rest, hhistory, fun other hother => ?_⟩, ?_⟩
      · exact hnone other (List.mem_append_left _ hother)
      · exact hnone event (List.mem_append_right _ (List.mem_singleton_self _))
  · rintro (⟨hcall, hresult⟩ | ⟨⟨before, asked, after, rfl, hnone⟩, hevent⟩)
    · obtain ⟨asked, call, result⟩ := event
      obtain rfl : call = .get signatureHash := hcall
      obtain rfl : result = none := hresult
      exact ⟨history, asked, [], rfl, by simp⟩
    · refine ⟨before, asked, after ++ [event], by simp, fun other hother => ?_⟩
      rcases List.mem_append.mp hother with hother | hother
      · exact hnone other hother
      · rw [List.mem_singleton.mp hother]
        exact hevent

/-- The store holds what was last stored, less what was asked for in vain. -/
def Held (defaultTtl : Duration) (session : Session Entries) (history : List Event) : Prop :=
  ∀ signatureHash,
    (¬Missed signatureHash history →
      session.state.lookup signatureHash = stored defaultTtl history signatureHash) ∧
    (Missed signatureHash history → session.state.lookup signatureHash = none ∧
      (stored defaultTtl history signatureHash).filter (live session.now) = none)

namespace Held

theorem filter_eq (hheld : Held defaultTtl session history) (htime : session.now ≤ time)
    (signatureHash : String) :
    (session.state.lookup signatureHash).filter (live time) =
      (stored defaultTtl history signatureHash).filter (live time) := by
  by_cases hmissed : Missed signatureHash history
  · obtain ⟨hnone, hdead⟩ := (hheld signatureHash).2 hmissed
    rw [hnone, filter_live_antitone htime hdead]
    rfl
  · rw [(hheld signatureHash).1 hmissed]

/-- A call that has nothing to do with a hash leaves it as it is. -/
theorem frame (hheld : Held defaultTtl session history) (htime : session.now ≤ time)
    {call : Call} {result : Option CachedVerification} {state : Entries}
    (hget : call ≠ .get signatureHash)
    (hresets : ¬Resets signatureHash ⟨time, call, result⟩)
    (hlookup : state.lookup signatureHash = session.state.lookup signatureHash)
    (hstored : storedAfter defaultTtl signatureHash (stored defaultTtl history signatureHash)
      ⟨time, call, result⟩ = stored defaultTtl history signatureHash) :
    (¬Missed signatureHash (history ++ [⟨time, call, result⟩]) →
      state.lookup signatureHash =
        stored defaultTtl (history ++ [⟨time, call, result⟩]) signatureHash) ∧
    (Missed signatureHash (history ++ [⟨time, call, result⟩]) →
      state.lookup signatureHash = none ∧
        (stored defaultTtl (history ++ [⟨time, call, result⟩]) signatureHash).filter
          (live time) = none) := by
  rw [missed_concat, stored_concat, hstored, hlookup]
  refine ⟨fun hnot => (hheld signatureHash).1 fun hmissed => hnot (Or.inr ⟨hmissed, hresets⟩),
    fun hmissed => ?_⟩
  rcases hmissed with ⟨hcall, -⟩ | ⟨hmissed, -⟩
  · exact absurd hcall hget
  · obtain ⟨hnone, hdead⟩ := (hheld signatureHash).2 hmissed
    exact ⟨hnone, filter_live_antitone htime hdead⟩

/-- A call that resets a hash leaves under it what it stores. -/
theorem reset {call : Call} {result : Option CachedVerification} {state : Entries}
    (hget : call ≠ .get signatureHash) (hresets : Resets signatureHash ⟨time, call, result⟩)
    (hstored : state.lookup signatureHash = storedAfter defaultTtl signatureHash
      (stored defaultTtl history signatureHash) ⟨time, call, result⟩) :
    (¬Missed signatureHash (history ++ [⟨time, call, result⟩]) →
      state.lookup signatureHash =
        stored defaultTtl (history ++ [⟨time, call, result⟩]) signatureHash) ∧
    (Missed signatureHash (history ++ [⟨time, call, result⟩]) →
      state.lookup signatureHash = none ∧
        (stored defaultTtl (history ++ [⟨time, call, result⟩]) signatureHash).filter
          (live time) = none) := by
  rw [missed_concat, stored_concat]
  refine ⟨fun _ => hstored, ?_⟩
  rintro (⟨hcall, -⟩ | ⟨-, hnot⟩)
  · exact absurd hcall hget
  · exact absurd hresets hnot

theorem step (hheld : Held defaultTtl session history) (htime : session.now ≤ time)
    (call : Call) :
    Held defaultTtl ⟨time, (answer defaultTtl time session.state call).1⟩
      (history ++ [⟨time, call, (answer defaultTtl time session.state call).2⟩]) := by
  intro signatureHash
  cases call with
  | get own =>
      by_cases hown : own = signatureHash
      · subst hown
        have hlookup := lookup_get time session.state own own
        rw [if_pos rfl] at hlookup
        have hfilter := hheld.filter_eq htime own
        simp only [answer, missed_concat, stored_concat, storedAfter, Resets, hlookup,
          get_result, true_and, not_false_eq_true, and_true]
        refine ⟨fun hnot => ?_, fun hmissed => ?_⟩
        · rw [not_or] at hnot
          obtain ⟨entry, hentry⟩ := Option.ne_none_iff_exists'.mp hnot.1
          rw [hentry, ← (hheld own).1 hnot.2, (Option.filter_eq_some_iff.mp hentry).1]
        · have hnone : (session.state.lookup own).filter (live time) = none := by
            rcases hmissed with hnone | hmissed
            · exact hnone
            · rw [((hheld own).2 hmissed).1]
              rfl
          exact ⟨hnone, hfilter ▸ hnone⟩
      · have hlookup := lookup_get time session.state own signatureHash
        rw [if_neg hown] at hlookup
        exact hheld.frame htime (by simpa using hown) id hlookup rfl
  | insert own isValid payer amount customTtl =>
      by_cases hown : own = signatureHash
      · subst hown
        refine reset (by simp) rfl ?_
        simp only [answer, insert, storedAfter, if_true]
        exact Finmap.lookup_insert _
      · refine hheld.frame htime (by simp) hown ?_ (if_neg hown)
        exact Finmap.lookup_insert_of_ne _ (Ne.symm hown)
  | clear => exact reset (by simp) trivial (Finmap.lookup_empty _)

end Held

end Step

section Run

variable (defaultTtl : Duration) (start : Instant) (calls : List (Timed Call))

theorem run_held :
    Held defaultTtl (run defaultTtl start calls).1 (run defaultTtl start calls).2 ∧
      AnswersByTtl defaultTtl (run defaultTtl start calls).2 := by
  have hnew : Held defaultTtl ⟨start, ∅⟩ [] := fun signatureHash =>
    ⟨fun _ => Finmap.lookup_empty _, fun ⟨before, asked, after, hsplit, _⟩ => by
      simp at hsplit⟩
  refine (service defaultTtl).run_induction (P := fun session history =>
    Held defaultTtl session history ∧ AnswersByTtl defaultTtl history)
    ⟨hnew, justified_nil _⟩ (fun session history time call h htime => ?_) calls
  refine ⟨h.1.step htime call, h.2.concat ?_⟩
  cases call with
  | get signatureHash => exact (get_result _ _ _).trans (h.1.filter_eq htime signatureHash)
  | insert => rfl
  | clear => rfl

theorem keepingRun_answers : AnswersByTtl defaultTtl (keepingRun defaultTtl start calls).2 := by
  have hnew : ∀ signatureHash, (∅ : Entries).lookup signatureHash =
      stored defaultTtl [] signatureHash := fun signatureHash => Finmap.lookup_empty _
  refine (Service.run_induction _ (P := fun session history =>
    (∀ signatureHash, session.state.lookup signatureHash =
      stored defaultTtl history signatureHash) ∧ AnswersByTtl defaultTtl history)
    ⟨hnew, justified_nil _⟩ (fun session history time call h htime => ?_) calls).2
  refine ⟨fun signatureHash => ?_, h.2.concat ?_⟩
  · rw [stored_concat]
    cases call with
    | get own => exact h.1 signatureHash
    | insert own isValid payer amount customTtl =>
        simp only [keepingAnswer, answer, insert, storedAfter]
        by_cases hown : own = signatureHash
        · subst hown
          rw [if_pos rfl, Finmap.lookup_insert]
        · rw [if_neg hown, Finmap.lookup_insert_of_ne _ (Ne.symm hown)]
          exact h.1 signatureHash
    | clear => exact Finmap.lookup_empty _
  · cases call with
    | get signatureHash =>
        simp only [keepingAnswer, expected]
        rw [h.1 signatureHash]
    | insert => rfl
    | clear => rfl

/-- The answers are those that the times to live ask for, and no caller can tell
that entries are removed; an entry is held until it is asked for in vain. -/
theorem cache_exact : CacheExact defaultTtl start calls where
  answers := (run_held defaultTtl start calls).2
  unobservable := by
    have hstamps := (service defaultTtl).run_stamps
      ⟨keepingAnswer defaultTtl, fun _ => 0⟩ rfl start ∅ ∅ calls
    exact eq_of_determined (run_held defaultTtl start calls).2
      (keepingRun_answers defaultTtl start calls) hstamps.2
  held signatureHash entry := by
    have hheld := (run_held defaultTtl start calls).1 signatureHash
    constructor
    · intro hlookup
      have hnot : ¬Missed signatureHash (run defaultTtl start calls).2 := by
        intro hmissed
        rw [(hheld.2 hmissed).1] at hlookup
        contradiction
      exact ⟨(hheld.1 hnot).symm.trans hlookup, hnot⟩
    · rintro ⟨hstored, hnot⟩
      exact (hheld.1 hnot).trans hstored

end Run

end VerificationCacheStore

end KiteX402
