/-
Keyed records beside an ordered index of deadlines, with a sweep that removes
a bounded number of due records per call, least deadline first.
-/
import Mathlib.Data.Finmap
import Mathlib.Data.Finset.Max
import Mathlib.Data.Prod.Lex

namespace KiteX402

universe u v w

variable {T : Type u} {K : Type v} {V : Type w}

@[simp] theorem keys_finmap_insert [DecidableEq K]
    (records : Finmap fun _ : K => V) (key : K) (value : V) :
    (records.insert key value).keys = insert key records.keys := by
  ext other
  simp [Finmap.mem_keys]

variable [LinearOrder T] [LinearOrder K]

/-- Records by key, and `(deadline, key)` pairs ordered by deadline. -/
structure ExpiryStore (T : Type u) (K : Type v) (V : Type w)
    [LinearOrder T] [LinearOrder K] where
  entries : Finmap fun _ : K => V
  expirations : Finset (T ×ₗ K)

namespace ExpiryStore

instance : EmptyCollection (ExpiryStore T K V) := ⟨⟨∅, ∅⟩⟩

@[simp] theorem entries_empty : (∅ : ExpiryStore T K V).entries = ∅ := rfl

@[simp] theorem expirations_empty : (∅ : ExpiryStore T K V).expirations = ∅ := rfl

/-- The number of records. -/
def size (store : ExpiryStore T K V) : ℕ := store.entries.keys.card

/-- The least `(deadline, key)` pair of the index. -/
def first (store : ExpiryStore T K V) : Option (T ×ₗ K) :=
  if h : store.expirations.Nonempty then some (store.expirations.min' h)
  else none

/-- Drop one index pair together with the record under its key. -/
def evict (store : ExpiryStore T K V) (pair : T ×ₗ K) : ExpiryStore T K V :=
  ⟨store.entries.erase (ofLex pair).2, store.expirations.erase pair⟩

/-- Set the record of `key`, and move its index pair from `previous` to
`next`. -/
def put (store : ExpiryStore T K V) (key : K) (value : V)
    (previous next : Option T) : ExpiryStore T K V where
  entries := store.entries.insert key value
  expirations :=
    let rest := match previous with
      | some deadline => store.expirations.erase (toLex (deadline, key))
      | none => store.expirations
    match next with
    | some deadline => insert (toLex (deadline, key)) rest
    | none => rest

/-- Up to `budget` times, evict the first pair of the index if it is due. -/
def sweep (now : T) : ℕ → ExpiryStore T K V → ExpiryStore T K V
  | 0, store => store
  | budget + 1, store =>
      match store.first with
      | some pair =>
          if (ofLex pair).1 ≤ now then sweep now budget (store.evict pair)
          else store
      | none => store

/-- The pairs a sweep takes out of the index. -/
def swept (now : T) (budget : ℕ) (store : ExpiryStore T K V) : Finset (T ×ₗ K) :=
  store.expirations \ (store.sweep now budget).expirations

theorem first_eq_some_iff {store : ExpiryStore T K V} {pair : T ×ₗ K} :
    store.first = some pair ↔
      pair ∈ store.expirations ∧ ∀ other ∈ store.expirations, pair ≤ other := by
  unfold first
  split
  next h =>
    rw [Option.some_inj]
    constructor
    · rintro rfl
      exact ⟨Finset.min'_mem _ h, fun other hother => Finset.min'_le _ other hother⟩
    · rintro ⟨hmem, hleast⟩
      exact le_antisymm (Finset.min'_le _ _ hmem) (hleast _ (Finset.min'_mem _ h))
  next h =>
    rw [Finset.not_nonempty_iff_eq_empty] at h
    simp [h]

theorem first_eq_none_iff {store : ExpiryStore T K V} :
    store.first = none ↔ store.expirations = ∅ := by
  unfold first
  split
  next h => simpa using h.ne_empty
  next h => simpa using Finset.not_nonempty_iff_eq_empty.mp h

/-- Induction over a sweep: it stops at once, or evicts the first pair, which
is due, and goes on with one unit of budget less. -/
theorem sweep_induction (now : T) {P : ℕ → ExpiryStore T K V → Prop}
    (stop : ∀ budget store, store.sweep now budget = store →
      (budget = 0 ∨ ∀ pair ∈ store.expirations, now < (ofLex pair).1) →
      P budget store)
    (evict : ∀ budget store pair, store.first = some pair →
      (ofLex pair).1 ≤ now →
      store.sweep now (budget + 1) = (store.evict pair).sweep now budget →
      P budget (store.evict pair) → P (budget + 1) store)
    (budget : ℕ) (store : ExpiryStore T K V) : P budget store := by
  induction budget generalizing store with
  | zero => exact stop 0 store rfl (Or.inl rfl)
  | succ budget ih =>
      cases hfirst : store.first with
      | none =>
          apply stop
          · simp [sweep, hfirst]
          · right
            simp [first_eq_none_iff.mp hfirst]
      | some pair =>
          by_cases hdue : (ofLex pair).1 ≤ now
          · exact evict budget store pair hfirst hdue
              (by simp [sweep, hfirst, hdue]) (ih _)
          · apply stop
            · simp [sweep, hfirst, hdue]
            · right
              intro other hother
              have hle := (first_eq_some_iff.mp hfirst).2 other hother
              have hfst : (ofLex pair).1 ≤ (ofLex other).1 :=
                Prod.Lex.monotone_fst_ofLex hle
              exact lt_of_lt_of_le (not_le.mp hdue) hfst

theorem sweep_expirations_subset (now : T) (budget : ℕ) (store : ExpiryStore T K V) :
    (store.sweep now budget).expirations ⊆ store.expirations := by
  induction budget, store using sweep_induction now with
  | stop budget store hstop _ => rw [hstop]
  | evict budget store pair _ _ hsweep ih =>
      rw [hsweep]
      exact ih.trans (Finset.erase_subset _ _)

theorem expirations_sweep (now : T) (budget : ℕ) (store : ExpiryStore T K V) :
    (store.sweep now budget).expirations =
      store.expirations \ store.swept now budget := by
  rw [swept, Finset.sdiff_sdiff_eq_self (sweep_expirations_subset now budget store)]

theorem swept_subset (now : T) (budget : ℕ) (store : ExpiryStore T K V) :
    store.swept now budget ⊆ store.expirations := Finset.sdiff_subset

/-- Where nothing is due there is nothing to sweep. -/
theorem sweep_of_not_due {now : T} {budget : ℕ} {store : ExpiryStore T K V}
    (hlater : ∀ pair ∈ store.expirations, now < (ofLex pair).1) :
    store.sweep now budget = store := by
  induction budget, store using sweep_induction now with
  | stop budget store hstop _ => exact hstop
  | evict budget store pair hfirst hdue _ _ =>
      have hlate := hlater pair (first_eq_some_iff.mp hfirst).1
      exact absurd hdue (not_le.mpr hlate)

theorem swept_eq_empty {now : T} {budget : ℕ} {store : ExpiryStore T K V}
    (hstop : store.sweep now budget = store) : store.swept now budget = ∅ := by
  rw [swept, hstop, Finset.sdiff_self]

/-- One eviction adds its pair to what the rest of the sweep takes. -/
theorem swept_succ {now : T} {budget : ℕ} {store : ExpiryStore T K V}
    {pair : T ×ₗ K} (hfirst : store.first = some pair)
    (hsweep : store.sweep now (budget + 1) = (store.evict pair).sweep now budget) :
    store.swept now (budget + 1) =
      insert pair ((store.evict pair).swept now budget) := by
  have hrest := sweep_expirations_subset now budget (store.evict pair)
  have hmem := (first_eq_some_iff.mp hfirst).1
  have hgone : pair ∉ ((store.evict pair).sweep now budget).expirations :=
    fun h => Finset.notMem_erase pair _ (hrest h)
  rw [swept, swept, hsweep]
  simp only [evict] at hgone ⊢
  ext other
  by_cases hother : other = pair
  · subst hother
    simp [hmem, hgone]
  · simp [hother]

theorem card_swept_le (now : T) (budget : ℕ) (store : ExpiryStore T K V) :
    (store.swept now budget).card ≤ budget := by
  induction budget, store using sweep_induction now with
  | stop budget store hstop _ => simp [swept_eq_empty hstop]
  | evict budget store pair hfirst _ hsweep ih =>
      rw [swept_succ hfirst hsweep]
      exact (Finset.card_insert_le _ _).trans (Nat.succ_le_succ ih)

theorem due_of_mem_swept {now : T} {budget : ℕ} {store : ExpiryStore T K V} :
    ∀ pair ∈ store.swept now budget, (ofLex pair).1 ≤ now := by
  induction budget, store using sweep_induction now with
  | stop budget store hstop _ => simp [swept_eq_empty hstop]
  | evict budget store pair hfirst hdue hsweep ih =>
      rw [swept_succ hfirst hsweep]
      intro other hother
      rcases Finset.mem_insert.mp hother with rfl | hother
      · exact hdue
      · exact ih other hother

/-- A sweep takes the least pairs of the index. -/
theorem lt_of_mem_swept {now : T} {budget : ℕ} {store : ExpiryStore T K V} :
    ∀ pair ∈ store.swept now budget,
      ∀ other ∈ (store.sweep now budget).expirations, pair < other := by
  induction budget, store using sweep_induction now with
  | stop budget store hstop _ => simp [swept_eq_empty hstop]
  | evict budget store pair hfirst _ hsweep ih =>
      rw [swept_succ hfirst hsweep, hsweep]
      intro taken htaken other hother
      rcases Finset.mem_insert.mp htaken with rfl | htaken
      · -- The first pair is below every pair of what it leaves.
        have hrest := sweep_expirations_subset now budget _ hother
        obtain ⟨hne, hbefore⟩ := Finset.mem_erase.mp hrest
        exact lt_of_le_of_ne ((first_eq_some_iff.mp hfirst).2 other hbefore) hne.symm
      · exact ih taken htaken other hother

/-- A sweep that leaves a due pair behind has used up its budget. -/
theorem card_swept_of_due {now : T} {budget : ℕ} {store : ExpiryStore T K V}
    {pair : T ×ₗ K} (hpair : pair ∈ (store.sweep now budget).expirations)
    (hdue : (ofLex pair).1 ≤ now) : (store.swept now budget).card = budget := by
  induction budget, store using sweep_induction now with
  | stop budget store hstop hreason =>
      rw [hstop] at hpair
      rcases hreason with rfl | hlater
      · simp [swept_eq_empty hstop]
      · exact absurd hdue (not_le.mpr (hlater pair hpair))
  | evict budget store first hfirst _ hsweep ih =>
      rw [hsweep] at hpair
      have hgone : first ∉ (store.evict first).swept now budget :=
        fun hmem => Finset.notMem_erase first _ (swept_subset now budget _ hmem)
      rw [swept_succ hfirst hsweep, Finset.card_insert_of_notMem hgone, ih hpair]

theorem lookup_evict_self (store : ExpiryStore T K V) (pair : T ×ₗ K) :
    (store.evict pair).entries.lookup (ofLex pair).2 = none :=
  Finmap.lookup_erase _ _

theorem lookup_evict_of_ne {store : ExpiryStore T K V} {pair : T ×ₗ K} {key : K}
    (hkey : key ≠ (ofLex pair).2) :
    (store.evict pair).entries.lookup key = store.entries.lookup key :=
  Finmap.lookup_erase_ne hkey

theorem lookup_sweep_eq_none {now : T} {budget : ℕ} {store : ExpiryStore T K V}
    {key : K} (hnone : store.entries.lookup key = none) :
    (store.sweep now budget).entries.lookup key = none := by
  induction budget, store using sweep_induction now with
  | stop budget store hstop _ => rwa [hstop]
  | evict budget store pair _ _ hsweep ih =>
      rw [hsweep]
      apply ih
      by_cases hkey : key = (ofLex pair).2
      · rw [hkey, lookup_evict_self]
      · rwa [lookup_evict_of_ne hkey]

/-- A swept key has no record afterwards. -/
theorem lookup_sweep_of_mem_swept {now : T} {budget : ℕ}
    {store : ExpiryStore T K V} :
    ∀ pair ∈ store.swept now budget,
      (store.sweep now budget).entries.lookup (ofLex pair).2 = none := by
  induction budget, store using sweep_induction now with
  | stop budget store hstop _ => simp [swept_eq_empty hstop]
  | evict budget store pair hfirst _ hsweep ih =>
      rw [swept_succ hfirst hsweep, hsweep]
      intro other hother
      rcases Finset.mem_insert.mp hother with rfl | hother
      · exact lookup_sweep_eq_none (lookup_evict_self store _)
      · exact ih other hother

/-- The frame of a sweep: every other key keeps its record. -/
theorem lookup_sweep_of_notMem_swept {now : T} {budget : ℕ}
    {store : ExpiryStore T K V} {key : K}
    (hkey : ∀ pair ∈ store.swept now budget, (ofLex pair).2 ≠ key) :
    (store.sweep now budget).entries.lookup key = store.entries.lookup key := by
  induction budget, store using sweep_induction now with
  | stop budget store hstop _ => rw [hstop]
  | evict budget store pair hfirst _ hsweep ih =>
      rw [swept_succ hfirst hsweep] at hkey
      rw [hsweep, ih fun other hother => hkey other (Finset.mem_insert_of_mem hother)]
      exact lookup_evict_of_ne (hkey pair (Finset.mem_insert_self _ _)).symm

theorem lookup_of_lookup_sweep {now : T} {budget : ℕ}
    {store : ExpiryStore T K V} {key : K} {value : V}
    (hlookup : (store.sweep now budget).entries.lookup key = some value) :
    store.entries.lookup key = some value := by
  rwa [lookup_sweep_of_notMem_swept] at hlookup
  rintro pair hpair rfl
  simp [lookup_sweep_of_mem_swept pair hpair] at hlookup

/-- A pair whose record survives the sweep survives with it. -/
theorem mem_expirations_sweep {now : T} {budget : ℕ} {store : ExpiryStore T K V}
    {pair : T ×ₗ K} {value : V} (hpair : pair ∈ store.expirations)
    (hlookup : (store.sweep now budget).entries.lookup (ofLex pair).2 =
      some value) : pair ∈ (store.sweep now budget).expirations := by
  rw [expirations_sweep, Finset.mem_sdiff]
  refine ⟨hpair, fun hswept => ?_⟩
  simp [lookup_sweep_of_mem_swept pair hswept] at hlookup

theorem size_sweep_le (now : T) (budget : ℕ) (store : ExpiryStore T K V) :
    (store.sweep now budget).size ≤ store.size := by
  apply Finset.card_le_card
  intro key hkey
  rw [Finmap.mem_keys, Finmap.mem_iff] at hkey ⊢
  obtain ⟨value, hvalue⟩ := hkey
  exact ⟨value, lookup_of_lookup_sweep hvalue⟩

theorem keys_put (store : ExpiryStore T K V) (key : K) (value : V)
    (previous next : Option T) :
    (store.put key value previous next).entries.keys =
      insert key store.entries.keys :=
  keys_finmap_insert store.entries key value

theorem lookup_put_self (store : ExpiryStore T K V) (key : K) (value : V)
    (previous next : Option T) :
    (store.put key value previous next).entries.lookup key = some value :=
  Finmap.lookup_insert _

theorem lookup_put_of_ne {store : ExpiryStore T K V} {key other : K}
    (hother : other ≠ key) (value : V) (previous next : Option T) :
    (store.put key value previous next).entries.lookup other =
      store.entries.lookup other :=
  Finmap.lookup_insert_of_ne _ hother

theorem mem_expirations_put {store : ExpiryStore T K V} {key other : K}
    {value : V} {previous next : Option T} {deadline : T} :
    toLex (deadline, other) ∈ (store.put key value previous next).expirations ↔
      (other = key ∧ next = some deadline) ∨
        (toLex (deadline, other) ∈ store.expirations ∧
          ¬(other = key ∧ previous = some deadline)) := by
  have hpair : ∀ due : T, toLex (deadline, other) = toLex (due, key) ↔
      other = key ∧ due = deadline := by
    intro due
    rw [toLex_inj, Prod.mk.injEq]
    exact ⟨fun h => ⟨h.2, h.1.symm⟩, fun h => ⟨h.2.symm, h.1⟩⟩
  cases previous <;> cases next <;> simp [put, hpair] <;> tauto

/-- The index holds the deadlines of the records, and nothing else. -/
def IndexedBy (deadline : V → Option T) (store : ExpiryStore T K V) : Prop :=
  ∀ due key, toLex (due, key) ∈ store.expirations ↔
    ∃ value, store.entries.lookup key = some value ∧ deadline value = some due

theorem IndexedBy.empty (deadline : V → Option T) :
    IndexedBy deadline (∅ : ExpiryStore T K V) := by
  intro due key
  simp

theorem IndexedBy.unique {deadline : V → Option T} {store : ExpiryStore T K V}
    (hindex : store.IndexedBy deadline) {first second : T} {key : K}
    (hfirst : toLex (first, key) ∈ store.expirations)
    (hsecond : toLex (second, key) ∈ store.expirations) : first = second := by
  obtain ⟨value, hvalue, hdeadline⟩ := (hindex first key).mp hfirst
  obtain ⟨other, hother, hdeadline'⟩ := (hindex second key).mp hsecond
  rw [hvalue, Option.some_inj] at hother
  rw [hother, hdeadline', Option.some_inj] at hdeadline
  exact hdeadline.symm

theorem IndexedBy.sweep {deadline : V → Option T} {store : ExpiryStore T K V}
    (hindex : store.IndexedBy deadline) (now : T) (budget : ℕ) :
    (store.sweep now budget).IndexedBy deadline := by
  intro due key
  constructor
  · intro hmem
    have hbefore := sweep_expirations_subset now budget store hmem
    obtain ⟨value, hvalue, hdue⟩ := (hindex due key).mp hbefore
    refine ⟨value, ?_, hdue⟩
    rw [← hvalue]
    apply lookup_sweep_of_notMem_swept
    intro pair hpair hkey
    -- The only pair of `key` is the one that is still in the index.
    have hpairMem : toLex ((ofLex pair).1, key) ∈ store.expirations := by
      rw [← hkey]
      exact swept_subset now budget store hpair
    have hsame := hindex.unique hbefore hpairMem
    rw [expirations_sweep, Finset.mem_sdiff] at hmem
    apply hmem.2
    rw [hsame, ← hkey]
    exact hpair
  · rintro ⟨value, hvalue, hdue⟩
    have hbefore := (hindex due key).mpr
      ⟨value, lookup_of_lookup_sweep hvalue, hdue⟩
    exact mem_expirations_sweep hbefore hvalue

/-- Replacing a record keeps the index exact when `previous` is the deadline of
the record replaced. -/
theorem IndexedBy.put {deadline : V → Option T} {store : ExpiryStore T K V}
    (hindex : store.IndexedBy deadline) {key : K} {previous : Option T}
    (hprevious : previous = (store.entries.lookup key).bind deadline) (value : V) :
    (store.put key value previous (deadline value)).IndexedBy deadline := by
  intro due other
  rw [mem_expirations_put, hindex due other]
  by_cases hother : other = key
  · subst hother
    rw [lookup_put_self, hprevious]
    cases store.entries.lookup other <;> simp
  · rw [lookup_put_of_ne hother]
    simp [hother]

end ExpiryStore

end KiteX402
