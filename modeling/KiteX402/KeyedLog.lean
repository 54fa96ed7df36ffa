/-
A bounded log in which some items have a key: an item takes the place of the
open item with its key, and is dropped when that item is final.
-/
import KiteX402.BoundedQueue

namespace KiteX402

universe u v

variable {α : Type u} {κ : Type v}

/-- What a log knows of its items, and how many it holds. -/
structure KeyedLog (α : Type u) (κ : Type v) where
  key : α → Option κ
  final : α → Bool
  capacity : ℕ

namespace KeyedLog

/-- No two items have one key. -/
def Unique (log : KeyedLog α κ) (items : List α) : Prop :=
  items.Pairwise fun first second =>
    ∀ key, log.key first = some key → log.key second ≠ some key

theorem Unique.concat {log : KeyedLog α κ} {items : List α}
    (hunique : log.Unique items) {item : α}
    (hnew : ∀ other ∈ items, ∀ key, log.key item = some key →
      log.key other ≠ some key) : log.Unique (items ++ [item]) := by
  rw [Unique, List.pairwise_append]
  refine ⟨hunique, List.pairwise_singleton _ _, fun other hother last hlast => ?_⟩
  rw [List.mem_singleton] at hlast
  subst hlast
  exact fun key hkey hlast => hnew other hother key hlast hkey

variable [DecidableEq α]

section Erase

variable {log : KeyedLog α κ} {items : List α}

theorem Unique.cons_erase (hunique : log.Unique items) {item : α}
    (hmem : item ∈ items) : log.Unique (item :: items.erase item) := by
  have hsymm : ∀ {first second : α},
      (∀ key, log.key first = some key → log.key second ≠ some key) →
      ∀ key, log.key second = some key → log.key first ≠ some key :=
    fun h key hsecond hfirst => h key hfirst hsecond
  exact (List.perm_cons_erase hmem).pairwise hunique hsymm

/-- Nothing else has the key of an item. -/
theorem Unique.key_ne (hunique : log.Unique items) {item other : α} {key : κ}
    (hmem : item ∈ items) (hkey : log.key item = some key)
    (hother : other ∈ items.erase item) : log.key other ≠ some key :=
  (List.pairwise_cons.mp (hunique.cons_erase hmem)).1 other hother key hkey

theorem Unique.erase (hunique : log.Unique items) (item : α) :
    log.Unique (items.erase item) :=
  hunique.sublist List.erase_sublist

theorem Unique.eq_of_key (hunique : log.Unique items) {first second : α} {key : κ}
    (hfirst : first ∈ items) (hsecond : second ∈ items)
    (hkey : log.key first = some key) (hkey' : log.key second = some key) :
    first = second := by
  by_contra hne
  have herase : second ∈ items.erase first :=
    (List.mem_erase_of_ne (Ne.symm hne)).mpr hsecond
  exact hunique.key_ne hfirst hkey herase hkey'

end Erase

section Operations

variable [DecidableEq κ] (log : KeyedLog α κ)

/-- The first item with a key. -/
def find (items : List α) (key : κ) : Option α :=
  items.find? fun item => log.key item = some key

def push (items : List α) (item : α) : List α :=
  pushBounded log.capacity items item

/-- An item is dropped when the one with its key is final, takes its place when
it is open, and is pushed when there is none. -/
def record (items : List α) (item : α) : List α :=
  match (log.key item).bind (log.find items) with
  | some held => if log.final held then items else items.erase held ++ [item]
  | none => log.push items item

end Operations

variable [DecidableEq κ] {log : KeyedLog α κ} {items : List α}

theorem find_eq_some_iff (hunique : log.Unique items) {key : κ} {item : α} :
    log.find items key = some item ↔ item ∈ items ∧ log.key item = some key := by
  constructor
  · intro h
    exact ⟨List.mem_of_find?_eq_some h, by simpa using List.find?_some h⟩
  · rintro ⟨hmem, hkey⟩
    have hsome : (log.find items key).isSome := by
      rw [find, List.find?_isSome]
      exact ⟨item, hmem, by simpa using hkey⟩
    obtain ⟨found, hfound⟩ := Option.isSome_iff_exists.mp hsome
    have hfoundKey : log.key found = some key := by simpa using List.find?_some hfound
    rw [hfound, hunique.eq_of_key (List.mem_of_find?_eq_some hfound) hmem hfoundKey hkey]

/-- What recording an item does: it is dropped, or takes the place of an open
item, or is new. -/
theorem record_cases (log : KeyedLog α κ) (items : List α) (item : α) :
    (∃ key held, log.key item = some key ∧ log.find items key = some held ∧
      log.final held = true ∧ log.record items item = items) ∨
    (∃ key held, log.key item = some key ∧ log.find items key = some held ∧
      log.final held = false ∧
      log.record items item = items.erase held ++ [item]) ∨
    ((∀ key, log.key item = some key → log.find items key = none) ∧
      log.record items item = log.push items item) := by
  cases hkey : log.key item with
  | none => exact Or.inr (Or.inr ⟨nofun, by simp [record, hkey]⟩)
  | some key =>
      cases hfind : log.find items key with
      | none =>
          refine Or.inr (Or.inr ⟨?_, by simp [record, hkey, hfind]⟩)
          rintro _ ⟨⟩
          exact hfind
      | some held =>
          cases hfinal : log.final held with
          | true =>
              exact Or.inl ⟨key, held, rfl, hfind, hfinal, by
                simp [record, hkey, hfind, hfinal]⟩
          | false =>
              exact Or.inr (Or.inl ⟨key, held, rfl, hfind, hfinal, by
                simp [record, hkey, hfind, hfinal]⟩)

theorem Unique.record (hunique : log.Unique items) (item : α) :
    log.Unique (log.record items item) := by
  rcases log.record_cases items item with
    ⟨_, _, _, _, _, heq⟩ | ⟨key, held, hkey, hfind, _, heq⟩ | ⟨hnew, heq⟩ <;> rw [heq]
  · exact hunique
  · obtain ⟨hheld, hheldKey⟩ := (find_eq_some_iff hunique).mp hfind
    refine (hunique.erase held).concat fun other hother other' hkey' => ?_
    rw [hkey, Option.some_inj] at hkey'
    subst hkey'
    exact hunique.key_ne hheld hheldKey hother
  · have hfresh : ∀ other ∈ items, ∀ key, log.key item = some key →
        log.key other ≠ some key := by
      intro other hother key hkey hother'
      have hfind := hnew key hkey
      rw [(find_eq_some_iff hunique).mpr ⟨hother, hother'⟩] at hfind
      contradiction
    obtain ⟨kept, hkept, hpush⟩ := pushBounded_eq log.capacity items item
    rw [push, hpush]
    exact Unique.concat (hunique.sublist hkept) fun other hother =>
      hfresh other (hkept.mem hother)

end KeyedLog

end KiteX402
