/-
Queues that hold a bounded number of items: the oldest makes room for a new
one.
-/
import Mathlib.Data.List.Basic

namespace KiteX402

universe u

variable {α : Type u}

/-- Append an item, after the oldest has made room for it. -/
def pushBounded (capacity : ℕ) (items : List α) (item : α) : List α :=
  (if capacity ≤ items.length then items.tail else items) ++ [item]

/-- The new item comes last, after items that were there. -/
theorem pushBounded_eq (capacity : ℕ) (items : List α) (item : α) :
    ∃ kept, kept.Sublist items ∧ pushBounded capacity items item = kept ++ [item] := by
  unfold pushBounded
  split
  · exact ⟨items.tail, List.tail_sublist items, rfl⟩
  · exact ⟨items, List.Sublist.refl items, rfl⟩

theorem mem_pushBounded {capacity : ℕ} {items : List α} {item other : α}
    (hmem : other ∈ pushBounded capacity items item) : other ∈ items ∨ other = item := by
  obtain ⟨kept, hkept, hpush⟩ := pushBounded_eq capacity items item
  rw [hpush] at hmem
  rcases List.mem_append.mp hmem with hold | hnew
  · exact Or.inl (hkept.mem hold)
  · exact Or.inr (List.mem_singleton.mp hnew)

theorem length_pushBounded_le {capacity : ℕ} (hroom : 0 < capacity) {items : List α}
    (hlength : items.length ≤ capacity) (item : α) :
    (pushBounded capacity items item).length ≤ capacity := by
  unfold pushBounded
  split <;> simp only [List.length_append, List.length_tail, List.length_singleton] <;>
    omega

/-- Where there is room for one item, the new one replaces the old one. -/
theorem pushBounded_one {items : List α} (hlength : items.length ≤ 1) (item : α) :
    pushBounded 1 items item = [item] := by
  cases items with
  | nil => rfl
  | cons head tail =>
      have htail : tail = [] := List.length_eq_zero_iff.mp (Nat.le_zero.mp
        (Nat.le_of_succ_le_succ hlength))
      rw [htail]
      rfl

end KiteX402
