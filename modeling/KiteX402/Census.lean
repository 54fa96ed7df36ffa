/-
How many of any number of parties stand at a place of some kind.  Parties are
numbered, and a step moves one of them.
-/
import Mathlib.Data.Set.Card
import Mathlib.Logic.Function.Basic

namespace KiteX402

universe u

variable {P : Type u}

/-- The parties that stand at a place of the kind. -/
def standing (kind : P → Bool) (places : ℕ → P) : Set ℕ := {i | kind (places i) = true}

noncomputable def census (kind : P → Bool) (places : ℕ → P) : ℕ :=
  (standing kind places).ncard

theorem mem_standing {kind : P → Bool} {places : ℕ → P} {i : ℕ} :
    i ∈ standing kind places ↔ kind (places i) = true := Iff.rfl

/-- Where the party that moves comes to stand, all others stay. -/
theorem standing_update_of_pos {kind : P → Bool} (places : ℕ → P) (i : ℕ) {place : P}
    (hplace : kind place = true) :
    standing kind (Function.update places i place) = insert i (standing kind places) := by
  ext j
  rw [Set.mem_insert_iff, mem_standing, mem_standing]
  by_cases hj : j = i
  · subst hj
    simp [hplace]
  · simp [hj]

theorem standing_update_of_neg {kind : P → Bool} (places : ℕ → P) (i : ℕ) {place : P}
    (hplace : kind place = false) :
    standing kind (Function.update places i place) = standing kind places \ {i} := by
  ext j
  rw [Set.mem_sdiff, Set.mem_singleton_iff, mem_standing, mem_standing]
  by_cases hj : j = i
  · subst hj
    simp [hplace]
  · simp [hj]

theorem standing_finite_update {kind : P → Bool} {places : ℕ → P}
    (hfinite : (standing kind places).Finite) (i : ℕ) (place : P) :
    (standing kind (Function.update places i place)).Finite := by
  cases hplace : kind place with
  | true =>
      rw [standing_update_of_pos places i hplace]
      exact hfinite.insert i
  | false =>
      rw [standing_update_of_neg places i hplace]
      exact hfinite.sdiff

/-- A move changes the census by the party that moves. -/
theorem census_update {kind : P → Bool} {places : ℕ → P}
    (hfinite : (standing kind places).Finite) (i : ℕ) (place : P) :
    census kind (Function.update places i place) + (kind (places i)).toNat =
      census kind places + (kind place).toNat := by
  unfold census
  cases hplace : kind place with
  | true =>
      rw [standing_update_of_pos places i hplace]
      cases hwas : kind (places i) with
      | true => rw [Set.insert_eq_of_mem (mem_standing.mpr hwas)]
      | false =>
          have hnot : i ∉ standing kind places := by
            rw [mem_standing, hwas]
            exact Bool.false_ne_true
          rw [Set.ncard_insert_of_notMem hnot hfinite]
          rfl
  | false =>
      rw [standing_update_of_neg places i hplace]
      cases hwas : kind (places i) with
      | true => exact Set.ncard_sdiff_singleton_add_one (mem_standing.mpr hwas) hfinite
      | false =>
          have hnot : i ∉ standing kind places := by
            rw [mem_standing, hwas]
            exact Bool.false_ne_true
          rw [Set.sdiff_singleton_eq_self hnot]

theorem census_eq_zero {kind : P → Bool} {places : ℕ → P}
    (hnone : ∀ i, kind (places i) = false) : census kind places = 0 := by
  have hempty : standing kind places = ∅ := by
    ext i
    rw [mem_standing, hnone i]
    simp
  rw [census, hempty, Set.ncard_empty]

end KiteX402
