/-
Shutting out and letting in: what a history of additions to two lists comes to, in
whatever order they were made.
-/
import Mathlib.Data.Set.Lattice

namespace KiteX402

universe u

variable {A : Type u}

/-- Who is let in.  Before anyone is let in by name the default decides, and
whoever is shut out stays outside. -/
structure AccessPolicy (A : Type u) where
  denied : Set A
  admitted : Option (Set A)
  byDefault : Prop

inductive AccessChange (A : Type u) where
  | deny (who : Set A)
  | letIn (who : Set A)

namespace AccessPolicy

variable (policy : AccessPolicy A)

def Allows (a : A) : Prop :=
  a ∉ policy.denied ∧ match policy.admitted with
    | none => policy.byDefault
    | some admitted => a ∈ admitted

def change : AccessChange A → AccessPolicy A
  | .deny who => { policy with denied := policy.denied ∪ who }
  | .letIn who => { policy with admitted := some (policy.admitted.getD ∅ ∪ who) }

def changeAll (changes : List (AccessChange A)) : AccessPolicy A := changes.foldl change policy

@[simp] theorem changeAll_nil : policy.changeAll [] = policy := rfl

theorem changeAll_append (first last : List (AccessChange A)) :
    policy.changeAll (first ++ last) = (policy.changeAll first).changeAll last :=
  List.foldl_append

theorem change_comm (first second : AccessChange A) :
    (policy.change first).change second = (policy.change second).change first := by
  cases first with
  | deny who =>
      cases second with
      | deny other => simp only [change, Set.union_right_comm]
      | letIn other => rfl
  | letIn who =>
      cases second with
      | deny other => rfl
      | letIn other => simp only [change, Option.getD_some, Set.union_right_comm]

/-- The order of the changes does not matter. -/
theorem changeAll_perm {first second : List (AccessChange A)} (h : first.Perm second) :
    policy.changeAll first = policy.changeAll second :=
  h.foldl_eq' (fun earlier _ later _ start => start.change_comm earlier later) policy

/-- Who has been shut out stays outside. -/
theorem denied_subset_changeAll (changes : List (AccessChange A)) :
    policy.denied ⊆ (policy.changeAll changes).denied := by
  induction changes generalizing policy with
  | nil => exact subset_rfl
  | cons change rest ih =>
      refine Set.Subset.trans ?_ (ih (policy.change change))
      cases change with
      | deny who => exact Set.subset_union_left
      | letIn who => exact subset_rfl

theorem not_allows_of_deny {changes : List (AccessChange A)} {who : Set A}
    (hdeny : .deny who ∈ changes) {a : A} (ha : a ∈ who) :
    ¬(policy.changeAll changes).Allows a := by
  obtain ⟨before, after, rfl⟩ := List.append_of_mem hdeny
  rw [changeAll_append]
  exact fun hallows => hallows.1 (denied_subset_changeAll _ after (Or.inr ha))

end AccessPolicy

end KiteX402
