/-
Logs of times that forget from the front what is too old, and the number of
times that a window of fixed length holds.
-/
import KiteX402.Machine
import Mathlib.Algebra.Order.Monoid.Defs
import Mathlib.Data.List.Basic

namespace KiteX402

universe u

variable {T : Type u} [LinearOrder T]

/-- What is left of a log once the times before a cutoff are taken off its
front. -/
def keptSince (cutoff : T) (times : List T) : List T := times.dropWhile (· < cutoff)

/-- Of a log in order exactly the times from the cutoff on are left. -/
theorem keptSince_eq_filter {times : List T} (hsorted : times.Pairwise (· ≤ ·)) (cutoff : T) :
    keptSince cutoff times = times.filter (cutoff ≤ ·) := by
  induction times with
  | nil => rfl
  | cons time rest ih =>
      obtain ⟨hfirst, hrest⟩ := List.pairwise_cons.mp hsorted
      by_cases hold : time < cutoff
      · rw [keptSince, List.dropWhile_cons_of_pos (by simpa using hold),
          List.filter_cons_of_neg (by simpa using hold)]
        exact ih hrest
      · have hall : ∀ other ∈ time :: rest, decide (cutoff ≤ other) = true := by
          intro other hother
          rcases List.mem_cons.mp hother with rfl | hother
          · exact decide_eq_true (not_lt.mp hold)
          · exact decide_eq_true ((not_lt.mp hold).trans (hfirst other hother))
        rw [keptSince, List.dropWhile_cons_of_neg (by simpa using hold),
          List.filter_eq_self.mpr hall]

/-- A later cutoff forgets what an earlier one has forgotten. -/
theorem keptSince_filter {times : List T} (hsorted : times.Pairwise (· ≤ ·)) {earlier later : T}
    (hle : earlier ≤ later) :
    keptSince later (times.filter (earlier ≤ ·)) = times.filter (later ≤ ·) := by
  rw [keptSince_eq_filter (hsorted.filter _), List.filter_filter]
  refine List.filter_congr fun time _ => ?_
  by_cases hlater : later ≤ time
  · simp [hlater, hle.trans hlater]
  · simp [hlater]

/-- The oldest time that is kept is not before the cutoff. -/
theorem cutoff_le_of_head? {times : List T} {cutoff oldest : T}
    (holdest : (keptSince cutoff times).head? = some oldest) : cutoff ≤ oldest := by
  have hnot := List.head?_dropWhile_not (fun time => decide (time < cutoff)) times
  rw [keptSince] at holdest
  rw [holdest] at hnot
  simpa using hnot

/-- Nothing is forgotten up to the oldest time. -/
theorem keptSince_of_head? {times : List T} {oldest : T} (holdest : times.head? = some oldest) :
    keptSince oldest times = times := by
  cases times with
  | nil => rfl
  | cons time rest =>
      obtain rfl := Option.some.inj holdest
      rw [keptSince, List.dropWhile_cons_of_neg (by simp)]

/-- Past the oldest time at least that one is forgotten. -/
theorem length_keptSince_lt {times : List T} {oldest cutoff : T}
    (holdest : times.head? = some oldest) (hpast : oldest < cutoff) :
    (keptSince cutoff times).length < times.length := by
  cases times with
  | nil => contradiction
  | cons time rest =>
      obtain rfl := Option.some.inj holdest
      rw [keptSince, List.dropWhile_cons_of_pos (by simpa using hpast), List.length_cons]
      exact Nat.lt_succ_of_le (List.dropWhile_sublist _).length_le

section Spaced

variable [Add T]

/-- Every time finds fewer than `limit` earlier ones that are no more than a
window back. -/
def Spaced (window : T) (limit : ℕ) (times : List T) : Prop :=
  Justified (fun before time => (before.filter (time ≤ · + window)).length < limit) times

variable [AddRightMono T] {window : T} {limit : ℕ} {times : List T}

/-- Then no closed interval of the length of the window holds more than
`limit`, wherever it begins. -/
theorem Spaced.length_within_le (hspaced : Spaced window limit times) (first : T) :
    (times.filter fun time => first ≤ time ∧ time ≤ first + window).length ≤ limit := by
  induction times using List.reverseRecOn with
  | nil => exact Nat.zero_le _
  | append_singleton before time ih =>
      obtain ⟨hbefore, hlast⟩ := justified_append.mp hspaced
      rw [List.filter_append, List.length_append]
      by_cases hin : first ≤ time ∧ time ≤ first + window
      · have hfew : (before.filter (time ≤ · + window)).length < limit := by
          simpa only [List.append_nil] using hlast [] time [] rfl
        -- what the interval holds is no more than a window before its last time
        have hsub : (before.filter fun other => first ≤ other ∧ other ≤ first + window).length ≤
            (before.filter (time ≤ · + window)).length := by
          refine (List.monotone_filter_right before fun other hother => ?_).length_le
          have hfirst := (of_decide_eq_true hother).1
          exact decide_eq_true (hin.2.trans (add_le_add_left hfirst window))
        rw [List.filter_singleton, decide_eq_true hin]
        exact Nat.succ_le_of_lt (hsub.trans_lt hfew)
      · rw [List.filter_singleton, decide_eq_false hin]
        exact ih hbefore

end Spaced

section Apart

variable {T : Type u} [AddCommMonoid T] [LinearOrder T] [IsOrderedAddMonoid T]

/-- Times with a gap between them reach so much further. -/
theorem add_nsmul_le_of_apart {gap first last : T} {times : List T}
    (hapart : times.Pairwise fun earlier later => earlier + gap ≤ later)
    (hin : ∀ time ∈ times, first ≤ time ∧ time ≤ last) (hne : times ≠ []) :
    first + (times.length - 1) • gap ≤ last := by
  induction times generalizing first with
  | nil => contradiction
  | cons time rest ih =>
      obtain ⟨hgap, hrest⟩ := List.pairwise_cons.mp hapart
      obtain ⟨hfirst, hlast⟩ := hin time List.mem_cons_self
      cases rest with
      | nil => simpa using hfirst.trans hlast
      | cons next rest =>
          have hin' : ∀ other ∈ next :: rest, first + gap ≤ other ∧ other ≤ last :=
            fun other hother => ⟨(add_le_add_left hfirst gap).trans (hgap other hother),
              (hin other (List.mem_cons_of_mem _ hother)).2⟩
          calc first + ((time :: next :: rest).length - 1) • gap
              = first + gap + ((next :: rest).length - 1) • gap := by
                rw [List.length_cons, List.length_cons, Nat.add_sub_cancel, Nat.add_sub_cancel,
                  succ_nsmul', ← add_assoc]
            _ ≤ last := ih hrest hin' (List.cons_ne_nil _ _)

end Apart

end KiteX402
