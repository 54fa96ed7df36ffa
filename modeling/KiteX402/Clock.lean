/-
Readings of the monotonic clock.  Instants and durations count nanoseconds;
instant zero is the earliest one the platform can represent.
-/
import Mathlib.Algebra.Order.Field.Rat
import Mathlib.Tactic.Positivity
import Mathlib.Tactic.Ring

namespace KiteX402

/-- A `std::time::Duration`. -/
abbrev Duration := ℕ

/-- A `std::time::Instant`. -/
abbrev Instant := ℕ

def nanosPerSec : ℕ := 1000000000

theorem nanosPerSec_pos : 0 < nanosPerSec := by decide

/-- `Duration::from_secs`. -/
def Duration.fromSecs (secs : ℕ) : Duration := secs * nanosPerSec

/-- `Duration::as_millis`. -/
def Duration.asMillis (duration : Duration) : ℕ := duration / 1000000

/-- `Duration::MAX`: the seconds have 64 bits. -/
def Duration.maximum : Duration := (2 ^ 64 - 1) * nanosPerSec + (nanosPerSec - 1)

/-- `Duration::saturating_mul`. -/
def Duration.saturatingMul (duration : Duration) (factor : ℕ) : Duration :=
  if duration * factor ≤ Duration.maximum then duration * factor else Duration.maximum

theorem Duration.saturatingMul_eq (duration : Duration) (factor : ℕ) :
    duration.saturatingMul factor = min (duration * factor) Duration.maximum := by
  unfold saturatingMul
  split
  next hfits => exact (min_eq_left hfits).symm
  next hfull => exact (min_eq_right (not_le.mp hfull).le).symm

/-- `Duration::try_from_secs_f64` at a whole number of seconds, as `ceil`
yields them: the seconds of a `Duration` have 64 bits. -/
def Duration.tryFromSecs (secs : ℤ) : Option Duration :=
  if 0 ≤ secs ∧ secs < 2 ^ 64 then some (Duration.fromSecs secs.toNat) else none

/-- `Duration::as_secs_f64`, exactly. -/
def Duration.asSecs (duration : Duration) : ℚ := duration / nanosPerSec

theorem Duration.asSecs_nonneg (duration : Duration) : 0 ≤ duration.asSecs := by
  unfold asSecs
  positivity

theorem Duration.asSecs_le {short long : Duration} (h : short ≤ long) :
    short.asSecs ≤ long.asSecs := by
  unfold asSecs
  have hcast : (short : ℚ) ≤ long := by exact_mod_cast h
  exact div_le_div_of_nonneg_right hcast (Nat.cast_nonneg _)

theorem Duration.asSecs_add (first second : Duration) :
    Duration.asSecs (first + second) = first.asSecs + second.asSecs := by
  unfold asSecs
  rw [Nat.cast_add, add_div]

theorem Duration.asSecs_sub {short long : Duration} (h : short ≤ long) :
    Duration.asSecs (long - short) = long.asSecs - short.asSecs := by
  rw [eq_sub_iff_add_eq, ← Duration.asSecs_add, Nat.sub_add_cancel h]

theorem Duration.asSecs_max (first second : Duration) :
    Duration.asSecs (max first second) = max first.asSecs second.asSecs := by
  rcases le_total first second with h | h
  · rw [max_eq_right h, max_eq_right (Duration.asSecs_le h)]
  · rw [max_eq_left h, max_eq_left (Duration.asSecs_le h)]

theorem Duration.asSecs_fromSecs (secs : ℕ) :
    (Duration.fromSecs secs).asSecs = secs := by
  have hpos : (nanosPerSec : ℚ) ≠ 0 := by
    exact_mod_cast nanosPerSec_pos.ne'
  unfold asSecs fromSecs
  rw [Nat.cast_mul, mul_div_assoc, div_self hpos, mul_one]

theorem Duration.asSecs_tryFromSecs {secs : ℤ} {duration : Duration}
    (h : Duration.tryFromSecs secs = some duration) : duration.asSecs = secs := by
  unfold tryFromSecs at h
  split at h
  next hrange =>
    rw [← Option.some.inj h, Duration.asSecs_fromSecs]
    exact_mod_cast Int.toNat_of_nonneg hrange.1
  next => contradiction

/-- `Instant::checked_sub`: `none` before the earliest instant. -/
def Instant.checkedSub (now : Instant) (duration : Duration) : Option Instant :=
  if duration ≤ now then some (now - duration) else none

/-- The monotonic clock of a platform, known by its last representable
instant. -/
structure MonotonicClock where
  latest : Instant

/-- `Instant::checked_add`: `none` when the sum is not representable. -/
def MonotonicClock.checkedAdd (clock : MonotonicClock) (now : Instant)
    (duration : Duration) : Option Instant :=
  if now + duration ≤ clock.latest then some (now + duration) else none

theorem MonotonicClock.checkedAdd_eq_some {clock : MonotonicClock}
    {now deadline : Instant} {duration : Duration}
    (h : clock.checkedAdd now duration = some deadline) :
    deadline = now + duration := by
  unfold checkedAdd at h
  split at h
  · exact (Option.some.inj h).symm
  · contradiction

end KiteX402
