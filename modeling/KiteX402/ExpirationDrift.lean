/-
How far the check of the validity window tolerates the drift of a clock.
-/
import KiteX402.Expiration
import Mathlib.Algebra.Order.Group.Abs
import Mathlib.Algebra.Order.Group.Int

namespace KiteX402

/-- The window does not hold the time yet, or no longer does. -/
def ExpirationError.isOutside : ExpirationError → Bool
  | .expired .. => true
  | .notYetValid .. => true
  | .invertedWindow .. => false
  | .insufficientRemainingValidity .. => false

namespace ExpirationGuardConfig

variable {guard : ExpirationGuardConfig} {validAfter validBefore now : UInt64}

/-- The check with every bound computed in unbounded integers. -/
def unboundedValidate (guard : ExpirationGuardConfig) (validAfter validBefore now : UInt64) :
    Except ExpirationError Unit :=
  let drift : ℤ := guard.maxDriftSeconds.toNat
  let remaining : ℤ := (validBefore.toNat : ℤ) - now.toNat
  if validAfter > validBefore then
    .error (.invertedWindow validAfter validBefore)
  else if (validAfter.toNat : ℤ) > now.toNat + drift then
    .error (.notYetValid validAfter now)
  else if (validBefore.toNat : ℤ) < now.toNat - drift then
    .error (.expired validBefore now)
  else if now > validBefore then
    .error (.expired validBefore now)
  else if remaining < guard.minRemainingValiditySeconds.toNat then
    .error (.insufficientRemainingValidity (UInt64.ofNat remaining.toNat)
      guard.minRemainingValiditySeconds)
  else .ok ()

/-- Some clock within the drift of `now` reads a time inside the window. -/
def WithinDrift (guard : ExpirationGuardConfig) (validAfter validBefore now : UInt64) : Prop :=
  ∃ t : ℤ, |t - now.toNat| ≤ guard.maxDriftSeconds.toNat ∧
    (validAfter.toNat : ℤ) ≤ t ∧ t ≤ validBefore.toNat

/-- The guard rejects a window for the time alone exactly when no clock within
the drift stands inside it, and saturating bounds decide nothing. -/
structure ToleratesDrift (guard : ExpirationGuardConfig)
    (validAfter validBefore now : UInt64) : Prop where
  outside : (∃ error, guard.validate validAfter validBefore now = .error error ∧
    error.isOutside = true) ↔ ¬ guard.WithinDrift validAfter validBefore now
  unbounded : guard.validate validAfter validBefore now =
    guard.unboundedValidate validAfter validBefore now

theorem gt_saturatingAdd_iff (first second third : UInt64) :
    third > saturatingAdd first second ↔ (third.toNat : ℤ) > first.toNat + second.toNat := by
  have hbound := third.toNat_lt
  rw [gt_iff_lt, UInt64.lt_iff_toNat_lt, toNat_saturatingAdd]
  omega

theorem lt_saturatingSub_iff (first second third : UInt64) :
    third < saturatingSub first second ↔ (third.toNat : ℤ) < first.toNat - second.toNat := by
  rw [UInt64.lt_iff_toNat_lt, toNat_saturatingSub]
  omega

/-- Saturation never changes the verdict. -/
theorem validate_eq_unboundedValidate (guard : ExpirationGuardConfig)
    (validAfter validBefore now : UInt64) :
    guard.validate validAfter validBefore now =
      guard.unboundedValidate validAfter validBefore now := by
  simp only [validate, unboundedValidate, gt_saturatingAdd_iff, lt_saturatingSub_iff]
  by_cases hexpired : now > validBefore
  · simp only [hexpired, if_true]
  · have hle := UInt64.le_iff_toNat_le.mp (UInt64.not_lt.mp hexpired)
    have hremaining : saturatingSub validBefore now =
        UInt64.ofNat ((validBefore.toNat : ℤ) - now.toNat).toNat := by
      have hbound := validBefore.toNat_lt
      rw [← UInt64.toNat_inj, toNat_saturatingSub, UInt64.toNat_ofNat', Nat.mod_eq_of_lt]
      · omega
      · omega
    have hmin : UInt64.ofNat ((validBefore.toNat : ℤ) - now.toNat).toNat <
        guard.minRemainingValiditySeconds ↔
          (validBefore.toNat : ℤ) - now.toNat < guard.minRemainingValiditySeconds.toNat := by
      rw [← hremaining, UInt64.lt_iff_toNat_lt, toNat_saturatingSub]
      omega
    simp only [hexpired, if_false, hremaining, hmin]

/-- On a window in order the guard rejects for the time alone before the
drifted beginning, and from the first second after the end on. -/
theorem validate_isOutside_iff (hordered : validAfter ≤ validBefore) :
    (∃ error, guard.validate validAfter validBefore now = .error error ∧
      error.isOutside = true) ↔
    now.toNat + guard.maxDriftSeconds.toNat < validAfter.toNat ∨ validBefore < now := by
  have hinverted : ¬ validAfter > validBefore := UInt64.not_lt.mpr hordered
  rw [validate_eq_unboundedValidate]
  simp only [unboundedValidate, hinverted, if_false]
  by_cases hpremature : (validAfter.toNat : ℤ) > now.toNat + guard.maxDriftSeconds.toNat
  · simp only [hpremature, if_true, Except.error.injEq, exists_eq_left', ExpirationError.isOutside,
      true_iff]
    left
    omega
  · have hactive : ¬ now.toNat + guard.maxDriftSeconds.toNat < validAfter.toNat := by omega
    by_cases hexpired : now > validBefore
    · simp only [hpremature, if_false, hexpired, if_true, ite_self, Except.error.injEq,
        exists_eq_left', ExpirationError.isOutside, or_true]
    · have hle := UInt64.le_iff_toNat_le.mp (UInt64.not_lt.mp hexpired)
      have hlate : ¬ (validBefore.toNat : ℤ) < now.toNat - guard.maxDriftSeconds.toNat := by omega
      simp only [hpremature, hlate, hexpired, hactive, if_false, or_self, iff_false, not_exists,
        not_and]
      split
      · rintro error herror
        obtain rfl := Except.error.inj herror
        exact Bool.false_ne_true
      · rintro error herror
        contradiction

/-- A clock within the drift can stand inside the window as long as neither end
is further away than the drift. -/
theorem withinDrift_iff (hordered : validAfter ≤ validBefore) :
    guard.WithinDrift validAfter validBefore now ↔
      validAfter.toNat ≤ now.toNat + guard.maxDriftSeconds.toNat ∧
        now.toNat ≤ validBefore.toNat + guard.maxDriftSeconds.toNat := by
  have hle := UInt64.le_iff_toNat_le.mp hordered
  constructor
  · rintro ⟨t, hdrift, hafter, hbefore⟩
    obtain ⟨hlow, hhigh⟩ := abs_le.mp hdrift
    omega
  · rintro ⟨hafter, hbefore⟩
    -- the time in the window that is closest to `now`
    refine ⟨max (validAfter.toNat : ℤ) (min now.toNat validBefore.toNat), ?_, ?_, ?_⟩
    · rw [abs_le]
      omega
    · omega
    · omega

/-- The drift is tolerated exactly as long as the window has not ended, or has
ended further back than the drift. -/
theorem toleratesDrift_iff (hordered : validAfter ≤ validBefore) :
    guard.ToleratesDrift validAfter validBefore now ↔
      now ≤ validBefore ∨ validBefore.toNat + guard.maxDriftSeconds.toNat < now.toNat := by
  have hle := UInt64.le_iff_toNat_le.mp hordered
  have hagree : ((∃ error, guard.validate validAfter validBefore now = .error error ∧
      error.isOutside = true) ↔ ¬ guard.WithinDrift validAfter validBefore now) ↔
      now ≤ validBefore ∨ validBefore.toNat + guard.maxDriftSeconds.toNat < now.toNat := by
    rw [validate_isOutside_iff hordered, withinDrift_iff hordered, UInt64.lt_iff_toNat_lt,
      UInt64.le_iff_toNat_le]
    omega
  rw [← hagree]
  exact ⟨ToleratesDrift.outside, fun houtside => ⟨houtside, validate_eq_unboundedValidate ..⟩⟩

end ExpirationGuardConfig

namespace DriftWitness

/-- In the middle of the window nothing has to be tolerated. -/
theorem open_toleratesDrift : ExpirationGuardConfig.default.ToleratesDrift 0 100 50 :=
  (ExpirationGuardConfig.toleratesDrift_iff (by decide)).mpr (Or.inl (by decide))

/-- One second after its end a window is rejected, with a drift of 30 seconds
allowed. -/
theorem ended_not_toleratesDrift :
    (0 : UInt64) ≤ 100 ∧ ¬ ExpirationGuardConfig.default.ToleratesDrift 0 100 101 := by
  refine ⟨by decide, fun htolerates => ?_⟩
  have hrejected : ExpirationGuardConfig.default.validate 0 100 101 =
      .error (.expired 100 101) := by decide
  have hwithin : ExpirationGuardConfig.default.WithinDrift 0 100 101 :=
    ⟨100, by decide, by decide, by decide⟩
  exact htolerates.outside.mp ⟨_, hrejected, rfl⟩ hwithin

end DriftWitness

end KiteX402
