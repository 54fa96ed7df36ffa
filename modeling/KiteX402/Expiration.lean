/-
The check of an authorization's validity window against the wall clock, in
Unix seconds of 64 bits.
-/
import Mathlib.Data.String.Basic

namespace KiteX402

inductive ExpirationError where
  | expired (validBefore now : UInt64)
  | notYetValid (validAfter now : UInt64)
  | invertedWindow (validAfter validBefore : UInt64)
  | insufficientRemainingValidity (remaining minRequired : UInt64)
deriving DecidableEq

def ExpirationError.message : ExpirationError → String
  | .expired validBefore now =>
      s!"payment authorization has expired (validBefore: {validBefore}, now: {now})"
  | .notYetValid validAfter now =>
      s!"payment authorization is not yet active (validAfter: {validAfter}, now: {now})"
  | .invertedWindow validAfter validBefore =>
      s!"payment authorization validity window is inverted (validAfter: {validAfter} > validBefore: {validBefore})"
  | .insufficientRemainingValidity remaining minRequired =>
      s!"payment authorization expires too soon for settlement (remaining: {remaining}s < min: {minRequired}s)"

structure ExpirationGuardConfig where
  maxDriftSeconds : UInt64
  minRemainingValiditySeconds : UInt64
deriving DecidableEq

def saturatingAdd (first second : UInt64) : UInt64 :=
  if first.toNat + second.toNat < 2 ^ 64 then first + second
  else UInt64.ofNat (2 ^ 64 - 1)

def saturatingSub (first second : UInt64) : UInt64 :=
  if second ≤ first then first - second else 0

theorem toNat_saturatingAdd (first second : UInt64) :
    (saturatingAdd first second).toNat = min (first.toNat + second.toNat) (2 ^ 64 - 1) := by
  unfold saturatingAdd
  split
  next hfits =>
    rw [UInt64.toNat_add, Nat.mod_eq_of_lt hfits]
    omega
  next hfull =>
    rw [UInt64.toNat_ofNat_of_lt' (by decide)]
    omega

theorem toNat_saturatingSub (first second : UInt64) :
    (saturatingSub first second).toNat = first.toNat - second.toNat := by
  unfold saturatingSub
  split
  next hle => exact UInt64.toNat_sub_of_le _ _ hle
  next hlt =>
    have hbelow := UInt64.lt_iff_toNat_lt.mp (UInt64.not_le.mp hlt)
    rw [Nat.sub_eq_zero_of_le hbelow.le]
    rfl

namespace ExpirationGuardConfig

/-- `ExpirationGuardConfig::default()`. -/
def default : ExpirationGuardConfig := ⟨30, 5⟩

def validate (guard : ExpirationGuardConfig) (validAfter validBefore now : UInt64) :
    Except ExpirationError Unit :=
  if validAfter > validBefore then
    .error (.invertedWindow validAfter validBefore)
  else if validAfter > saturatingAdd now guard.maxDriftSeconds then
    .error (.notYetValid validAfter now)
  else if validBefore < saturatingSub now guard.maxDriftSeconds then
    .error (.expired validBefore now)
  else if now > validBefore then
    .error (.expired validBefore now)
  else
    let remaining := saturatingSub validBefore now
    if remaining < guard.minRemainingValiditySeconds then
      .error (.insufficientRemainingValidity remaining
        guard.minRemainingValiditySeconds)
    else .ok ()

/-- The system clock reads `none` before the Unix epoch. -/
def validateNow (guard : ExpirationGuardConfig) (validAfter validBefore : UInt64)
    (wallClock : Option UInt64) : Except ExpirationError Unit :=
  guard.validate validAfter validBefore (wallClock.getD 0)

end ExpirationGuardConfig

end KiteX402
