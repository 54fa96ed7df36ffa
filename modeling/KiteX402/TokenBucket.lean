/-
A token bucket over an ordered field: it refills at a steady rate up to its
burst, and an admission costs one token.  A late reading of the clock counts as
the time of the last refill.
-/
import Mathlib.Algebra.Order.Field.Basic
import Mathlib.Tactic.Linarith
import Mathlib.Tactic.Ring

namespace KiteX402

universe u

/-- The tokens left at the time of the last refill. -/
structure TokenBucket (F : Type u) where
  tokens : F
  last : F
deriving DecidableEq

namespace TokenBucket

variable {F : Type u} [Field F] [LinearOrder F]

def refill (rate burst : F) (bucket : TokenBucket F) (now : F) : TokenBucket F where
  tokens := min ((max now bucket.last - bucket.last) * rate + bucket.tokens) burst
  last := max now bucket.last

def spend (bucket : TokenBucket F) : TokenBucket F :=
  if 1 ≤ bucket.tokens then { bucket with tokens := bucket.tokens - 1 }
  else bucket

/-- By `due` the refills have filled the bucket. -/
def FullBy (rate burst : F) (bucket : TokenBucket F) (due : F) : Prop :=
  bucket.last ≤ due ∧ burst ≤ (due - bucket.last) * rate + bucket.tokens

instance (rate burst : F) (bucket : TokenBucket F) (due : F) :
    Decidable (bucket.FullBy rate burst due) :=
  inferInstanceAs (Decidable (_ ∧ _))

/-- The tokens stay within the burst. -/
structure Bounded (burst : F) (bucket : TokenBucket F) : Prop where
  nonneg : 0 ≤ bucket.tokens
  le_burst : bucket.tokens ≤ burst

/-- `count` admissions from `first` to `final` have been paid for: by the burst
and by the refills since `first`, less the tokens that are left. -/
structure Paid (rate burst first final : F) (bucket : TokenBucket F)
    (count : ℕ) : Prop where
  before : bucket.last < first → count = 0
  within : first ≤ bucket.last → bucket.last ≤ final →
    count + bucket.tokens ≤ burst + rate * (bucket.last - first)
  after : final < bucket.last → (count : F) ≤ burst + rate * (final - first)

/-- Of the burst and the refills since `first`, all that `count` admissions did
not take is still in the bucket. -/
structure Keeps (rate burst first : F) (bucket : TokenBucket F)
    (count : ℕ) : Prop where
  started : first ≤ bucket.last
  tokens : burst + rate * (bucket.last - first) ≤ count + bucket.tokens

@[simp] theorem last_spend (bucket : TokenBucket F) :
    bucket.spend.last = bucket.last := by
  unfold spend
  split <;> rfl

theorem le_last_refill (rate burst : F) (bucket : TokenBucket F) (now : F) :
    bucket.last ≤ (bucket.refill rate burst now).last :=
  le_max_right now bucket.last

variable {rate burst first final now : F} {bucket : TokenBucket F} {count : ℕ}

/-- A bucket that has had the time to fill up cannot be told from a new one. -/
theorem FullBy.refill_eq (hfull : FullBy rate burst bucket now) :
    bucket.refill rate burst now =
      (TokenBucket.mk burst now).refill rate burst now := by
  obtain ⟨hlast, hburst⟩ := hfull
  have hmax : max now bucket.last = now := max_eq_left hlast
  simp only [TokenBucket.refill, hmax, max_self, min_eq_right hburst, sub_self,
    zero_mul, zero_add, min_self]

variable [IsStrictOrderedRing F]

theorem Bounded.refill (hbounded : Bounded burst bucket) (hrate : 0 ≤ rate)
    (now : F) : Bounded burst (bucket.refill rate burst now) where
  nonneg := by
    have helapsed : 0 ≤ max now bucket.last - bucket.last :=
      sub_nonneg.mpr (le_max_right now bucket.last)
    have hgain := mul_nonneg helapsed hrate
    exact le_min (by linarith [hbounded.nonneg])
      (hbounded.nonneg.trans hbounded.le_burst)
  le_burst := min_le_right _ _

theorem Bounded.spend (hbounded : Bounded burst bucket) :
    Bounded burst bucket.spend := by
  unfold TokenBucket.spend
  split
  next h => exact ⟨by simpa using h, by linarith [hbounded.le_burst]⟩
  next => exact hbounded

theorem FullBy.mono (hfull : FullBy rate burst bucket first) (hrate : 0 ≤ rate)
    (hnow : first ≤ now) : FullBy rate burst bucket now := by
  obtain ⟨hlast, hburst⟩ := hfull
  have hmore : (first - bucket.last) * rate ≤ (now - bucket.last) * rate :=
    mul_le_mul_of_nonneg_right (by linarith) hrate
  exact ⟨hlast.trans hnow, by linarith⟩

/-- How long a bucket takes to earn its next admission. -/
theorem one_le_refill_iff (hrate : 0 < rate) (hburst : 1 ≤ burst) (hnow : bucket.last ≤ now) :
    1 ≤ (bucket.refill rate burst now).tokens ↔
      (1 - bucket.tokens) / rate ≤ now - bucket.last := by
  have hmax : max now bucket.last = now := max_eq_left hnow
  simp only [refill, hmax, le_min_iff, hburst, and_true]
  rw [div_le_iff₀ hrate, sub_le_iff_le_add]

theorem FullBy.wait_le (hfull : FullBy rate burst bucket now) (hrate : 0 < rate)
    (hburst : 1 ≤ burst) : (1 - bucket.tokens) / rate ≤ now - bucket.last := by
  rw [div_le_iff₀ hrate, sub_le_iff_le_add]
  exact hburst.trans hfull.2

theorem Paid.start (hrate : 0 ≤ rate) (hburst : 0 ≤ burst)
    (hinterval : first ≤ final) (now : F) :
    Paid rate burst first final ⟨burst, now⟩ 0 where
  before _ := rfl
  within hfirst _ := by
    have hgain := mul_nonneg hrate (sub_nonneg.mpr hfirst)
    simp only [Nat.cast_zero]
    linarith
  after _ := by
    have hgain := mul_nonneg hrate (sub_nonneg.mpr hinterval)
    simp only [Nat.cast_zero]
    linarith

theorem Paid.count_le (hpaid : Paid rate burst first final bucket count)
    (hbounded : Bounded burst bucket) (hrate : 0 ≤ rate)
    (hinterval : first ≤ final) :
    (count : F) ≤ burst + rate * (final - first) := by
  have hburst : 0 ≤ burst := hbounded.nonneg.trans hbounded.le_burst
  have hlength : 0 ≤ rate * (final - first) :=
    mul_nonneg hrate (sub_nonneg.mpr hinterval)
  by_cases hbefore : bucket.last < first
  · rw [hpaid.before hbefore, Nat.cast_zero]
    linarith
  · by_cases hwithin : bucket.last ≤ final
    · have hpaid' := hpaid.within (not_lt.mp hbefore) hwithin
      have hgain : rate * (bucket.last - first) ≤ rate * (final - first) :=
        mul_le_mul_of_nonneg_left (by linarith) hrate
      linarith [hbounded.nonneg]
    · exact hpaid.after (not_le.mp hwithin)

theorem Paid.refill (hpaid : Paid rate burst first final bucket count)
    (hbounded : Bounded burst bucket) (hrate : 0 ≤ rate)
    (hinterval : first ≤ final) (now : F) :
    Paid rate burst first final (bucket.refill rate burst now) count := by
  have hlast := le_last_refill rate burst bucket now
  refine ⟨fun h => hpaid.before (hlast.trans_lt h), fun hfirst hfinal => ?_,
    fun _ => hpaid.count_le hbounded hrate hinterval⟩
  by_cases hbefore : bucket.last < first
  · have htokens := (hbounded.refill hrate now).le_burst
    have hgain := mul_nonneg hrate (sub_nonneg.mpr hfirst)
    rw [hpaid.before hbefore, Nat.cast_zero]
    linarith
  · have hpaid' := hpaid.within (not_lt.mp hbefore) (hlast.trans hfinal)
    have htokens : (bucket.refill rate burst now).tokens ≤
        ((bucket.refill rate burst now).last - bucket.last) * rate +
          bucket.tokens := min_le_left _ _
    have hsplit : rate * ((bucket.refill rate burst now).last - first) =
        ((bucket.refill rate burst now).last - bucket.last) * rate +
          rate * (bucket.last - first) := by ring
    linarith

/-- An admission is paid for with the token it takes; it counts when it falls
into the interval, and then the bucket has not moved past its end. -/
theorem Paid.spend (hpaid : Paid rate burst first final bucket count)
    {counted : Prop} [Decidable counted]
    (hcounted : counted → 1 ≤ bucket.tokens ∧ first ≤ bucket.last ∧
      bucket.last ≤ final) :
    Paid rate burst first final bucket.spend
      (count + if counted then 1 else 0) := by
  have htokens : bucket.spend.tokens ≤ bucket.tokens := by
    unfold TokenBucket.spend
    split
    · exact sub_le_self _ zero_le_one
    · exact le_refl _
  by_cases h : counted
  · obtain ⟨hone, hfirst, hfinal⟩ := hcounted h
    have hspend : bucket.spend.tokens = bucket.tokens - 1 := by
      simp [TokenBucket.spend, hone]
    rw [if_pos h]
    refine ⟨fun hlt => ?_, fun _ _ => ?_, fun hlt => ?_⟩
    · rw [last_spend] at hlt
      exact absurd hlt (not_lt.mpr hfirst)
    · have hpaid' := hpaid.within hfirst hfinal
      rw [last_spend, hspend, Nat.cast_succ]
      linarith
    · rw [last_spend] at hlt
      exact absurd hlt (not_lt.mpr hfinal)
  · rw [if_neg h, Nat.add_zero]
    refine ⟨fun hlt => ?_, fun hfirst hfinal => ?_, fun hlt => ?_⟩
    · rw [last_spend] at hlt
      exact hpaid.before hlt
    · rw [last_spend] at hfirst hfinal ⊢
      linarith [hpaid.within hfirst hfinal]
    · rw [last_spend] at hlt
      exact hpaid.after hlt

theorem Keeps.start (rate burst now : F) (count : ℕ) :
    Keeps rate burst now ⟨burst, now⟩ count where
  started := le_rfl
  tokens := by
    have hcount : (0 : F) ≤ count := Nat.cast_nonneg count
    simp only [sub_self, mul_zero]
    linarith

/-- What overflows at a refill is forgotten by counting from there on. -/
theorem Keeps.refill (hkeeps : Keeps rate burst first bucket count)
    (hnow : bucket.last ≤ now) :
    Keeps rate burst first (bucket.refill rate burst now) count ∨
      ∀ more, Keeps rate burst now (bucket.refill rate burst now) more := by
  have hmax : max now bucket.last = now := max_eq_left hnow
  have htokens : (bucket.refill rate burst now).tokens =
      min ((now - bucket.last) * rate + bucket.tokens) burst := by
    simp only [TokenBucket.refill, hmax]
  have hlast : (bucket.refill rate burst now).last = now := hmax
  rcases le_total ((now - bucket.last) * rate + bucket.tokens) burst with h | h
  · refine Or.inl ⟨(hkeeps.started.trans hnow).trans hlast.ge, ?_⟩
    have hsplit : rate * (now - first) =
        (now - bucket.last) * rate + rate * (bucket.last - first) := by ring
    rw [htokens, min_eq_left h, hlast, hsplit]
    linarith [hkeeps.tokens]
  · refine Or.inr fun more => ⟨hlast.ge, ?_⟩
    rw [htokens, min_eq_right h, hlast]
    exact (Keeps.start rate burst now more).tokens

theorem Keeps.spend (hkeeps : Keeps rate burst first bucket count) :
    Keeps rate burst first bucket.spend
      (count + if 1 ≤ bucket.tokens then 1 else 0) := by
  have htokens := hkeeps.tokens
  unfold TokenBucket.spend
  split
  next =>
    refine ⟨hkeeps.started, ?_⟩
    rw [Nat.cast_succ]
    dsimp only
    linarith
  next => exact ⟨hkeeps.started, by simpa using htokens⟩

end TokenBucket

end KiteX402
