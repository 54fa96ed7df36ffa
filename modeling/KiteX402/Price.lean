/-
What prices the parser accepts, and the amounts it makes of them.
-/
import KiteX402.Kite
import KiteX402.Numeral

namespace KiteX402

/-- The numerals `digits+` and `digits+ '.' digits+`, with the digits before and
after the point. -/
inductive PlainDecimal : List Char → List Char → List Char → Prop where
  | integer (whole) (hwhole : Digits whole) (hne : whole ≠ []) :
      PlainDecimal whole whole []
  | fraction (whole frac) (hwhole : Digits whole) (hne : whole ≠ [])
      (hfrac : Digits frac) (hfne : frac ≠ []) :
      PlainDecimal (whole ++ '.' :: frac) whole frac

section Scan

variable {text whole frac : List Char}

theorem Digits.cons {c : Char} (hc : c.isDigit = true) (htext : Digits text) :
    Digits (c :: text) :=
  List.forall_mem_cons.mpr ⟨hc, htext⟩

theorem ne_dot_of_isDigit {c : Char} (hc : c.isDigit = true) : c ≠ '.' := by
  rintro rfl
  contradiction

theorem Digits.getLast?_ne_dot (htext : Digits text) : text.getLast? ≠ some '.' := by
  intro hlast
  exact ne_dot_of_isDigit (htext '.' (List.mem_of_getLast? hlast)) rfl

/-- The loop walks over digits. -/
theorem scanDecimal_digits {digits : List Char} (hdigits : Digits digits)
    (hne : digits ≠ []) (seenDot hasDigit atStart : Bool) (rest : List Char) :
    scanDecimal seenDot hasDigit atStart (digits ++ rest) =
      scanDecimal seenDot true false rest := by
  induction digits generalizing hasDigit atStart with
  | nil => contradiction
  | cons c digits ih =>
      obtain ⟨hc, hrest⟩ := List.forall_mem_cons.mp hdigits
      rw [List.cons_append, scanDecimal, if_neg (ne_dot_of_isDigit hc), if_pos hc]
      by_cases hnil : digits = []
      · rw [hnil, List.nil_append]
      · exact ih hrest hnil true false

/-- After the point the loop only accepts digits. -/
theorem digits_of_scanDecimal {hasDigit atStart found : Bool}
    (hscan : scanDecimal true hasDigit atStart text = some found) : Digits text := by
  induction text generalizing hasDigit atStart with
  | nil => exact List.forall_mem_nil _
  | cons c rest ih =>
      by_cases hdot : c = '.'
      · simp [scanDecimal, hdot] at hscan
      · by_cases hc : c.isDigit = true
        · rw [scanDecimal, if_neg hdot, if_pos hc] at hscan
          exact .cons hc (ih hscan)
        · simp [scanDecimal, hdot, hc] at hscan

/-- Past the first character the loop accepts digits with at most one point. -/
theorem scanDecimal_cases {hasDigit found : Bool}
    (hscan : scanDecimal false hasDigit false text = some found) :
    Digits text ∨ ∃ whole frac, text = whole ++ '.' :: frac ∧ Digits whole ∧ Digits frac := by
  induction text generalizing hasDigit with
  | nil => exact Or.inl (List.forall_mem_nil _)
  | cons c rest ih =>
      by_cases hdot : c = '.'
      · rw [scanDecimal, if_pos hdot] at hscan
        refine Or.inr ⟨[], rest, by rw [hdot]; rfl, List.forall_mem_nil _, ?_⟩
        exact digits_of_scanDecimal hscan
      · by_cases hc : c.isDigit = true
        · rw [scanDecimal, if_neg hdot, if_pos hc] at hscan
          rcases ih hscan with hrest | ⟨whole, frac, rfl, hwhole, hfrac⟩
          · exact Or.inl (.cons hc hrest)
          · exact Or.inr ⟨c :: whole, frac, rfl, .cons hc hwhole, hfrac⟩
        · simp [scanDecimal, hdot, hc] at hscan

theorem PlainDecimal.isPlainPositiveDecimal (hdecimal : PlainDecimal text whole frac) :
    isPlainPositiveDecimal text = true := by
  cases hdecimal with
  | integer _ hwhole hne =>
      have hscan : scanDecimal false false true text = some true := by
        rw [← List.append_nil text, scanDecimal_digits hwhole hne]
        rfl
      simp [KiteX402.isPlainPositiveDecimal, hscan, hwhole.getLast?_ne_dot]
  | fraction _ _ hwhole hne hfrac hfne =>
      have hscan : scanDecimal false false true (whole ++ '.' :: frac) = some true := by
        rw [scanDecimal_digits hwhole hne, scanDecimal, if_pos rfl,
          ← List.append_nil frac]
        exact scanDecimal_digits hfrac hfne true true false []
      have hlast : (whole ++ '.' :: frac).getLast? ≠ some '.' := by
        rw [List.getLast?_append_of_ne_nil _ (List.cons_ne_nil _ _),
          List.getLast?_cons_of_ne_nil hfne]
        exact hfrac.getLast?_ne_dot
      rw [KiteX402.isPlainPositiveDecimal, hscan]
      simpa using hlast

theorem exists_plainDecimal (hplain : isPlainPositiveDecimal text = true) :
    ∃ whole frac, PlainDecimal text whole frac := by
  unfold isPlainPositiveDecimal at hplain
  split at hplain
  next hasDigit hscan =>
    obtain ⟨hdigit, hlast⟩ : hasDigit = true ∧ text.getLast? ≠ some '.' := by
      simpa using hplain
    cases text with
    | nil =>
        obtain rfl : false = hasDigit := Option.some.inj hscan
        contradiction
    | cons c rest =>
        by_cases hdot : c = '.'
        · simp [scanDecimal, hdot] at hscan
        · by_cases hc : c.isDigit = true
          · rw [scanDecimal, if_neg hdot, if_pos hc] at hscan
            rcases scanDecimal_cases hscan with hrest | ⟨whole, frac, rfl, hwhole, hfrac⟩
            · exact ⟨_, _, .integer _ (.cons hc hrest) (List.cons_ne_nil _ _)⟩
            · have hfne : frac ≠ [] := by
                rintro rfl
                exact hlast (by rw [← List.cons_append, List.getLast?_concat])
              exact ⟨_, _, .fraction (c :: whole) frac (.cons hc hwhole)
                (List.cons_ne_nil _ _) hfrac hfne⟩
          · simp [scanDecimal, hdot, hc] at hscan
  next => contradiction

/-- The recogniser accepts the numerals, and nothing else. -/
theorem isPlainPositiveDecimal_iff :
    isPlainPositiveDecimal text = true ↔ ∃ whole frac, PlainDecimal text whole frac :=
  ⟨exists_plainDecimal, fun ⟨_, _, hdecimal⟩ => hdecimal.isPlainPositiveDecimal⟩

/-- The digits of a numeral are those on the two sides of its first point. -/
theorem PlainDecimal.split (hdecimal : PlainDecimal text whole frac) :
    text.takeWhile (· ≠ '.') = whole ∧ (text.dropWhile (· ≠ '.')).drop 1 = frac := by
  have hpass : ∀ digits, Digits digits → ∀ c ∈ digits, decide (c ≠ '.') = true :=
    fun digits hdigits c hc => decide_eq_true (ne_dot_of_isDigit (hdigits c hc))
  cases hdecimal with
  | integer _ hwhole hne =>
      constructor
      · exact List.takeWhile_eq_self_iff.mpr (hpass _ hwhole)
      · rw [List.dropWhile_eq_nil_iff.mpr (hpass _ hwhole)]
        rfl
  | fraction _ _ hwhole hne hfrac hfne =>
      rw [List.takeWhile_append_of_pos (hpass _ hwhole),
        List.dropWhile_append_of_pos (hpass _ hwhole)]
      simp

theorem PlainDecimal.digits (hdecimal : PlainDecimal text whole frac) :
    Digits (whole ++ frac) := by
  cases hdecimal with
  | integer _ hwhole => rwa [List.append_nil]
  | fraction _ _ hwhole _ hfrac => exact hwhole.append hfrac

theorem PlainDecimal.length_frac_le (hdecimal : PlainDecimal text whole frac) :
    frac.length ≤ text.length := by
  cases hdecimal with
  | integer => exact Nat.zero_le _
  | fraction =>
      rw [List.length_append, List.length_cons]
      omega

end Scan

/-- A price of fewer than `2 ^ 32` bytes. -/
def ShortPrice (priceUsd : String) : Prop := (utf8 priceUsd).length < 2 ^ 32

theorem length_priceText_le (priceUsd : String) :
    (priceText priceUsd).length ≤ priceUsd.toList.length := by
  have htrim := (trim_sublist priceUsd.toList).length_le
  unfold priceText
  split
  next rest heq =>
    rw [heq, List.length_cons] at htrim
    exact Nat.le_of_succ_le htrim
  next => exact htrim

namespace KiteChain

variable {chain : KiteChain} {priceUsd : String} {whole frac : List Char}

theorem parsePrice_of_not_plain
    (hnone : ∀ whole frac, ¬ PlainDecimal (priceText priceUsd) whole frac) :
    chain.parsePrice priceUsd = some (.error (.invalidPrice priceUsd)) := by
  have hplain : ¬ isPlainPositiveDecimal (priceText priceUsd) = true := by
    rw [isPlainPositiveDecimal_iff]
    rintro ⟨whole, frac, hdecimal⟩
    exact hnone whole frac hdecimal
  rw [parsePrice, if_neg hplain]

/-- What the parser makes of a numeral, with the comparison of lengths exact. -/
theorem parsePrice_of_plain (hshort : ShortPrice priceUsd)
    (hdecimal : PlainDecimal (priceText priceUsd) whole frac) :
    chain.parsePrice priceUsd =
      if chain.assetDecimals.toNat < frac.length then
        some (.error (.tooManyDecimals (String.ofList (priceText priceUsd))
          chain.assetDecimals chain.assetSymbol))
      else
        let number := digitsNumber (whole ++ frac ++
          List.replicate (chain.assetDecimals.toNat - frac.length) '0')
        if number = 0 then some (.error (.belowOneUnit priceUsd chain.assetSymbol))
        else some (.ok ⟨chain.assetAddress, toString number, chain.extra⟩) := by
  obtain ⟨hwhole, hfrac⟩ := hdecimal.split
  have hlength : frac.length % 2 ^ 32 = frac.length := by
    apply Nat.mod_eq_of_lt
    calc
      frac.length ≤ (priceText priceUsd).length := hdecimal.length_frac_le
      _ ≤ priceUsd.toList.length := length_priceText_le priceUsd
      _ ≤ (utf8 priceUsd).length := length_le_length_utf8 priceUsd
      _ < 2 ^ 32 := hshort
  simp only [parsePrice, hdecimal.isPlainPositiveDecimal, if_true, hwhole, hfrac, hlength]
  by_cases hmany : chain.assetDecimals.toNat < frac.length
  · rw [if_pos hmany, if_pos hmany]
  · rw [if_neg hmany, if_neg hmany, if_neg hmany]
    have hdigits := hdecimal.digits.append
      (digits_replicate_zero (chain.assetDecimals.toNat - frac.length))
    generalize whole ++ frac ++
      List.replicate (chain.assetDecimals.toNat - frac.length) '0' = digits at hdigits ⊢
    by_cases hzero : digitsNumber digits = 0
    · rw [(dropWhile_zero_eq_nil hdigits).mpr hzero, if_pos rfl, if_pos rfl, if_pos hzero]
    · have hne : digits.dropWhile (· = '0') ≠ [] :=
        fun hnil => hzero ((dropWhile_zero_eq_nil hdigits).mp hnil)
      have hone : digits.dropWhile (· = '0') ≠ ['0'] := by
        intro heq
        exact head?_dropWhile_zero digits (by rw [heq]; rfl)
      rw [if_neg hne, if_neg hone, if_neg hzero, ofList_dropWhile_zero hdigits hne]

/-- Which prices are accepted, the amounts they come to, and the errors of the
others.  The digits are counted before the value is looked at. -/
structure PriceLaws (chain : KiteChain) (priceUsd : String) : Prop where
  accepts : (∃ price, chain.parsePrice priceUsd = some (.ok price)) ↔
    ∃ whole frac, PlainDecimal (priceText priceUsd) whole frac ∧
      frac.length ≤ chain.assetDecimals.toNat ∧ decimalNumber whole frac ≠ 0
  amount : ∀ whole frac, PlainDecimal (priceText priceUsd) whole frac →
    frac.length ≤ chain.assetDecimals.toNat → decimalNumber whole frac ≠ 0 →
    ∃ units : ℕ, (units : ℚ) = decimalNumber whole frac * 10 ^ chain.assetDecimals.toNat ∧
      chain.parsePrice priceUsd =
        some (.ok ⟨chain.assetAddress, toString units, chain.extra⟩)
  invalidPrice : (∀ whole frac, ¬ PlainDecimal (priceText priceUsd) whole frac) →
    chain.parsePrice priceUsd = some (.error (.invalidPrice priceUsd))
  tooManyDecimals : ∀ whole frac, PlainDecimal (priceText priceUsd) whole frac →
    chain.assetDecimals.toNat < frac.length →
    chain.parsePrice priceUsd = some (.error (.tooManyDecimals
      (String.ofList (priceText priceUsd)) chain.assetDecimals chain.assetSymbol))
  belowOneUnit : ∀ whole frac, PlainDecimal (priceText priceUsd) whole frac →
    frac.length ≤ chain.assetDecimals.toNat → decimalNumber whole frac = 0 →
    chain.parsePrice priceUsd = some (.error (.belowOneUnit priceUsd chain.assetSymbol))

/-- Amounts compare as the prices do. -/
def ComparesAlike (chain : KiteChain) (first second : String) : Prop :=
  ∀ price price', chain.parsePrice first = some (.ok price) →
    chain.parsePrice second = some (.ok price') →
    ∀ whole frac whole' frac', PlainDecimal (priceText first) whole frac →
      PlainDecimal (priceText second) whole' frac' →
      (price.amount = price'.amount ↔
        decimalNumber whole frac = decimalNumber whole' frac') ∧
      (digitsNumber price.amount.toList ≤ digitsNumber price'.amount.toList ↔
        decimalNumber whole frac ≤ decimalNumber whole' frac')

/-- The scaled value of a price is zero exactly when its value is. -/
theorem scaled_eq_zero {decimals : ℕ} (hfew : frac.length ≤ decimals) :
    digitsNumber (whole ++ frac ++ List.replicate (decimals - frac.length) '0') = 0 ↔
      decimalNumber whole frac = 0 := by
  have hpow : (10 : ℚ) ^ decimals ≠ 0 := pow_ne_zero _ (by decide)
  have hscaled := decimalNumber_mul_pow whole frac hfew
  rw [← Nat.cast_eq_zero (R := ℚ), ← hscaled, mul_eq_zero, or_iff_left hpow]

variable (chain) in
theorem parsePrice_of_few (hshort : ShortPrice priceUsd)
    (hdecimal : PlainDecimal (priceText priceUsd) whole frac)
    (hfew : frac.length ≤ chain.assetDecimals.toNat) (hvalue : decimalNumber whole frac ≠ 0) :
    ∃ units : ℕ, (units : ℚ) = decimalNumber whole frac * 10 ^ chain.assetDecimals.toNat ∧
      chain.parsePrice priceUsd =
        some (.ok ⟨chain.assetAddress, toString units, chain.extra⟩) := by
  refine ⟨_, (decimalNumber_mul_pow whole frac hfew).symm, ?_⟩
  rw [parsePrice_of_plain hshort hdecimal, if_neg (Nat.not_lt.mpr hfew)]
  exact if_neg (mt (scaled_eq_zero hfew).mp hvalue)

theorem parsePrice_of_zero (hshort : ShortPrice priceUsd)
    (hdecimal : PlainDecimal (priceText priceUsd) whole frac)
    (hfew : frac.length ≤ chain.assetDecimals.toNat) (hvalue : decimalNumber whole frac = 0) :
    chain.parsePrice priceUsd = some (.error (.belowOneUnit priceUsd chain.assetSymbol)) := by
  rw [parsePrice_of_plain hshort hdecimal, if_neg (Nat.not_lt.mpr hfew)]
  exact if_pos ((scaled_eq_zero hfew).mpr hvalue)

theorem parsePrice_of_many (hshort : ShortPrice priceUsd)
    (hdecimal : PlainDecimal (priceText priceUsd) whole frac)
    (hmany : chain.assetDecimals.toNat < frac.length) :
    chain.parsePrice priceUsd = some (.error (.tooManyDecimals
      (String.ofList (priceText priceUsd)) chain.assetDecimals chain.assetSymbol)) := by
  rw [parsePrice_of_plain hshort hdecimal, if_pos hmany]

/-- An accepted numeral has few enough digits, and a value. -/
theorem of_accepted (hshort : ShortPrice priceUsd) {price : AssetAmount}
    (hprice : chain.parsePrice priceUsd = some (.ok price))
    (hdecimal : PlainDecimal (priceText priceUsd) whole frac) :
    frac.length ≤ chain.assetDecimals.toNat ∧ decimalNumber whole frac ≠ 0 := by
  have hfew : frac.length ≤ chain.assetDecimals.toNat := by
    by_contra hmany
    rw [parsePrice_of_many hshort hdecimal (Nat.not_le.mp hmany)] at hprice
    simp at hprice
  refine ⟨hfew, fun hvalue => ?_⟩
  rw [parsePrice_of_zero hshort hdecimal hfew hvalue] at hprice
  simp at hprice

theorem price_laws (hshort : ShortPrice priceUsd) : PriceLaws chain priceUsd where
  accepts := by
    constructor
    · rintro ⟨price, hprice⟩
      by_cases hplain : ∃ whole frac, PlainDecimal (priceText priceUsd) whole frac
      · obtain ⟨whole, frac, hdecimal⟩ := hplain
        exact ⟨whole, frac, hdecimal, of_accepted hshort hprice hdecimal⟩
      · rw [parsePrice_of_not_plain fun whole frac hdecimal =>
          hplain ⟨whole, frac, hdecimal⟩] at hprice
        simp at hprice
    · rintro ⟨whole, frac, hdecimal, hfew, hvalue⟩
      obtain ⟨units, _, hprice⟩ := parsePrice_of_few chain hshort hdecimal hfew hvalue
      exact ⟨_, hprice⟩
  amount _ _ := parsePrice_of_few chain hshort
  invalidPrice := parsePrice_of_not_plain
  tooManyDecimals _ _ := parsePrice_of_many hshort
  belowOneUnit _ _ := parsePrice_of_zero hshort

/-- The amount of an accepted price is the numeral of its scaled value. -/
theorem amount_of_accepted (hshort : ShortPrice priceUsd) {price : AssetAmount}
    (hprice : chain.parsePrice priceUsd = some (.ok price))
    (hdecimal : PlainDecimal (priceText priceUsd) whole frac) :
    ∃ units : ℕ, price.amount = toString units ∧
      (units : ℚ) = decimalNumber whole frac * 10 ^ chain.assetDecimals.toNat := by
  obtain ⟨hfew, hvalue⟩ := of_accepted hshort hprice hdecimal
  obtain ⟨units, hunits, heq⟩ := parsePrice_of_few chain hshort hdecimal hfew hvalue
  rw [hprice] at heq
  exact ⟨units, congrArg AssetAmount.amount (Except.ok.inj (Option.some.inj heq)), hunits⟩

theorem compares_alike {first second : String} (hfirst : ShortPrice first)
    (hsecond : ShortPrice second) : ComparesAlike chain first second := by
  intro price price' hprice hprice' whole frac whole' frac' hdecimal hdecimal'
  obtain ⟨units, hamount, hunits⟩ := amount_of_accepted hfirst hprice hdecimal
  obtain ⟨units', hamount', hunits'⟩ := amount_of_accepted hsecond hprice' hdecimal'
  have hpow : (0 : ℚ) < 10 ^ chain.assetDecimals.toNat := pow_pos (by norm_num) _
  have hsame : (toString units = toString units') ↔ units = units' := by
    refine ⟨fun heq => ?_, congrArg toString⟩
    rw [← digitsNumber_toString units, heq, digitsNumber_toString]
  constructor
  · rw [hamount, hamount', hsame, ← Nat.cast_inj (R := ℚ), hunits, hunits',
      mul_left_inj' hpow.ne']
  · rw [hamount, hamount', digitsNumber_toString, digitsNumber_toString,
      ← Nat.cast_le (α := ℚ), hunits, hunits', mul_le_mul_iff_left₀ hpow]

/-- The parser is exact on every chain, for all prices of fewer than `2 ^ 32`
bytes. -/
theorem parsePrice_exact (chain : KiteChain) :
    (∀ priceUsd, ShortPrice priceUsd → PriceLaws chain priceUsd) ∧
      ∀ first second, ShortPrice first → ShortPrice second →
        ComparesAlike chain first second :=
  ⟨fun _ => price_laws, fun _ _ => compares_alike⟩

end KiteChain

namespace PriceWitness

/-- One digit more than the asset has, and no value. -/
def zeros : String := "0.0000000"

/-- The error is about the digits, though the price is zero. -/
theorem zeros_not_belowOneUnit :
    ShortPrice zeros ∧ PlainDecimal (priceText zeros) ['0'] (List.replicate 7 '0') ∧
      decimalNumber ['0'] (List.replicate 7 '0') = 0 ∧
      kiteMainnet.parsePrice zeros ≠
        some (.error (.belowOneUnit zeros kiteMainnet.assetSymbol)) := by
  have hzeros : Digits (List.replicate 7 '0') := digits_replicate_zero 7
  have hplain : PlainDecimal (['0'] ++ '.' :: List.replicate 7 '0') ['0']
      (List.replicate 7 '0') :=
    .fraction _ _ (digits_replicate_zero 1) (List.cons_ne_nil _ _) hzeros
      (List.cons_ne_nil _ _)
  have hshort : (utf8 zeros).length < 2 ^ 32 := by decide +kernel
  refine ⟨hshort, hplain, ?_, by decide +kernel⟩
  have hwhole : digitsNumber ['0'] = 0 := digitsNumber_replicate_zero 1
  rw [decimalNumber, digitsNumber_replicate_zero, hwhole]
  norm_num

end PriceWitness

end KiteX402
