/-
Decimal numerals: strings of digits, the numbers they denote, and decimal
fractions.  Hexadecimal ones have a fixed number of digits.
-/
import Mathlib.Algebra.Order.Field.Rat
import Mathlib.Data.List.Induction
import Mathlib.Tactic.FieldSimp
import Mathlib.Tactic.Ring

namespace KiteX402

/-- Only digits stand in a text. -/
def Digits (text : List Char) : Prop := ∀ c ∈ text, c.isDigit = true

theorem Digits.append {first last : List Char} (hfirst : Digits first)
    (hlast : Digits last) : Digits (first ++ last) := by
  intro c hc
  rcases List.mem_append.mp hc with hc | hc
  · exact hfirst c hc
  · exact hlast c hc

theorem digits_replicate_zero (n : ℕ) : Digits (List.replicate n '0') := by
  intro c hc
  rw [List.eq_of_mem_replicate hc]
  rfl

theorem isDigit_iff_toNat {c : Char} :
    c.isDigit = true ↔ 48 ≤ c.toNat ∧ c.toNat ≤ 57 := by
  simp only [Char.isDigit, Bool.and_eq_true, decide_eq_true_eq, ge_iff_le,
    UInt32.le_iff_toNat_le]
  exact Iff.rfl

/-- A digit is the numeral of its value. -/
theorem digitChar_of_isDigit {c : Char} (hc : c.isDigit = true) :
    (c.toNat - 48).digitChar = c := by
  have hsmall : ∀ d < 10, d.digitChar = Char.ofNat (48 + d) := by decide
  obtain ⟨hlow, hhigh⟩ := isDigit_iff_toNat.mp hc
  rw [hsmall _ (by omega), Nat.add_sub_cancel' hlow, Char.ofNat_toNat]

/-- The number that digits denote. -/
def digitsNumber (digits : List Char) : ℕ := Nat.ofDigitChars 10 digits 0

theorem digitsNumber_concat (digits : List Char) (c : Char) :
    digitsNumber (digits ++ [c]) = 10 * digitsNumber digits + (c.toNat - 48) := by
  rw [digitsNumber, Nat.ofDigitChars_append, Nat.ofDigitChars_cons, Nat.ofDigitChars_nil]
  rfl

theorem digitsNumber_append (first last : List Char) :
    digitsNumber (first ++ last) =
      10 ^ last.length * digitsNumber first + digitsNumber last := by
  rw [digitsNumber, Nat.ofDigitChars_append, Nat.ofDigitChars_eq_ofDigitChars_zero]
  rfl

theorem digitsNumber_replicate_zero (n : ℕ) : digitsNumber (List.replicate n '0') = 0 := by
  rw [digitsNumber, Nat.ofDigitChars_replicate_zero, Nat.mul_zero]

theorem digitsNumber_zero_cons (digits : List Char) :
    digitsNumber ('0' :: digits) = digitsNumber digits := by
  rw [digitsNumber, Nat.ofDigitChars_cons]
  rfl

/-- Digits without a leading zero are the numeral of their number. -/
theorem toDigits_digitsNumber {digits : List Char} (hdigits : Digits digits)
    (hne : digits ≠ []) (hhead : digits.head? ≠ some '0') :
    Nat.toDigits 10 (digitsNumber digits) = digits := by
  induction digits using List.reverseRecOn with
  | nil => contradiction
  | append_singleton digits c ih =>
      have hc : c.isDigit = true := hdigits c (by simp)
      have hlast : Nat.toDigits 10 (c.toNat - 48) = [c] := by
        rw [Nat.toDigits_of_lt_base, digitChar_of_isDigit hc]
        have hrange := isDigit_iff_toNat.mp hc
        omega
      rw [digitsNumber_concat]
      by_cases hnil : digits = []
      · subst hnil
        rw [show digitsNumber [] = 0 from rfl, Nat.mul_zero, Nat.zero_add, hlast]
        rfl
      · rw [List.head?_append_of_ne_nil _ hnil] at hhead
        have hprefix := ih (fun d hd => hdigits d (List.mem_append_left _ hd)) hnil hhead
        have hpos : 0 < digitsNumber digits := by
          rw [Nat.pos_iff_ne_zero]
          intro hzero
          rw [hzero, Nat.toDigits_zero] at hprefix
          rw [← hprefix] at hhead
          contradiction
        have hdigit : c.toNat - 48 < 10 := by
          have hrange := isDigit_iff_toNat.mp hc
          omega
        rw [← Nat.toDigits_append_toDigits (by decide) hpos hdigit, hprefix, hlast]

theorem digitsNumber_dropWhile_zero (digits : List Char) :
    digitsNumber (digits.dropWhile (· = '0')) = digitsNumber digits := by
  induction digits with
  | nil => rfl
  | cons c rest ih =>
      by_cases hc : c = '0'
      · rw [List.dropWhile_cons_of_pos (by simpa using hc), ih, hc, digitsNumber_zero_cons]
      · rw [List.dropWhile_cons_of_neg (by simpa using hc)]

theorem head?_dropWhile_zero (digits : List Char) :
    (digits.dropWhile (· = '0')).head? ≠ some '0' := by
  intro hhead
  have hnot := List.head?_dropWhile_not (· = '0') digits
  rw [hhead] at hnot
  contradiction

/-- What is left without the leading zeros is the canonical numeral. -/
theorem ofList_dropWhile_zero {digits : List Char} (hdigits : Digits digits)
    (hne : digits.dropWhile (· = '0') ≠ []) :
    String.ofList (digits.dropWhile (· = '0')) = toString (digitsNumber digits) := by
  have hrest : Digits (digits.dropWhile (· = '0')) :=
    fun c hc => hdigits c (List.dropWhile_sublist _ |>.mem hc)
  have hnumeral := toDigits_digitsNumber hrest hne (head?_dropWhile_zero digits)
  rw [digitsNumber_dropWhile_zero] at hnumeral
  rw [← String.toList_inj, String.toList_ofList]
  exact hnumeral.symm.trans Nat.toList_repr.symm

theorem digitsNumber_toString (n : ℕ) : digitsNumber (toString n).toList = n := by
  have hlist : (toString n).toList = Nat.toDigits 10 n := Nat.toList_repr
  rw [digitsNumber, hlist, Nat.ofDigitChars_ten_toDigits]

/-- Nothing but zeros denotes zero. -/
theorem dropWhile_zero_eq_nil {digits : List Char} (hdigits : Digits digits) :
    digits.dropWhile (· = '0') = [] ↔ digitsNumber digits = 0 := by
  constructor
  · intro hnil
    rw [← digitsNumber_dropWhile_zero, hnil]
    rfl
  · intro hzero
    by_contra hne
    have hnumeral := ofList_dropWhile_zero hdigits hne
    have hhead := head?_dropWhile_zero digits
    rw [hzero, ← String.toList_inj, String.toList_ofList] at hnumeral
    rw [hnumeral] at hhead
    contradiction

/-- The number that a decimal fraction denotes. -/
def decimalNumber (whole frac : List Char) : ℚ :=
  digitsNumber whole + digitsNumber frac / 10 ^ frac.length

/-- Moving the point past all digits of the fraction. -/
theorem decimalNumber_mul_pow (whole frac : List Char) {decimals : ℕ}
    (hdecimals : frac.length ≤ decimals) :
    decimalNumber whole frac * 10 ^ decimals =
      digitsNumber (whole ++ frac ++ List.replicate (decimals - frac.length) '0') := by
  obtain ⟨pad, rfl⟩ := Nat.exists_eq_add_of_le hdecimals
  rw [Nat.add_sub_cancel_left, digitsNumber_append, digitsNumber_append,
    digitsNumber_replicate_zero, List.length_replicate, decimalNumber]
  push_cast
  field_simp
  ring

/-- Numbers with the same digits are the same, as far as the digits go. -/
theorem mod_pow_eq_of_digits {base first second : ℕ} (length : ℕ)
    (hdigits : ∀ i < length, first / base ^ i % base = second / base ^ i % base) :
    first % base ^ length = second % base ^ length := by
  induction length with
  | zero => rw [pow_zero, Nat.mod_one, Nat.mod_one]
  | succ length ih =>
      have hlow := ih fun i hi => hdigits i (hi.trans (Nat.lt_succ_self length))
      rw [Nat.mod_pow_succ, Nat.mod_pow_succ, hlow, hdigits length (Nat.lt_succ_self length)]

theorem digitChar_injective :
    ∀ first < 16, ∀ second < 16, Nat.digitChar first = Nat.digitChar second → first = second := by
  decide

/-- The digits of a number below a power of sixteen, the highest first. -/
def hexText (length number : ℕ) : List Char :=
  (List.range length).map fun i => Nat.digitChar (number / 16 ^ (length - 1 - i) % 16)

theorem hexText_injective {length first second : ℕ} (hfirst : first < 16 ^ length)
    (hsecond : second < 16 ^ length) (heq : hexText length first = hexText length second) :
    first = second := by
  have hdigits : ∀ i < length, first / 16 ^ i % 16 = second / 16 ^ i % 16 := by
    intro i hi
    have hplace : length - 1 - i ∈ List.range length := List.mem_range.mpr (by omega)
    have hchar := List.map_inj_left.mp heq _ hplace
    have hback : length - 1 - (length - 1 - i) = i := by omega
    rw [hback] at hchar
    exact digitChar_injective _ (Nat.mod_lt _ (by decide)) _ (Nat.mod_lt _ (by decide)) hchar
  have hmod := mod_pow_eq_of_digits length hdigits
  rwa [Nat.mod_eq_of_lt hfirst, Nat.mod_eq_of_lt hsecond] at hmod

/-- The value of a lower-case hexadecimal digit. -/
def hexDigitValue (c : Char) : ℕ := if c.isDigit then c.toNat - 48 else c.toNat - 87

theorem hexDigitValue_digitChar : ∀ digit < 16, hexDigitValue (Nat.digitChar digit) = digit := by
  decide

/-- The number that hexadecimal digits denote. -/
def hexNumber (digits : List Char) : ℕ :=
  digits.foldl (fun number c => 16 * number + hexDigitValue c) 0

theorem hexNumber_concat (digits : List Char) (c : Char) :
    hexNumber (digits ++ [c]) = 16 * hexNumber digits + hexDigitValue c := by
  rw [hexNumber, List.foldl_append]
  rfl

/-- Leading zeros do not count. -/
theorem hexNumber_leftpad (width : ℕ) (digits : List Char) :
    hexNumber (List.leftpad width '0' digits) = hexNumber digits := by
  have hzeros : ∀ pad, hexNumber (List.replicate pad '0') = 0 := by
    intro pad
    induction pad with
    | zero => rfl
    | succ pad ih =>
        rw [List.replicate_succ', hexNumber_concat, ih]
        rfl
  rw [List.leftpad, hexNumber, List.foldl_append]
  exact congrArg (fun start => digits.foldl _ start) (hzeros _)

/-- The digits of a number denote it. -/
theorem hexNumber_toDigits (number : ℕ) : hexNumber (Nat.toDigits 16 number) = number := by
  induction number using Nat.strong_induction_on with
  | _ number ih =>
      by_cases hsmall : number < 16
      · rw [Nat.toDigits_of_lt_base hsmall]
        exact (Nat.zero_add _).trans (hexDigitValue_digitChar number hsmall)
      · have hdigit : number % 16 < 16 := Nat.mod_lt _ (by decide)
        rw [Nat.toDigits_of_base_le (by decide) (not_lt.mp hsmall), hexNumber_concat,
          ih _ (by omega), hexDigitValue_digitChar _ hdigit]
        omega

theorem mem_toDigits_sixteen {number : ℕ} {c : Char} (hc : c ∈ Nat.toDigits 16 number) :
    ∃ digit < 16, c = Nat.digitChar digit := by
  induction number using Nat.strong_induction_on with
  | _ number ih =>
      by_cases hsmall : number < 16
      · rw [Nat.toDigits_of_lt_base hsmall, List.mem_singleton] at hc
        exact ⟨number, hsmall, hc⟩
      · rw [Nat.toDigits_of_base_le (by decide) (not_lt.mp hsmall), List.mem_append,
          List.mem_singleton] at hc
        rcases hc with hc | hc
        · exact ih _ (by omega) hc
        · exact ⟨number % 16, Nat.mod_lt _ (by decide), hc⟩

end KiteX402
