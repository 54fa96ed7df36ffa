/-
Text as the standard library treats it: white space, trimming and decimal
numerals.
-/
import Mathlib.Data.List.DropRight
import Mathlib.Data.String.Basic

namespace KiteX402

/-- `char::is_whitespace`, the `White_Space` property of Unicode. -/
def isWhitespace (c : Char) : Bool :=
  c = ' ' || ('\t' ≤ c && c ≤ '\r') || (0x2000 ≤ c.toNat && c.toNat ≤ 0x200a) ||
    c.toNat ∈ [0x85, 0xa0, 0x1680, 0x2028, 0x2029, 0x202f, 0x205f, 0x3000]

/-- `str::trim`. -/
def trim (text : List Char) : List Char :=
  (text.dropWhile isWhitespace).rdropWhile isWhitespace

/-- Trimming takes the white space around a text away, and no more. -/
theorem trim_around {before text after : List Char}
    (hbefore : ∀ c ∈ before, isWhitespace c = true)
    (hafter : ∀ c ∈ after, isWhitespace c = true)
    (htext : ∀ c ∈ text, isWhitespace c = false) :
    trim (before ++ text ++ after) = text := by
  have hright : (text ++ after).rdropWhile isWhitespace = text := by
    rw [List.rdropWhile, List.reverse_append, List.dropWhile_append_of_pos
      (fun c hc => hafter c (List.mem_reverse.mp hc))]
    rw [List.reverse_eq_iff, List.dropWhile_eq_self_iff]
    intro hpos
    have hlast := htext _ (List.mem_reverse.mp (List.getElem_mem hpos))
    simp only [hlast, Bool.false_eq_true, not_false_eq_true]
  have hleft : (before ++ (text ++ after)).dropWhile isWhitespace =
      (text ++ after).dropWhile isWhitespace :=
    List.dropWhile_append_of_pos hbefore
  rw [trim, List.append_assoc, hleft]
  cases text with
  | nil => simp [List.dropWhile_eq_nil_iff.mpr hafter]
  | cons c rest =>
      have hhead : isWhitespace c = false := htext c List.mem_cons_self
      rw [List.cons_append, List.dropWhile_cons_of_neg (by simp [hhead])]
      exact hright

theorem trim_sublist (text : List Char) : (trim text).Sublist text :=
  (List.rdropWhile_prefix isWhitespace _).sublist.trans (List.dropWhile_sublist _)

/-- The standard alphabet of base64, with its padding. -/
def isBase64 (c : Char) : Bool := c.isAlphanum || c = '+' || c = '/' || c = '='

theorem visible_of_isBase64 {c : Char} (h : isBase64 c = true) :
    32 < c.toNat ∧ c.toNat < 127 := by
  delta isBase64 Char.isAlphanum Char.isAlpha Char.isUpper Char.isLower Char.isDigit at h
  simp only [ge_iff_le, UInt32.le_iff_toNat_le, Bool.or_eq_true, Bool.and_eq_true,
    decide_eq_true_eq] at h
  have hrange : ∀ low high : ℕ, 32 < low → high < 127 →
      low ≤ c.toNat ∧ c.toNat ≤ high → 32 < c.toNat ∧ c.toNat < 127 :=
    fun _ _ hlow hhigh hc => ⟨hlow.trans_le hc.1, hc.2.trans_lt hhigh⟩
  rcases h with ((((hupper | hlower) | hdigit) | rfl) | rfl) | rfl
  · exact hrange 65 90 (by decide) (by decide) hupper
  · exact hrange 97 122 (by decide) (by decide) hlower
  · exact hrange 48 57 (by decide) (by decide) hdigit
  all_goals decide

theorem isWhitespace_of_isBase64 {c : Char} (h : isBase64 c = true) :
    isWhitespace c = false := by
  obtain ⟨hlow, hhigh⟩ := visible_of_isBase64 h
  have hspace : c ≠ ' ' := by
    rintro rfl
    contradiction
  have hcontrol : ¬c ≤ '\r' := by
    rw [Char.le_def, UInt32.le_iff_toNat_le]
    exact not_le.mpr (lt_trans (by decide) hlow)
  have hwide : ¬0x2000 ≤ c.toNat := by omega
  simp [isWhitespace, hspace, hcontrol, hwide]
  omega

/-- The bytes of a text. -/
def utf8 (text : String) : List UInt8 := text.toUTF8.data.toList

theorem utf8_injective : Function.Injective utf8 := by
  intro first second h
  apply String.toByteArray_inj.mp
  apply ByteArray.ext
  exact Array.toList_inj.mp h

theorem utf8_eq_flatMap (text : String) :
    utf8 text = text.toList.flatMap String.utf8EncodeChar := by
  rw [utf8, String.toUTF8_eq_toByteArray, ← String.utf8Encode_toList,
    List.utf8Encode, List.data_toByteArray]

/-- A character takes at least one byte. -/
theorem length_le_length_utf8 (text : String) :
    text.toList.length ≤ (utf8 text).length := by
  rw [utf8_eq_flatMap]
  induction text.toList with
  | nil => exact Nat.le_refl 0
  | cons c rest ih =>
      have hpos : 0 < (String.utf8EncodeChar c).length :=
        List.length_pos_iff.mpr String.utf8EncodeChar_ne_nil
      rw [List.flatMap_cons, List.length_append, List.length_cons]
      omega

/-- ASCII is one byte a character. -/
theorem utf8_of_ascii {text : String} (htext : ∀ c ∈ text.toList, c.toNat < 128) :
    utf8 text = text.toList.map fun c => UInt8.ofNat c.toNat := by
  rw [utf8_eq_flatMap]
  generalize text.toList = chars at htext
  induction chars with
  | nil => rfl
  | cons c rest ih =>
      obtain ⟨hc, hrest⟩ := List.forall_mem_cons.mp htext
      have hsingle : String.utf8EncodeChar c = [UInt8.ofNat c.toNat] :=
        if_pos (Nat.le_of_lt_succ hc)
      rw [List.flatMap_cons, hsingle, ih hrest, List.map_cons, List.singleton_append]

/-- `str::to_ascii_lowercase`. -/
def toAsciiLowercase (text : String) : String := text.map Char.toLower

theorem toAsciiLowercase_eq (text : String) :
    toAsciiLowercase text = String.ofList (text.toList.map Char.toLower) := by
  rw [← String.toList_inj, toAsciiLowercase, String.toList_map, String.toList_ofList]

/-- The elements of a comma-separated list; empty ones do not count. -/
def listElements (text : String) : List String :=
  ((text.toList.splitOn ',').map fun element => String.ofList (trim element)).filter (· ≠ "")

theorem listElements_append (first second : String) :
    listElements (first ++ "," ++ second) = listElements first ++ listElements second := by
  have hchars : (first ++ "," ++ second).toList = first.toList ++ ',' :: second.toList := by
    rw [String.toList_append, String.toList_append, List.append_assoc]
    rfl
  rw [listElements, hchars, List.splitOn_append_cons_self, List.map_append, List.filter_append]
  rfl

/-- The number that decimal digits denote. -/
def decimalValue (digits : List Char) : ℕ :=
  digits.foldl (fun value digit => value * 10 + (digit.toNat - '0'.toNat)) 0

/-- `str::parse::<u64>`: digits, after at most one plus sign. -/
def parseU64 (text : List Char) : Option UInt64 :=
  let digits := match text with
    | '+' :: rest => rest
    | _ => text
  if digits ≠ [] ∧ digits.all Char.isDigit ∧ decimalValue digits < 2 ^ 64 then
    some (UInt64.ofNat (decimalValue digits))
  else none

end KiteX402
