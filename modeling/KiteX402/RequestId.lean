/-
The ids by which the service tells its requests apart: taken from a client
where they can be logged as they stand, and otherwise made from the time and a
counter.
-/
import KiteX402.Http
import KiteX402.Numeral

namespace KiteX402

/-- Letters, digits and the marks `.`, `_`, `~` and `-`. -/
def isIdByte (byte : UInt8) : Bool :=
  (48 ≤ byte && byte ≤ 57) || (65 ≤ byte && byte ≤ 90) || (97 ≤ byte && byte ≤ 122) ||
    byte = 46 || byte = 95 || byte = 126 || byte = 45

def isValidRequestId (id : String) : Bool :=
  utf8 id ≠ [] && (utf8 id).length ≤ 128 && (utf8 id).all isIdByte

/-- `format!("req-{now:x}-{count:08x}")`. -/
def generateRequestId (now : BitVec 128) (count : UInt64) : String :=
  String.ofList ("req-".toList ++ Nat.toDigits 16 now.toNat ++
    '-' :: List.leftpad 8 '0' (Nat.toDigits 16 count.toNat))

/-- The id of a request, and the counter after it: the counter moves only where
the client sent no valid id. -/
def resolveRequestId (headers : HeaderMap) (now : BitVec 128) (counter : UInt64) :
    String × UInt64 :=
  match ((headers.get "x-request-id").bind HeaderValue.toStr).filter isValidRequestId with
  | some id => (id, counter)
  | none => (generateRequestId now counter, counter + 1)

/-- The request as the layers below see it. -/
def tagRequest (id : String) (headers : HeaderMap) : HeaderMap :=
  headers.insertStr "x-request-id" id

/-- The reply keeps an id that it has. -/
def tagResponse (id : String) (headers : HeaderMap) : HeaderMap :=
  if headers.containsKey "x-request-id" then headers
  else headers.insertStr "x-request-id" id

section Valid

theorem visible_of_isIdByte {byte : UInt8} (h : isIdByte byte = true) :
    32 ≤ byte ∧ byte < 127 := by
  simp only [isIdByte, Bool.or_eq_true, Bool.and_eq_true, decide_eq_true_eq,
    UInt8.le_iff_toNat_le, ← UInt8.toNat_inj] at h
  rw [UInt8.le_iff_toNat_le, UInt8.lt_iff_toNat_lt]
  have hconst : (48 : UInt8).toNat = 48 ∧ (57 : UInt8).toNat = 57 ∧ (65 : UInt8).toNat = 65 ∧
      (90 : UInt8).toNat = 90 ∧ (97 : UInt8).toNat = 97 ∧ (122 : UInt8).toNat = 122 ∧
      (46 : UInt8).toNat = 46 ∧ (95 : UInt8).toNat = 95 ∧ (126 : UInt8).toNat = 126 ∧
      (45 : UInt8).toNat = 45 ∧ (32 : UInt8).toNat = 32 ∧ (127 : UInt8).toNat = 127 := by
    decide
  omega

/-- A valid id is a header value as it stands. -/
theorem fromStr_of_isValidRequestId {id : String} (hvalid : isValidRequestId id = true) :
    HeaderValue.fromStr id = some ⟨utf8 id⟩ := by
  rw [isValidRequestId, Bool.and_eq_true, List.all_eq_true] at hvalid
  rw [HeaderValue.fromStr, if_pos]
  rw [List.all_eq_true]
  intro byte hbyte
  obtain ⟨hlow, hhigh⟩ := visible_of_isIdByte (hvalid.2 byte hbyte)
  simp [hlow, UInt8.ne_of_lt hhigh]

theorem toList_generateRequestId (now : BitVec 128) (count : UInt64) :
    (generateRequestId now count).toList = "req-".toList ++ (Nat.toDigits 16 now.toNat ++
      '-' :: List.leftpad 8 '0' (Nat.toDigits 16 count.toNat)) := by
  delta generateRequestId
  rw [String.toList_ofList, List.append_assoc]

/-- The characters of generated ids. -/
def IdChar (c : Char) : Prop := c = '-' ∨ c = 'r' ∨ c = 'q' ∨ ∃ digit < 16, c = Nat.digitChar digit

theorem idChar_ascii {c : Char} (hc : IdChar c) :
    c.toNat < 128 ∧ isIdByte (UInt8.ofNat c.toNat) = true := by
  have hdigits : ∀ digit < 16, (Nat.digitChar digit).toNat < 128 ∧
      isIdByte (UInt8.ofNat (Nat.digitChar digit).toNat) = true := by decide
  rcases hc with rfl | rfl | rfl | ⟨digit, hdigit, rfl⟩
  · decide
  · decide
  · decide
  · exact hdigits digit hdigit

theorem idChar_of_mem_generated {now : BitVec 128} {count : UInt64} {c : Char}
    (hc : c ∈ (generateRequestId now count).toList) : IdChar c := by
  rw [toList_generateRequestId, List.mem_append, List.mem_append, List.mem_cons,
    List.leftpad, List.mem_append] at hc
  rcases hc with hreq | hnow | rfl | hpad | hcount
  · have hletters : c = 'r' ∨ c = 'e' ∨ c = 'q' ∨ c = '-' := by simpa using hreq
    rcases hletters with rfl | rfl | rfl | rfl
    · exact Or.inr (Or.inl rfl)
    · exact Or.inr (Or.inr (Or.inr ⟨14, by decide, rfl⟩))
    · exact Or.inr (Or.inr (Or.inl rfl))
    · exact Or.inl rfl
  · exact Or.inr (Or.inr (Or.inr (mem_toDigits_sixteen hnow)))
  · exact Or.inl rfl
  · rw [List.eq_of_mem_replicate hpad]
    exact Or.inr (Or.inr (Or.inr ⟨0, by decide, rfl⟩))
  · exact Or.inr (Or.inr (Or.inr (mem_toDigits_sixteen hcount)))

theorem length_toDigits_sixteen_le {number bound : ℕ} (hbound : 0 < bound)
    (hnumber : number < 16 ^ bound) : (Nat.toDigits 16 number).length ≤ bound :=
  (Nat.length_toDigits_le_iff (by decide) hbound).mpr hnumber

/-- At most 53 characters. -/
theorem length_generateRequestId_le (now : BitVec 128) (count : UInt64) :
    (generateRequestId now count).toList.length ≤ 53 := by
  have hnow : (Nat.toDigits 16 now.toNat).length ≤ 32 :=
    length_toDigits_sixteen_le (by decide) (now.isLt.trans_eq (by decide))
  have hcount : (Nat.toDigits 16 count.toNat).length ≤ 16 :=
    length_toDigits_sixteen_le (by decide) (count.toNat_lt.trans_eq (by decide))
  have hreq : "req-".toList.length = 4 := by decide
  rw [toList_generateRequestId, List.length_append, List.length_append, List.length_cons,
    List.leftpad, List.length_append, List.length_replicate, hreq]
  omega

/-- What the service makes up it would take from a client: services in a row
agree on an id. -/
theorem isValidRequestId_generated (now : BitVec 128) (count : UInt64) :
    isValidRequestId (generateRequestId now count) = true := by
  have hchars : ∀ c ∈ (generateRequestId now count).toList, c.toNat < 128 :=
    fun c hc => (idChar_ascii (idChar_of_mem_generated hc)).1
  have hlength := length_generateRequestId_le now count
  rw [isValidRequestId, utf8_of_ascii hchars, List.length_map]
  simp only [Bool.and_eq_true, decide_eq_true_eq, List.all_map, List.all_eq_true]
  refine ⟨⟨?_, by omega⟩, fun c hc => (idChar_ascii (idChar_of_mem_generated hc)).2⟩
  rw [ne_eq, List.map_eq_nil_iff, toList_generateRequestId]
  simp

theorem isValidRequestId_resolve (headers : HeaderMap) (now : BitVec 128) (counter : UInt64) :
    isValidRequestId (resolveRequestId headers now counter).1 = true := by
  unfold resolveRequestId
  split
  next id hid => exact (Option.filter_eq_some_iff.mp hid).2
  next => exact isValidRequestId_generated now counter

end Valid

section Distinct

theorem hyphen_notMem_toDigits (number : ℕ) : '-' ∉ Nat.toDigits 16 number := by
  intro hmem
  obtain ⟨digit, hdigit, hchar⟩ := mem_toDigits_sixteen hmem
  have hnot : ∀ digit < 16, '-' ≠ Nat.digitChar digit := by decide
  exact hnot digit hdigit hchar

theorem hyphen_notMem_leftpad (width number : ℕ) :
    '-' ∉ List.leftpad width '0' (Nat.toDigits 16 number) := by
  rw [List.leftpad, List.mem_append, not_or]
  refine ⟨fun hmem => ?_, hyphen_notMem_toDigits number⟩
  exact absurd (List.eq_of_mem_replicate hmem) (by decide)

/-- An id shows the time and the count it was made of. -/
theorem generateRequestId_inj {now now' : BitVec 128} {count count' : UInt64} :
    generateRequestId now count = generateRequestId now' count' ↔
      now = now' ∧ count = count' := by
  constructor
  · intro heq
    rw [← String.toList_inj, toList_generateRequestId, toList_generateRequestId,
      List.append_right_inj, List.append_cons_inj_of_notMem (hyphen_notMem_toDigits _)
        (hyphen_notMem_leftpad _ _)] at heq
    obtain ⟨hnow, -, hcount⟩ := heq
    have hnumber := congrArg hexNumber hnow
    have hcounter := congrArg hexNumber hcount
    rw [hexNumber_toDigits, hexNumber_toDigits] at hnumber
    rw [hexNumber_leftpad, hexNumber_leftpad, hexNumber_toDigits, hexNumber_toDigits] at hcounter
    exact ⟨BitVec.eq_of_toNat_eq hnumber, UInt64.toNat_inj.mp hcounter⟩
  · rintro ⟨rfl, rfl⟩
    rfl

end Distinct

section Tags

/-- Only the id of a request changes. -/
theorem getAll_tagRequest_of_ne {name : String} (hne : name ≠ "x-request-id") (id : String)
    (headers : HeaderMap) : (tagRequest id headers).getAll name = headers.getAll name :=
  HeaderMap.getAll_insertStr_of_ne hne headers id

theorem get_tagRequest_of_ne {name : String} (hne : name ≠ "x-request-id") (id : String)
    (headers : HeaderMap) : (tagRequest id headers).get name = headers.get name := by
  rw [HeaderMap.get_eq_head?_getAll, HeaderMap.get_eq_head?_getAll,
    getAll_tagRequest_of_ne hne]

theorem getAll_tagResponse_of_ne {name : String} (hne : name ≠ "x-request-id") (id : String)
    (headers : HeaderMap) : (tagResponse id headers).getAll name = headers.getAll name := by
  unfold tagResponse
  split
  · rfl
  · exact HeaderMap.getAll_insertStr_of_ne hne headers id

variable {id : String} (hvalid : isValidRequestId id = true)

include hvalid

theorem tagResponse_eq (headers : HeaderMap) :
    tagResponse id headers =
      if headers.containsKey "x-request-id" then headers
      else headers.insert "x-request-id" ⟨utf8 id⟩ := by
  rw [tagResponse, HeaderMap.insertStr, fromStr_of_isValidRequestId hvalid]

/-- A reply has the id of its request, unless it came with one. -/
theorem getAll_tagResponse_self (headers : HeaderMap) :
    (tagResponse id headers).getAll "x-request-id" =
      if headers.getAll "x-request-id" = [] then [⟨utf8 id⟩]
      else headers.getAll "x-request-id" := by
  rw [tagResponse_eq hvalid]
  by_cases hnone : headers.getAll "x-request-id" = []
  · have habsent : ¬headers.containsKey "x-request-id" = true := by
      rw [HeaderMap.containsKey_iff, not_not]
      exact hnone
    rw [if_neg habsent, if_pos hnone, HeaderMap.getAll_insert_self]
  · rw [if_pos ((HeaderMap.containsKey_iff _ _).mpr hnone), if_neg hnone]

end Tags

end KiteX402
