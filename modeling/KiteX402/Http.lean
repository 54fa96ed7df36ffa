/-
HTTP messages: header fields in their order, names in lower case, with values
of bytes.
-/
import KiteX402.Text

namespace KiteX402

structure HeaderValue where
  bytes : List UInt8
deriving DecidableEq

namespace HeaderValue

/-- `HeaderValue::from_str`: no control bytes but the tab. -/
def fromStr (text : String) : Option HeaderValue :=
  if (utf8 text).all fun byte => (32 ≤ byte && byte ≠ 127) || byte = 9 then
    some ⟨utf8 text⟩
  else none

/-- `HeaderValue::from_bytes`. -/
def fromBytes (bytes : List UInt8) : Option HeaderValue :=
  if bytes.all fun byte => (32 ≤ byte && byte ≠ 127) || byte = 9 then some ⟨bytes⟩ else none

/-- `HeaderValue::to_str`: only visible ASCII and the tab can be read. -/
def toStr (value : HeaderValue) : Option String :=
  if value.bytes.all fun byte => (32 ≤ byte && byte < 127) || byte = 9 then
    some (String.ofList (value.bytes.map fun byte => Char.ofNat byte.toNat))
  else none

def fromStatic (text : String) : HeaderValue := ⟨utf8 text⟩

/-- A text of visible ASCII and tabs. -/
def IsText (text : String) : Prop :=
  ∀ c ∈ text.toList, (32 ≤ c.toNat ∧ c.toNat < 127) ∨ c.toNat = 9

instance (text : String) : Decidable (IsText text) :=
  List.decidableBAll (fun c : Char => (32 ≤ c.toNat ∧ c.toNat < 127) ∨ c.toNat = 9) text.toList

/-- A text of visible ASCII is a header value that reads back. -/
theorem toStr_fromStr {text : String} (htext : IsText text) :
    fromStr text = some ⟨utf8 text⟩ ∧ toStr ⟨utf8 text⟩ = some text := by
  have hascii : ∀ c ∈ text.toList, c.toNat < 128 := by
    intro c hc
    have hrange := htext c hc
    omega
  have hbytes : utf8 text = text.toList.map fun c => UInt8.ofNat c.toNat := utf8_of_ascii hascii
  have hbyte : ∀ c ∈ text.toList, (UInt8.ofNat c.toNat).toNat = c.toNat :=
    fun c hc => UInt8.toNat_ofNat_of_lt' ((hascii c hc).trans (by decide))
  have hvisible : ∀ byte ∈ utf8 text, (32 ≤ byte ∧ byte < 127) ∨ byte = 9 := by
    rw [hbytes, List.forall_mem_map]
    intro c hc
    rw [UInt8.le_iff_toNat_le, UInt8.lt_iff_toNat_lt, ← UInt8.toNat_inj, hbyte c hc]
    exact htext c hc
  constructor
  · rw [fromStr, if_pos]
    rw [List.all_eq_true]
    intro byte hmem
    rcases hvisible byte hmem with ⟨hlow, hhigh⟩ | rfl
    · simp [hlow, UInt8.ne_of_lt hhigh]
    · rfl
  · have hchars : (utf8 text).map (fun byte => Char.ofNat byte.toNat) = text.toList := by
      rw [hbytes, List.map_map]
      refine (List.map_congr_left fun c hc => ?_).trans (List.map_id _)
      rw [Function.comp_apply, hbyte c hc, Char.ofNat_toNat, id]
    rw [toStr, if_pos, hchars, String.ofList_toList]
    rw [List.all_eq_true]
    intro byte hmem
    rcases hvisible byte hmem with ⟨hlow, hhigh⟩ | rfl
    · simp [hlow, hhigh]
    · rfl

theorem toNat_charOfByte (byte : UInt8) : (Char.ofNat byte.toNat).toNat = byte.toNat := by
  have hvalid : byte.toNat.isValidChar := Or.inl (byte.toNat_lt.trans (by decide))
  rw [Char.ofNat, dif_pos hvalid]
  exact UInt32.toNat_ofNatLT

theorem isText_of_toStr {value : HeaderValue} {text : String} (htext : value.toStr = some text) :
    IsText text := by
  unfold toStr at htext
  split at htext
  next hvisible =>
    rw [← Option.some.inj htext]
    intro c hc
    rw [String.toList_ofList, List.mem_map] at hc
    obtain ⟨byte, hbyte, rfl⟩ := hc
    have hrange := List.all_eq_true.mp hvisible byte hbyte
    simp only [Bool.or_eq_true, Bool.and_eq_true, decide_eq_true_eq, UInt8.le_iff_toNat_le,
      UInt8.lt_iff_toNat_lt, ← UInt8.toNat_inj] at hrange
    rw [toNat_charOfByte]
    exact hrange
  next => contradiction

/-- A value that can be read is the value of its text. -/
theorem fromStr_of_toStr {value : HeaderValue} {text : String}
    (htext : value.toStr = some text) : fromStr text = some value := by
  have hbytes : utf8 text = value.bytes := by
    rw [utf8_of_ascii fun c hc => by have := isText_of_toStr htext c hc; omega]
    unfold toStr at htext
    split at htext
    next hvisible =>
      rw [← Option.some.inj htext, String.toList_ofList, List.map_map]
      refine (List.map_congr_left fun byte _ => ?_).trans (List.map_id _)
      rw [Function.comp_apply, toNat_charOfByte, UInt8.ofNat_toNat, id]
    next => contradiction
  rw [(toStr_fromStr (isText_of_toStr htext)).1, hbytes]

end HeaderValue

/-- `HeaderName::from_bytes`: a token, in lower case. -/
def headerName (text : String) : Option String :=
  if text ≠ "" ∧ text.length < 2 ^ 16 ∧
      text.toList.all fun c => c.isAlphanum || "!#$%&'*+-.^_`|~".toList.contains c then
    some (toAsciiLowercase text)
  else none

/-- A name may stand in several fields. -/
abbrev HeaderMap := List (String × HeaderValue)

namespace HeaderMap

/-- The first value of a name. -/
def get (headers : HeaderMap) (name : String) : Option HeaderValue :=
  List.lookup name headers

/-- The value takes the place of the first field of its name, and all other
fields of the name go. -/
def insert (name : String) (value : HeaderValue) : HeaderMap → HeaderMap
  | [] => [(name, value)]
  | (other, held) :: rest =>
      if other = name then (name, value) :: rest.filter (·.1 ≠ name)
      else (other, held) :: insert name value rest

theorem get_insert_self (headers : HeaderMap) (name : String)
    (value : HeaderValue) : (headers.insert name value).get name = some value := by
  induction headers with
  | nil => simp [insert, get]
  | cons field rest ih =>
      obtain ⟨other, held⟩ := field
      by_cases hother : other = name
      · simp [insert, get, hother]
      · have hne : (name == other) = false := by simpa using Ne.symm hother
        rw [insert, if_neg hother, get, List.lookup_cons, hne]
        exact ih

theorem lookup_filter_of_ne (headers : HeaderMap) {name other : String}
    (hne : other ≠ name) :
    List.lookup other (headers.filter (·.1 ≠ name)) = List.lookup other headers := by
  induction headers with
  | nil => rfl
  | cons field rest ih =>
      obtain ⟨key, held⟩ := field
      by_cases hkey : key = name
      · have hbeq : (other == key) = false := by simp [hkey, hne]
        rw [List.filter_cons_of_neg (by simp [hkey]), List.lookup_cons, hbeq, ih]
      · rw [List.filter_cons_of_pos (by simp [hkey]), List.lookup_cons,
          List.lookup_cons, ih]

theorem get_insert_of_ne (headers : HeaderMap) {name other : String}
    (hne : other ≠ name) (value : HeaderValue) :
    (headers.insert name value).get other = headers.get other := by
  have hbeq : (other == name) = false := by simpa using hne
  induction headers with
  | nil => simp [insert, get, hne]
  | cons field rest ih =>
      obtain ⟨key, held⟩ := field
      by_cases hkey : key = name
      · have hrest := lookup_filter_of_ne rest hne
        rw [insert, if_pos hkey, get, get, List.lookup_cons, List.lookup_cons,
          hrest, hkey, hbeq]
      · rw [get, get] at ih
        rw [insert, if_neg hkey, get, get, List.lookup_cons, List.lookup_cons, ih]

/-- `get_all`: every value of a name, in order. -/
def getAll (headers : HeaderMap) (name : String) : List HeaderValue :=
  (headers.filter (·.1 = name)).map Prod.snd

def containsKey (headers : HeaderMap) (name : String) : Bool :=
  headers.any (·.1 = name)

def append (headers : HeaderMap) (name : String) (value : HeaderValue) : HeaderMap :=
  headers ++ [(name, value)]

/-- What the types of names and values guarantee. -/
def Valid (headers : HeaderMap) : Prop :=
  ∀ field ∈ headers, headerName field.1 = some field.1 ∧
    HeaderValue.fromBytes field.2.bytes = some field.2

theorem getAll_filter (keep : String → Bool) (headers : HeaderMap) (name : String) :
    getAll (headers.filter fun field => keep field.1) name =
      if keep name then headers.getAll name else [] := by
  induction headers with
  | nil => simp [getAll]
  | cons field rest ih =>
      rw [getAll] at ih
      by_cases hkey : field.1 = name
      · cases hkeep : keep name with
        | false =>
            rw [hkeep] at ih
            simpa [getAll, hkey, hkeep] using ih
        | true =>
            rw [hkeep] at ih
            simpa [getAll, hkey, hkeep] using ih
      · cases hkeep : keep field.1 with
        | false => simpa [getAll, hkey, hkeep] using ih
        | true => simpa [getAll, hkey, hkeep] using ih

theorem get_eq_head?_getAll (headers : HeaderMap) (name : String) :
    headers.get name = (headers.getAll name).head? := by
  induction headers with
  | nil => rfl
  | cons field rest ih =>
      obtain ⟨key, held⟩ := field
      by_cases hkey : key = name
      · simp [get, getAll, hkey]
      · have hbeq : (name == key) = false := by simpa using Ne.symm hkey
        rw [get, List.lookup_cons, hbeq]
        rw [get] at ih
        simpa [getAll, hkey] using ih

theorem containsKey_iff (headers : HeaderMap) (name : String) :
    headers.containsKey name = true ↔ headers.getAll name ≠ [] := by
  simp [containsKey, getAll, List.filter_eq_nil_iff]

/-- The fields of other names stand as before an insertion. -/
theorem filter_insert {name : String} (keep : String → Bool) (hkeep : keep name = false)
    (headers : HeaderMap) (value : HeaderValue) :
    (headers.insert name value).filter (fun field => keep field.1) =
      headers.filter (fun field => keep field.1) := by
  induction headers with
  | nil => simp [insert, hkeep]
  | cons field rest ih =>
      obtain ⟨key, held⟩ := field
      by_cases hkey : key = name
      · have hothers : ∀ field ∈ rest, keep field.1 = true → decide (field.1 ≠ name) = true := by
          intro field _ hfield
          have hne : field.1 ≠ name := by
            intro heq
            rw [heq, hkeep] at hfield
            contradiction
          exact decide_eq_true hne
        rw [insert, if_pos hkey, List.filter_cons_of_neg (by simp [hkeep]),
          List.filter_cons_of_neg (by simp [hkey, hkeep]), List.filter_filter]
        refine List.filter_congr fun field hfield => ?_
        cases hkept : keep field.1 with
        | false => rfl
        | true => rw [hothers field hfield hkept]; rfl
      · rw [insert, if_neg hkey, List.filter_cons, List.filter_cons, ih]

theorem getAll_insert_self (headers : HeaderMap) (name : String) (value : HeaderValue) :
    (headers.insert name value).getAll name = [value] := by
  induction headers with
  | nil => simp [insert, getAll]
  | cons field rest ih =>
      obtain ⟨key, held⟩ := field
      by_cases hkey : key = name
      · simp [insert, getAll, hkey]
      · rw [insert, if_neg hkey, getAll, List.filter_cons_of_neg (by simp [hkey])]
        exact ih

theorem getAll_insert_of_ne {name other : String} (hne : other ≠ name) (headers : HeaderMap)
    (value : HeaderValue) : (headers.insert name value).getAll other = headers.getAll other := by
  have hfilter := filter_insert (fun key => decide (key = other))
    (decide_eq_false (Ne.symm hne)) headers value
  exact congrArg (List.map Prod.snd) hfilter

theorem getAll_append (headers : HeaderMap) (name other : String) (value : HeaderValue) :
    (headers.append name value).getAll other =
      headers.getAll other ++ if name = other then [value] else [] := by
  by_cases hname : name = other <;> simp [append, getAll, hname]

/-- A text takes the place of all fields of its name, where it can be a value. -/
def insertStr (headers : HeaderMap) (name text : String) : HeaderMap :=
  match HeaderValue.fromStr text with
  | some value => headers.insert name value
  | none => headers

theorem getAll_insertStr_self (headers : HeaderMap) (name text : String) :
    (headers.insertStr name text).getAll name =
      match HeaderValue.fromStr text with
      | some value => [value]
      | none => headers.getAll name := by
  unfold insertStr
  split
  · rw [getAll_insert_self]
  · rfl

theorem getAll_insertStr_of_ne {name other : String} (hne : other ≠ name) (headers : HeaderMap)
    (text : String) : (headers.insertStr name text).getAll other = headers.getAll other := by
  unfold insertStr
  split
  · rw [getAll_insert_of_ne hne]
  · rfl

end HeaderMap

structure Response where
  status : ℕ
  headers : HeaderMap
  body : List UInt8
deriving DecidableEq

/-- What the gate reads of a request.  `originalUri` is the URI before a
nesting router stripped its prefix. -/
structure Request where
  uri : String
  originalUri : Option String
  headers : HeaderMap
deriving DecidableEq

end KiteX402
