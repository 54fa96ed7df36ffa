/-
Derived serialisers and deserialisers for records: what they write, what they
read back, and that they agree.
-/
import KiteX402.Json
import Mathlib.Data.List.Basic

namespace KiteX402

/-- The members of the fields that are present. -/
def presentMembers : List (String × Option Json) → List (String × Json)
  | [] => []
  | (name, some doc) :: rest => (name, doc) :: presentMembers rest
  | (_, none) :: rest => presentMembers rest

/-- A derived `Serialize`: the fields in order, absent ones skipped. -/
def encodeStruct (fields : List (String × Option Json)) : Json :=
  .object (presentMembers fields)

/-- The raw documents a derived `Deserialize` collects for the named fields:
from an object by key, where a field must not occur twice and unknown members
are ignored, or from an array by position, where the last ones may be absent. -/
def structFields (names : List String) : Json → Option (List (Option Json))
  | .object members =>
      if ((members.map Prod.fst).filter (· ∈ names)).Nodup then
        some (names.map fun name => members.lookup name)
      else none
  | .array items =>
      if items.length ≤ names.length then
        some (items.map some ++ List.replicate (names.length - items.length) none)
      else none
  | _ => none

section Fields

variable {α : Type} (decode : Json → Option α)

def required (field : Option Json) : Option α := field.bind decode

/-- A field with a default, of type `Option`: `null` reads as absent. -/
def optional : Option Json → Option (Option α)
  | none => some none
  | some .null => some none
  | some doc => (decode doc).map some

def decodeList : Json → Option (List α)
  | .array items => items.mapM decode
  | _ => none

end Fields

def decodeString : Json → Option String
  | .string text => some text
  | _ => none

def encodeU64 (number : UInt64) : Json := .number (.posInt number)

def decodeU64 : Json → Option UInt64
  | .number (.posInt number) => some number
  | _ => none

def encodeU32 (number : UInt32) : Json := .number (.posInt number.toUInt64)

def decodeU32 : Json → Option UInt32
  | .number (.posInt number) =>
      if number.toNat < 2 ^ 32 then some number.toUInt32 else none
  | _ => none

def decodeValue (doc : Json) : Option Value := some (Value.ofJson doc)

def Value.null : Value := ⟨.null, rfl⟩

@[simp] theorem decodeString_string (text : String) :
    decodeString (.string text) = some text := rfl

@[simp] theorem decodeU64_encodeU64 (number : UInt64) :
    decodeU64 (encodeU64 number) = some number := rfl

@[simp] theorem decodeU32_encodeU32 (number : UInt32) :
    decodeU32 (encodeU32 number) = some number := by
  have hrange : number.toUInt64.toNat < 2 ^ 32 := by
    rw [UInt32.toNat_toUInt64]
    exact number.toNat_lt
  rw [encodeU32, decodeU32, if_pos hrange, UInt32.toUInt32_toUInt64]

@[simp] theorem decodeValue_json (value : Value) :
    decodeValue value.json = some value := by
  rw [decodeValue, Value.ofJson_json]

@[simp] theorem required_some {α : Type} (decode : Json → Option α) (doc : Json) :
    required decode (some doc) = decode doc := rfl

theorem optional_string (text : Option String) :
    optional decodeString (text.map .string) = some text := by
  cases text <;> rfl

theorem optional_of_ne_null {α : Type} (decode : Json → Option α) {doc : Json}
    (hdoc : doc ≠ .null) :
    optional decode (some doc) = (decode doc).map some := by
  cases doc with
  | null => exact absurd rfl hdoc
  | _ => rfl

/-- An optional field comes back when its encoding is never `null`. -/
theorem optional_map {α : Type} {encode : α → Json} {decode : Json → Option α}
    (hnull : ∀ value, encode value ≠ .null)
    (hdecode : ∀ value, decode (encode value) = some value) (value : Option α) :
    optional decode (value.map encode) = some value := by
  cases value with
  | none => rfl
  | some value =>
      rw [Option.map_some, optional_of_ne_null _ (hnull value), hdecode value]
      rfl

theorem decodeList_map {α : Type} {encode : α → Json} {decode : Json → Option α}
    {values : List α}
    (hdecode : ∀ value ∈ values, decode (encode value) = some value) :
    decodeList decode (.array (values.map encode)) = some values := by
  induction values with
  | nil => rfl
  | cons value rest ih =>
      have hvalue := hdecode value List.mem_cons_self
      have hrest := ih fun other hother =>
        hdecode other (List.mem_cons_of_mem _ hother)
      rw [decodeList] at hrest ⊢
      rw [List.map_cons, List.mapM_cons, hvalue, hrest]
      rfl

/-- An optional value comes back unless it is `null`. -/
theorem optional_value {value : Option Value} (hvalue : value ≠ some Value.null) :
    optional decodeValue (value.map Value.json) = some value := by
  cases value with
  | none => rfl
  | some value =>
      have hdoc : value.json ≠ .null := by
        intro hnull
        apply hvalue
        rw [← Value.ofJson_json value, hnull]
        rfl
      rw [Option.map_some, optional_of_ne_null _ hdoc, decodeValue_json]
      rfl

theorem normalize_eq_null {doc : Json} (h : doc.normalize = .null) : doc = .null := by
  cases doc <;> first
    | rfl
    | simp [Json.normalize] at h

/-- Nor does reading an optional value ever give `null`. -/
theorem optional_value_ne_null {field : Option Json} {value : Option Value}
    (h : optional decodeValue field = some value) : value ≠ some Value.null := by
  rintro rfl
  cases field with
  | none => simp [optional] at h
  | some doc =>
      by_cases hdoc : doc = .null
      · subst hdoc
        simp [optional] at h
      · rw [optional_of_ne_null _ hdoc, decodeValue, Option.map_some,
          Option.some_inj, Option.some_inj] at h
        exact hdoc (normalize_eq_null (congrArg Value.json h))

theorem keys_presentMembers_sublist (fields : List (String × Option Json)) :
    ((presentMembers fields).map Prod.fst).Sublist (fields.map Prod.fst) := by
  induction fields with
  | nil => exact List.Sublist.slnil
  | cons field rest ih =>
      obtain ⟨name, doc⟩ := field
      cases doc with
      | none => exact ih.cons _
      | some doc => exact ih.cons_cons _

theorem lookup_presentMembers {fields : List (String × Option Json)}
    (hnodup : (fields.map Prod.fst).Nodup) :
    ∀ field ∈ fields, (presentMembers fields).lookup field.1 = field.2 := by
  induction fields with
  | nil => simp
  | cons head rest ih =>
      obtain ⟨name, doc⟩ := head
      obtain ⟨hname, hrest⟩ := List.nodup_cons.mp hnodup
      intro field hfield
      rcases List.mem_cons.mp hfield with rfl | hmem
      · cases doc with
        | none =>
            have hgone : name ∉ (presentMembers rest).map Prod.fst :=
              fun h => hname ((keys_presentMembers_sublist rest).subset h)
            rw [presentMembers, List.lookup_eq_none_iff]
            intro member hmember
            have hne : name ≠ member.1 :=
              fun h => hgone (h ▸ List.mem_map_of_mem hmember)
            simpa using hne
        | some doc => simp [presentMembers]
      · have hne : (field.1 == name) = false := by
          rw [beq_eq_false_iff_ne]
          intro heq
          have hfieldName : field.1 ∈ rest.map Prod.fst := List.mem_map_of_mem hmem
          rw [heq] at hfieldName
          exact hname hfieldName
        rw [← ih hrest field hmem]
        cases doc with
        | none => rfl
        | some doc => simp only [presentMembers, List.lookup_cons, hne]

/-- A deserialiser collects from what the serialiser wrote exactly what was
handed to it. -/
theorem structFields_encodeStruct {fields : List (String × Option Json)}
    (hnodup : (fields.map Prod.fst).Nodup) :
    structFields (fields.map Prod.fst) (encodeStruct fields) =
      some (fields.map Prod.snd) := by
  have hmembers : (((presentMembers fields).map Prod.fst).filter
      (· ∈ fields.map Prod.fst)).Nodup :=
    (hnodup.sublist (keys_presentMembers_sublist fields)).filter _
  rw [encodeStruct, structFields, if_pos hmembers, List.map_map, Option.some_inj]
  exact List.map_congr_left (lookup_presentMembers hnodup)

theorem distinctKeys_encodeStruct {fields : List (String × Option Json)}
    (hnodup : (fields.map Prod.fst).Nodup) : (encodeStruct fields).DistinctKeys :=
  hnodup.sublist (keys_presentMembers_sublist fields)

section Normalized

/-- A decoder that reads the value a document spells, however it is spelled. -/
def ReadsValue {α : Type} (decode : Json → Option α) : Prop :=
  ∀ doc, decode doc.normalize = decode doc

theorem decodeString_readsValue : ReadsValue decodeString := by
  intro doc
  cases doc <;> rfl

theorem decodeU64_readsValue : ReadsValue decodeU64 := by
  intro doc
  cases doc <;> rfl

theorem decodeValue_readsValue : ReadsValue decodeValue := by
  intro doc
  simp only [decodeValue, Value.ofJson, Json.normalize_normalize]

variable {α : Type} {decode : Json → Option α}

theorem ReadsValue.required (hdecode : ReadsValue decode) (field : Option Json) :
    required decode (field.map Json.normalize) = required decode field := by
  cases field with
  | none => rfl
  | some doc => exact hdecode doc

theorem ReadsValue.optional (hdecode : ReadsValue decode) (field : Option Json) :
    optional decode (field.map Json.normalize) = optional decode field := by
  cases field with
  | none => rfl
  | some doc =>
      by_cases hnull : doc = .null
      · subst hnull
        rfl
      · have hnormal : doc.normalize ≠ .null := fun h => hnull (normalize_eq_null h)
        rw [Option.map_some, optional_of_ne_null decode hnormal,
          optional_of_ne_null decode hnull, hdecode doc]

theorem structFields_of_distinct (names : List String)
    {members : List (String × Json)} (hdistinct : (members.map Prod.fst).Nodup) :
    structFields names (.object members) =
      some (names.map fun name => members.lookup name) := by
  have hkeys : ((members.map Prod.fst).filter (· ∈ names)).Nodup :=
    List.Pairwise.filter _ hdistinct
  rw [structFields, if_pos hkeys]

/-- The documents collected from a document with distinct keys depend on the
value it spells only. -/
theorem structFields_normalize (names : List String) {doc : Json}
    (hdistinct : doc.DistinctKeys) :
    structFields names doc.normalize =
      (structFields names doc).map (List.map (Option.map Json.normalize)) := by
  cases doc with
  | object members =>
      have hnormal := (normalizeMembers_spec members).1.nodup
      rw [Json.normalize, structFields_of_distinct names hdistinct,
        structFields_of_distinct names hnormal]
      simp only [lookup_normalizeMembers hdistinct, Option.map_some, List.map_map,
        Function.comp_def]
  | array items =>
      simp only [Json.normalize, structFields, normalizeItems_eq_map, List.length_map]
      split <;> simp
  | _ => rfl

end Normalized

end KiteX402
