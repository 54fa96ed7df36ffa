/-
JSON documents, as a text spells them, and JSON values, as the program holds
them: with the members of every object in order of their keys and, of several
members with one key, the last.
-/
import Mathlib.Data.String.Basic

namespace KiteX402

/-- The bits of an `f64` that is neither infinite nor a NaN. -/
def isFiniteFloat (bits : UInt64) : Bool := (bits >>> 52) &&& 0x7ff ≠ 0x7ff

/-- A number is an integer of 64 bits where it is spelled as one that fits,
and otherwise a finite `f64`. -/
inductive JsonNumber where
  | posInt (value : UInt64)
  | negInt (value : Int64) (negative : value < 0)
  | float (bits : UInt64) (finite : isFiniteFloat bits = true)
deriving DecidableEq

/-- A document: members stand as they are written, duplicates included. -/
inductive Json where
  | null
  | bool (value : Bool)
  | number (value : JsonNumber)
  | string (text : String)
  | array (items : List Json)
  | object (members : List (String × Json))

section Equality

mutual

def Json.eqb : Json → Json → Bool
  | .null, .null => true
  | .bool first, .bool second => first = second
  | .number first, .number second => first = second
  | .string first, .string second => first = second
  | .array first, .array second => eqbItems first second
  | .object first, .object second => eqbMembers first second
  | _, _ => false

def eqbItems : List Json → List Json → Bool
  | [], [] => true
  | first :: firsts, second :: seconds =>
      first.eqb second && eqbItems firsts seconds
  | _, _ => false

def eqbMembers : List (String × Json) → List (String × Json) → Bool
  | [], [] => true
  | (key, first) :: firsts, (other, second) :: seconds =>
      key = other && first.eqb second && eqbMembers firsts seconds
  | _, _ => false

end

mutual

theorem Json.eqb_iff : ∀ first second : Json,
    first.eqb second = true ↔ first = second
  | .null, second => by cases second <;> simp [Json.eqb]
  | .bool _, second => by cases second <;> simp [Json.eqb]
  | .number _, second => by cases second <;> simp [Json.eqb]
  | .string _, second => by cases second <;> simp [Json.eqb]
  | .array items, second => by
      cases second <;> simp [Json.eqb, eqbItems_iff items]
  | .object members, second => by
      cases second <;> simp [Json.eqb, eqbMembers_iff members]

theorem eqbItems_iff : ∀ firsts seconds : List Json,
    eqbItems firsts seconds = true ↔ firsts = seconds
  | [], seconds => by cases seconds <;> simp [eqbItems]
  | first :: firsts, seconds => by
      cases seconds with
      | nil => simp [eqbItems]
      | cons second seconds =>
          simp [eqbItems, Json.eqb_iff first, eqbItems_iff firsts]

theorem eqbMembers_iff : ∀ firsts seconds : List (String × Json),
    eqbMembers firsts seconds = true ↔ firsts = seconds
  | [], seconds => by cases seconds <;> simp [eqbMembers]
  | (key, first) :: firsts, seconds => by
      cases seconds with
      | nil => simp [eqbMembers]
      | cons second seconds =>
          obtain ⟨other, second⟩ := second
          simp [eqbMembers, Json.eqb_iff first, eqbMembers_iff firsts, and_assoc]

end

instance : DecidableEq Json := fun first second =>
  decidable_of_iff (first.eqb second = true) (first.eqb_iff second)

end Equality

section Normalize

/-- Add a member in front of the members that follow it in the text: those
already there win. -/
def insertMember (key : String) (value : Json) :
    List (String × Json) → List (String × Json)
  | [] => [(key, value)]
  | (other, held) :: rest =>
      if key < other then (key, value) :: (other, held) :: rest
      else if key = other then (other, held) :: rest
      else (other, held) :: insertMember key value rest

mutual

/-- What is left of a document once it is read into a map. -/
def Json.normalize : Json → Json
  | .null => .null
  | .bool value => .bool value
  | .number value => .number value
  | .string text => .string text
  | .array items => .array (normalizeItems items)
  | .object members => .object (normalizeMembers members)

def normalizeItems : List Json → List Json
  | [] => []
  | item :: rest => item.normalize :: normalizeItems rest

def normalizeMembers : List (String × Json) → List (String × Json)
  | [] => []
  | (key, value) :: rest =>
      insertMember key value.normalize (normalizeMembers rest)

end

/-- Members in strictly increasing order of their keys. -/
def SortedKeys (members : List (String × Json)) : Prop :=
  members.Pairwise fun first second => first.1 < second.1

theorem mem_insertMember {key : String} {value : Json}
    {members : List (String × Json)} {member : String × Json}
    (h : member ∈ insertMember key value members) :
    member = (key, value) ∨ member ∈ members := by
  induction members with
  | nil => exact Or.inl (List.mem_singleton.mp h)
  | cons head rest ih =>
      rw [insertMember] at h
      split at h
      · exact List.mem_cons.mp h
      · split at h
        · exact Or.inr h
        · rcases List.mem_cons.mp h with rfl | h
          · exact Or.inr List.mem_cons_self
          · exact (ih h).imp_right (List.mem_cons_of_mem _)

theorem sortedKeys_insertMember (key : String) (value : Json)
    {members : List (String × Json)} (hsorted : SortedKeys members) :
    SortedKeys (insertMember key value members) := by
  induction members with
  | nil => exact List.pairwise_singleton _ _
  | cons head rest ih =>
      obtain ⟨hhead, hrest⟩ := List.pairwise_cons.mp hsorted
      rw [insertMember]
      split
      next hlt =>
        refine List.pairwise_cons.mpr ⟨fun member hmember => ?_, hsorted⟩
        rcases List.mem_cons.mp hmember with rfl | hmember
        · exact hlt
        · exact lt_trans hlt (hhead member hmember)
      next hlt =>
        split
        next => exact hsorted
        next hne =>
          refine List.pairwise_cons.mpr ⟨fun member hmember => ?_, ih hrest⟩
          rcases mem_insertMember hmember with rfl | hmember
          · exact lt_of_le_of_ne (not_lt.mp hlt) (Ne.symm hne)
          · exact hhead member hmember

theorem insertMember_of_lt {key : String} (value : Json)
    {members : List (String × Json)}
    (hlt : ∀ member ∈ members, key < member.1) :
    insertMember key value members = (key, value) :: members := by
  cases members with
  | nil => rfl
  | cons head rest => rw [insertMember, if_pos (hlt head List.mem_cons_self)]

/-- Sorted members whose values are normal are left as they are. -/
theorem normalizeMembers_of_fixed {members : List (String × Json)}
    (hsorted : SortedKeys members)
    (hfixed : ∀ member ∈ members, member.2.normalize = member.2) :
    normalizeMembers members = members := by
  induction members with
  | nil => rfl
  | cons head rest ih =>
      obtain ⟨hhead, hrest⟩ := List.pairwise_cons.mp hsorted
      have hvalue := hfixed head List.mem_cons_self
      have htail := ih hrest fun member hmember =>
        hfixed member (List.mem_cons_of_mem _ hmember)
      rw [normalizeMembers, htail, hvalue, insertMember_of_lt head.2 hhead]

mutual

theorem Json.normalize_normalize : ∀ doc : Json,
    doc.normalize.normalize = doc.normalize
  | .null => rfl
  | .bool _ => rfl
  | .number _ => rfl
  | .string _ => rfl
  | .array items => by
      rw [Json.normalize, Json.normalize, normalizeItems_normalizeItems items]
  | .object members => by
      obtain ⟨hsorted, hfixed⟩ := normalizeMembers_spec members
      rw [Json.normalize, Json.normalize, normalizeMembers_of_fixed hsorted hfixed]

theorem normalizeItems_normalizeItems : ∀ items : List Json,
    normalizeItems (normalizeItems items) = normalizeItems items
  | [] => rfl
  | item :: rest => by
      rw [normalizeItems, normalizeItems, item.normalize_normalize,
        normalizeItems_normalizeItems rest]

theorem normalizeMembers_spec : ∀ members : List (String × Json),
    SortedKeys (normalizeMembers members) ∧
      ∀ member ∈ normalizeMembers members, member.2.normalize = member.2
  | [] => ⟨List.Pairwise.nil, by simp [normalizeMembers]⟩
  | (key, value) :: rest => by
      obtain ⟨hsorted, hfixed⟩ := normalizeMembers_spec rest
      refine ⟨sortedKeys_insertMember key _ hsorted, fun member hmember => ?_⟩
      rcases mem_insertMember hmember with rfl | hmember
      · exact value.normalize_normalize
      · exact hfixed member hmember

end

theorem normalizeItems_eq_map (items : List Json) :
    normalizeItems items = items.map Json.normalize := by
  induction items with
  | nil => rfl
  | cons item rest ih => rw [normalizeItems, ih, List.map_cons]

theorem lookup_insertMember_self {key : String} {value : Json}
    {members : List (String × Json)} (hnew : members.lookup key = none) :
    (insertMember key value members).lookup key = some value := by
  induction members with
  | nil => simp [insertMember]
  | cons head rest ih =>
      obtain ⟨other, held⟩ := head
      have hne : (key == other) = false := by
        by_contra hbeq
        simp_all
      rw [List.lookup_cons, hne] at hnew
      have hkey : key ≠ other := by simpa using hne
      rw [insertMember, if_neg hkey]
      split
      · simp
      · rw [List.lookup_cons, hne]
        exact ih hnew

theorem lookup_insertMember_of_ne {key other : String} (hne : other ≠ key)
    (value : Json) (members : List (String × Json)) :
    (insertMember key value members).lookup other = members.lookup other := by
  have hbeq : (other == key) = false := by simpa using hne
  induction members with
  | nil => simp [insertMember, hne]
  | cons head rest ih =>
      obtain ⟨name, held⟩ := head
      rw [insertMember]
      split
      · rw [List.lookup_cons, hbeq]
      · split
        · rfl
        · rw [List.lookup_cons, List.lookup_cons, ih]

/-- Among members with distinct keys, reading keeps each value. -/
theorem lookup_normalizeMembers {members : List (String × Json)}
    (hdistinct : (members.map Prod.fst).Nodup) (name : String) :
    (normalizeMembers members).lookup name =
      (members.lookup name).map Json.normalize := by
  induction members with
  | nil => rfl
  | cons head rest ih =>
      obtain ⟨key, value⟩ := head
      obtain ⟨hkey, hrest⟩ : key ∉ rest.map Prod.fst ∧ (rest.map Prod.fst).Nodup :=
        List.nodup_cons.mp hdistinct
      have ih := ih hrest
      rw [normalizeMembers]
      by_cases hname : name = key
      · subst hname
        have habsent : rest.lookup name = none := by
          rw [List.lookup_eq_none_iff]
          intro member hmember
          have hne : name ≠ member.1 := by
            rintro heq
            rw [heq] at hkey
            exact hkey (List.mem_map_of_mem hmember)
          simpa using hne
        rw [habsent] at ih
        simp [lookup_insertMember_self ih]
      · have hbeq : (name == key) = false := by simpa using hname
        rw [lookup_insertMember_of_ne hname, ih, List.lookup_cons, hbeq]

theorem SortedKeys.nodup {members : List (String × Json)}
    (hsorted : SortedKeys members) : (members.map Prod.fst).Nodup :=
  List.pairwise_map.mpr (hsorted.imp ne_of_lt)

end Normalize

/-- No two members of an object have one key; what is inside them may. -/
def Json.DistinctKeys : Json → Prop
  | .object members => (members.map Prod.fst).Nodup
  | _ => True

/-- `copy` spells the value that `doc` spells, perhaps with the members of its
objects in another order. -/
structure Json.IsCopy (doc copy : Json) : Prop where
  same : copy.normalize = doc.normalize
  distinct : copy.DistinctKeys

/-- A value: a document that reading leaves as it is. -/
structure Value where
  json : Json
  normal : json.normalize = json
deriving DecidableEq

namespace Value

theorem json_injective : Function.Injective Value.json := by
  rintro ⟨first, _⟩ ⟨second, _⟩ rfl
  rfl

/-- Reading a document as a value. -/
def ofJson (doc : Json) : Value := ⟨doc.normalize, doc.normalize_normalize⟩

theorem ofJson_json (value : Value) : ofJson value.json = value := by
  obtain ⟨json, normal⟩ := value
  simp only [ofJson, normal]

/-- `Value::get` of a key: only objects have members. -/
def get (value : Value) (key : String) : Option Value :=
  match value.json with
  | .object members => (members.lookup key).map ofJson
  | _ => none

def asStr (value : Value) : Option String :=
  match value.json with
  | .string text => some text
  | _ => none

def asU64 (value : Value) : Option UInt64 :=
  match value.json with
  | .number (.posInt number) => some number
  | _ => none

end Value

end KiteX402
