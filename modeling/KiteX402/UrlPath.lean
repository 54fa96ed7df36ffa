/-
Paths of http(s) URLs: splitting into segments, and the removal of dot
segments by a stack of segments, as URL parsers do it.  A dot may be spelled
`%2e` with either case of the digit.
-/
import Mathlib.Data.Char
import Mathlib.Data.List.Basic

namespace KiteX402

/-- The ASCII letters `A` to `Z` are the code points 65 to 90. -/
theorem toLower_eq_iff (c d : Char) :
    c.toLower = d ↔
      (if 65 ≤ c.toNat ∧ c.toNat ≤ 90 then c.toNat + 32 else c.toNat) =
        d.toNat := by
  have hrange : (c.val ≥ 'A'.val ∧ c.val ≤ 'Z'.val) ↔
      65 ≤ c.toNat ∧ c.toNat ≤ 90 := by
    simp only [ge_iff_le, UInt32.le_iff_toNat_le]
    rfl
  unfold Char.toLower
  by_cases h : 65 ≤ c.toNat ∧ c.toNat ≤ 90
  · have hval : c.val.toNat = c.toNat := rfl
    have hshift : ('a'.val - 'A'.val).toNat = 32 := by decide
    have hsum : (c.val + ('a'.val - 'A'.val)).toNat = c.toNat + 32 := by
      rw [UInt32.toNat_add, hval, hshift]
      omega
    rw [dif_pos (hrange.mpr h), if_pos h, ← Char.toNat_inj, ← hsum]
    rfl
  · rw [dif_neg (mt hrange.mp h), if_neg h, ← Char.toNat_inj]

@[simp] theorem toLower_eq_dot {c : Char} : c.toLower = '.' ↔ c = '.' := by
  have hdot : '.'.toNat = 46 := rfl
  rw [toLower_eq_iff, ← Char.toNat_inj, hdot]
  split <;> omega

@[simp] theorem toLower_eq_percent {c : Char} : c.toLower = '%' ↔ c = '%' := by
  have hpercent : '%'.toNat = 37 := rfl
  rw [toLower_eq_iff, ← Char.toNat_inj, hpercent]
  split <;> omega

@[simp] theorem toLower_eq_two {c : Char} : c.toLower = '2' ↔ c = '2' := by
  have htwo : '2'.toNat = 50 := rfl
  rw [toLower_eq_iff, ← Char.toNat_inj, htwo]
  split <;> omega

@[simp] theorem toLower_eq_e {c : Char} : c.toLower = 'e' ↔ c = 'e' ∨ c = 'E' := by
  have hlower : 'e'.toNat = 101 := rfl
  have hupper : 'E'.toNat = 69 := rfl
  rw [toLower_eq_iff, ← Char.toNat_inj, ← Char.toNat_inj, hlower, hupper]
  split <;> omega

namespace UrlPath

/-- Backslashes separate the segments of an http(s) URL like slashes. -/
def isSeparator (c : Char) : Bool := c = '/' || c = '\\'

def segments (path : List Char) : List (List Char) := path.splitOnP isSeparator

/-- The spellings of one dot. -/
def dotSpellings : List (List Char) := 
  [['.'], ['%', '2', 'e'], ['%', '2', 'E']]

/-- One dot or two, each in any spelling. -/
def IsDotSegment (segment : List Char) : Prop :=
  segment ∈ dotSpellings ∨
    ∃ first ∈ dotSpellings, ∃ second ∈ dotSpellings, segment = first ++ second

/-- A single-dot segment, ASCII case-insensitively. -/
def isSingleDot (segment : List Char) : Bool :=
  segment.map Char.toLower ∈ [['.'], ['%', '2', 'e']]

/-- A double-dot segment, ASCII case-insensitively. -/
def isDoubleDot (segment : List Char) : Bool :=
  segment.map Char.toLower ∈
    [['.', '.'], ['.', '%', '2', 'e'], ['%', '2', 'e', '.'],
      ['%', '2', 'e', '%', '2', 'e']]

/-- Push the segments onto the stack `path`, last segment last: a double dot
pops, a single dot does nothing, and either leaves an empty segment at the end
of the path. -/
def resolve : List (List Char) → List (List Char) → List (List Char)
  | path, [] => path
  | path, [last] =>
      if isDoubleDot last then path.dropLast ++ [[]]
      else if isSingleDot last then path ++ [[]]
      else path ++ [last]
  | path, segment :: next :: rest =>
      if isDoubleDot segment then resolve path.dropLast (next :: rest)
      else if isSingleDot segment then resolve path (next :: rest)
      else resolve (path ++ [segment]) (next :: rest)

theorem isSingleDot_iff {segment : List Char} :
    isSingleDot segment = true ↔ segment ∈ dotSpellings := by
  simp [isSingleDot, dotSpellings, List.map_eq_cons_iff, and_or_left, exists_or]

theorem isDoubleDot_iff {segment : List Char} :
    isDoubleDot segment = true ↔ ∃ first ∈ dotSpellings,
      ∃ second ∈ dotSpellings, segment = first ++ second := by
  simp [isDoubleDot, dotSpellings, List.map_eq_cons_iff, and_or_left,
    or_and_right, exists_or]
  tauto

theorem isDotSegment_iff {segment : List Char} :
    IsDotSegment segment ↔
      isSingleDot segment = true ∨ isDoubleDot segment = true := by
  rw [isSingleDot_iff, isDoubleDot_iff]
  rfl

/-- A path without dot segments is the stack it is pushed onto. -/
theorem resolve_of_not_dot {pending : List (List Char)}
    (hpending : ∀ segment ∈ pending, ¬IsDotSegment segment)
    (path : List (List Char)) : resolve path pending = path ++ pending := by
  induction pending generalizing path with
  | nil => rw [resolve, List.append_nil]
  | cons segment rest ih =>
      have hsegment := hpending segment List.mem_cons_self
      rw [isDotSegment_iff, not_or] at hsegment
      obtain ⟨hsingle, hdouble⟩ := hsegment
      cases rest with
      | nil => rw [resolve, if_neg hdouble, if_neg hsingle]
      | cons next rest =>
          have hrest := ih fun other hother =>
            hpending other (List.mem_cons_of_mem _ hother)
          rw [resolve, if_neg hdouble, if_neg hsingle, hrest, List.append_assoc]
          rfl

theorem segments_append_cons (before after : List Char) {separator : Char}
    (hseparator : isSeparator separator = true) :
    segments (before ++ separator :: after) = segments before ++ segments after :=
  List.splitOnP_append_cons before after hseparator

end UrlPath

end KiteX402
