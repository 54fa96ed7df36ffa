/-
The target of a proxied request: dot segments are refused, one leading `/v1`
goes, and the rest is appended to the base URL of the upstream.
-/
import KiteX402.UrlPath

namespace KiteX402

/-- `str::replace` for a pattern that is not empty; `skip` characters of the
last match are still to be passed over. -/
def replaceFrom (pattern replacement : List Char) : ℕ → List Char → List Char
  | _, [] => []
  | skip + 1, _ :: rest => replaceFrom pattern replacement skip rest
  | 0, c :: rest =>
      if pattern.isPrefixOf (c :: rest) then
        replacement ++ replaceFrom pattern replacement (pattern.length - 1) rest
      else c :: replaceFrom pattern replacement 0 rest

def replaceAll (pattern replacement text : List Char) : List Char :=
  replaceFrom pattern replacement 0 text

/-- The part before the query: `split('?').next()`. -/
def pathPart (pathAndQuery : List Char) : List Char :=
  pathAndQuery.takeWhile (· ≠ '?')

/-- The query with its question mark. -/
def queryPart (pathAndQuery : List Char) : List Char :=
  pathAndQuery.dropWhile (· ≠ '?')

/-- Only a whole leading segment is stripped. -/
def stripV1Prefix (pathAndQuery : List Char) : List Char :=
  match ['/', 'v', '1'].isPrefixOf? pathAndQuery with
  | some rest =>
      if rest = [] ∨ rest.head? = some '/' ∨ rest.head? = some '?' then rest
      else pathAndQuery
  | none => pathAndQuery

def decodeDots (segment : List Char) : List Char :=
  replaceAll ['%', '2', 'E'] ['.'] (replaceAll ['%', '2', 'e'] ['.'] segment)

def hasDotSegment (pathAndQuery : List Char) : Bool :=
  ((pathPart pathAndQuery).splitOnP fun c => c = '/' || c = '\\').any
    fun segment =>
      decodeDots segment = ['.'] || decodeDots segment = ['.', '.']

/-- A reply with a JSON object that holds an `error`. -/
structure ErrorReply where
  status : ℕ
  error : String
deriving Repr, DecidableEq

def invalidRequestPath : ErrorReply := ⟨400, "invalid request path"⟩

/-- What the proxy reads of a request to find its target; `nestedPath` is the
prefix that a nesting router has stripped. -/
structure ProxyRequest where
  pathAndQuery : Option (List Char)
  nestedPath : Option (List Char)
deriving DecidableEq

/-- The URL `proxy` sends a request to, unless it refuses the path. -/
def proxyUrl (baseUrl : List Char) (req : ProxyRequest) :
    Except ErrorReply (List Char) :=
  let pathAndQuery := req.pathAndQuery.getD ['/']
  if hasDotSegment pathAndQuery then .error invalidRequestPath
  else
    let alreadyStripped := req.nestedPath.isSome
    let forwarded :=
      if alreadyStripped then pathAndQuery else stripV1Prefix pathAndQuery
    let forwarded :=
      if forwarded.head? = some '/' then forwarded else '/' :: forwarded
    .ok (baseUrl ++ forwarded)

section DotSegments

open UrlPath

/-- The rest of a match is passed over. -/
theorem replaceFrom_append (pattern replacement skipped rest : List Char) :
    replaceFrom pattern replacement skipped.length (skipped ++ rest) =
      replaceAll pattern replacement rest := by
  induction skipped with
  | nil => rfl
  | cons c skipped ih => exact ih

/-- A replacement starts with a match, or keeps the first character. -/
theorem replaceAll_cons_cases (first : Char) (pattern replacement : List Char)
    (c : Char) (rest : List Char) :
    (∃ tail, rest = pattern ++ tail ∧ c = first ∧
      replaceAll (first :: pattern) replacement (c :: rest) =
        replacement ++ replaceAll (first :: pattern) replacement tail) ∨
    replaceAll (first :: pattern) replacement (c :: rest) =
      c :: replaceAll (first :: pattern) replacement rest := by
  by_cases h : (first :: pattern).isPrefixOf (c :: rest) = true
  · left
    obtain ⟨tail, htail⟩ := List.isPrefixOf_iff_prefix.mp h
    rw [List.cons_append] at htail
    obtain ⟨hfirst, hrest⟩ := List.cons_eq_cons.mp htail
    refine ⟨tail, hrest.symm, hfirst.symm, ?_⟩
    rw [replaceAll, replaceFrom, if_pos h, ← hrest, List.length_cons,
      Nat.add_sub_cancel, replaceFrom_append]
  · right
    rw [replaceAll, replaceFrom, if_neg h]
    rfl

theorem replaceAll_eq_nil {first : Char} {pattern replacement text : List Char}
    (hreplacement : replacement ≠ [])
    (h : replaceAll (first :: pattern) replacement text = []) : text = [] := by
  cases text with
  | nil => rfl
  | cons c rest =>
      rcases replaceAll_cons_cases first pattern replacement c rest with
        ⟨tail, _, _, heq⟩ | heq
      · rw [heq] at h
        exact absurd (List.append_eq_nil_iff.mp h).1 hreplacement
      · rw [heq] at h
        contradiction

/-- Where a replaced text goes on with `c`, so did the text, or `c` is a dot
that stands for the pattern. -/
theorem replaceAll_eq_cons {first c : Char} {pattern text out : List Char}
    (h : replaceAll (first :: pattern) ['.'] text = c :: out) :
    ∃ rest, replaceAll (first :: pattern) ['.'] rest = out ∧
      (text = c :: rest ∨ (c = '.' ∧ text = (first :: pattern) ++ rest)) := by
  cases text with
  | nil => contradiction
  | cons head rest =>
      rcases replaceAll_cons_cases first pattern ['.'] head rest with
        ⟨tail, rfl, rfl, heq⟩ | heq
      · rw [heq] at h
        obtain ⟨hdot, hout⟩ := List.cons_eq_cons.mp h
        exact ⟨tail, hout, Or.inr ⟨hdot.symm, rfl⟩⟩
      · rw [heq] at h
        obtain ⟨hhead, hout⟩ := List.cons_eq_cons.mp h
        exact ⟨rest, hout, Or.inl (by rw [hhead])⟩

/-- Characters other than dots come from the text as they are. -/
theorem replaceAll_eq_append {first : Char} {pattern kept text out : List Char}
    (hkept : ∀ c ∈ kept, c ≠ '.')
    (h : replaceAll (first :: pattern) ['.'] text = kept ++ out) :
    ∃ rest, replaceAll (first :: pattern) ['.'] rest = out ∧
      text = kept ++ rest := by
  induction kept generalizing text with
  | nil => exact ⟨text, h, rfl⟩
  | cons c kept ih =>
      obtain ⟨rest, hrest, htext | ⟨hdot, _⟩⟩ := replaceAll_eq_cons h
      · have htail : ∀ c ∈ kept, c ≠ '.' :=
          fun c hc => hkept c (List.mem_cons_of_mem _ hc)
        obtain ⟨last, hlast, hsplit⟩ := ih htail hrest
        exact ⟨last, hlast, by rw [htext, hsplit, List.cons_append]⟩
      · exact absurd hdot (hkept c List.mem_cons_self)

theorem decodeDots_eq_nil {segment : List Char} (h : decodeDots segment = []) :
    segment = [] :=
  replaceAll_eq_nil (by simp) (replaceAll_eq_nil (by simp) h)

/-- A decoded segment starts with a dot exactly when the segment starts with a
spelling of one: the first pass leaves `%2E` to the second. -/
theorem decodeDots_eq_dot_cons {segment out : List Char} :
    decodeDots segment = '.' :: out ↔
      ∃ dot ∈ dotSpellings, ∃ rest, segment = dot ++ rest ∧
        decodeDots rest = out := by
  constructor
  · intro h
    obtain ⟨once, hout, honce | ⟨_, honce⟩⟩ := replaceAll_eq_cons h
    · obtain ⟨rest, hrest, hsegment | ⟨_, hsegment⟩⟩ := replaceAll_eq_cons honce
      · exact ⟨['.'], by simp [dotSpellings], rest, hsegment, by
          rw [decodeDots, hrest, hout]⟩
      · exact ⟨['%', '2', 'e'], by simp [dotSpellings], rest, hsegment, by
          rw [decodeDots, hrest, hout]⟩
    · obtain ⟨rest, hrest, hsegment⟩ := replaceAll_eq_append (by simp) honce
      exact ⟨['%', '2', 'E'], by simp [dotSpellings], rest, hsegment, by
        rw [decodeDots, hrest, hout]⟩
  · rintro ⟨dot, hdot, rest, rfl, rfl⟩
    simp only [dotSpellings, List.mem_cons, List.not_mem_nil, or_false] at hdot
    rcases hdot with rfl | rfl | rfl <;> rfl

theorem decodeDots_eq_dot {segment : List Char} :
    decodeDots segment = ['.'] ↔ segment ∈ dotSpellings := by
  rw [decodeDots_eq_dot_cons]
  constructor
  · rintro ⟨dot, hdot, rest, rfl, hrest⟩
    rwa [decodeDots_eq_nil hrest, List.append_nil]
  · intro h
    exact ⟨segment, h, [], (List.append_nil _).symm, rfl⟩

theorem decodeDots_iff {segment : List Char} :
    decodeDots segment = ['.'] ∨ decodeDots segment = ['.', '.'] ↔
      IsDotSegment segment := by
  apply or_congr decodeDots_eq_dot
  rw [decodeDots_eq_dot_cons]
  constructor
  · rintro ⟨first, hfirst, second, hsegment, hsecond⟩
    exact ⟨first, hfirst, second, decodeDots_eq_dot.mp hsecond, hsegment⟩
  · rintro ⟨first, hfirst, second, hsecond, hsegment⟩
    exact ⟨first, hfirst, second, hsegment, decodeDots_eq_dot.mpr hsecond⟩

/-- The scanner finds the segments that URL parsers resolve as dots. -/
theorem hasDotSegment_iff (pathAndQuery : List Char) :
    hasDotSegment pathAndQuery = true ↔
      ∃ segment ∈ segments (pathPart pathAndQuery), IsDotSegment segment := by
  simp only [hasDotSegment, List.any_eq_true, Bool.or_eq_true, decide_eq_true_eq,
    decodeDots_iff]
  rfl

end DotSegments

end KiteX402
