/-
No proxied request leaves the base path of the upstream: the URL parser finds
the segments of the base path followed by those of the forwarded path.
-/
import KiteX402.Proxy
import Mathlib.Data.List.DropRight

namespace KiteX402

open UrlPath

/-- A character that is neither an ASCII control nor whitespace. -/
def Printable (c : Char) : Prop :=
  32 < c.toNat ∧ c.toNat ≠ 127 ∧ c.isWhitespace = false

instance (c : Char) : Decidable (Printable c) :=
  inferInstanceAs (Decidable (_ ∧ _ ∧ _))

/-- The segments of a path that is empty or starts with a separator. -/
def pathSegments : List Char → List (List Char)
  | [] => []
  | _ :: rest => segments rest

/-- Scheme and authority of an http(s) URL, which has no white space in it. -/
structure Origin where
  scheme : List Char
  authority : List Char
  scheme_http : scheme = ['h', 't', 't', 'p'] ∨ scheme = ['h', 't', 't', 'p', 's']
  authority_ne_nil : authority ≠ []
  authority_plain : ∀ c ∈ authority, isSeparator c = false ∧ c ≠ '?' ∧ c ≠ '#'
  authority_printable : ∀ c ∈ authority, Printable c

def Origin.text (origin : Origin) : List Char :=
  origin.scheme ++ [':', '/', '/'] ++ origin.authority

/-- A path text: empty or rooted, without query and fragment. -/
structure PlainPath (path : List Char) : Prop where
  rooted : ∀ c ∈ path.head?, isSeparator c = true
  plain : ∀ c ∈ path, c ≠ '?' ∧ c ≠ '#' ∧ Printable c

/-- An upstream base URL without query, fragment and dot segments. -/
structure BaseUrl where
  origin : Origin
  path : List Char
  path_plain : PlainPath path
  path_dots : ∀ segment ∈ pathSegments path, ¬IsDotSegment segment

def BaseUrl.text (base : BaseUrl) : List Char := base.origin.text ++ base.path

/-- The URL parser of the HTTP client: the path segments of a URL it accepts,
in its spelling of them. -/
structure UrlParser where
  parse : List Char → Option (List (List Char))
  encode : List Char → List Char

/-- On an http(s) URL with an acceptable origin the parser splits the path at
slashes and backslashes and resolves its dot segments; the query plays no part
in this.  White space and control characters, which a parser trims or removes
before it splits, occur nowhere in such a URL. -/
def UrlParser.IsWhatwg (parser : UrlParser) : Prop :=
  ∀ (origin : Origin) (path query : List Char),
    (parser.parse origin.text).isSome = true → path ≠ [] → PlainPath path →
    (∀ c ∈ query.head?, c = '?') → (∀ c ∈ query, c ≠ '#' ∧ Printable c) →
    parser.parse (origin.text ++ path ++ query) =
      some ((resolve [] (pathSegments path)).map parser.encode)

/-- What the characters of a path-and-query are known to be. -/
def AdmittedPathAndQuery (pathAndQuery : List Char) : Prop :=
  ∀ c ∈ pathAndQuery, c ≠ '#' ∧ Printable c

instance (pathAndQuery : List Char) :
    Decidable (AdmittedPathAndQuery pathAndQuery) :=
  List.decidableBAll (fun c => c ≠ '#' ∧ Printable c) pathAndQuery

/-- `rest` is what follows a leading `/v1` that is a whole segment. -/
def FollowsV1 (pathAndQuery rest : List Char) : Prop :=
  pathAndQuery = ['/', 'v', '1'] ++ rest ∧
    (rest = [] ∨ rest.head? = some '/' ∨ rest.head? = some '?')

/-- The path-and-query without one leading `/v1`, which is there to strip only
when the route is not nested. -/
inductive StripsV1 : Bool → List Char → List Char → Prop
  | strip {pathAndQuery rest : List Char} (h : FollowsV1 pathAndQuery rest) :
      StripsV1 false pathAndQuery rest
  | keep {nested : Bool} {pathAndQuery : List Char}
      (h : nested = true ∨ ∀ rest, ¬FollowsV1 pathAndQuery rest) :
      StripsV1 nested pathAndQuery pathAndQuery

/-- A slash goes in front of what does not start with one. -/
inductive Rooted : List Char → List Char → Prop
  | same (rest : List Char) : Rooted ('/' :: rest) ('/' :: rest)
  | slash {stripped : List Char} (h : stripped.head? ≠ some '/') :
      Rooted stripped ('/' :: stripped)

/-- `forwarded` is what the proxy appends to the base URL. -/
def Forwards (nested : Bool) (pathAndQuery forwarded : List Char) : Prop :=
  ∃ stripped, StripsV1 nested pathAndQuery stripped ∧ Rooted stripped forwarded

theorem stripV1Prefix_strips (pathAndQuery : List Char) :
    StripsV1 false pathAndQuery (stripV1Prefix pathAndQuery) := by
  unfold stripV1Prefix
  split
  next rest hrest =>
    have hsplit : ['/', 'v', '1'] ++ rest = pathAndQuery :=
      List.isPrefixOf?_eq_some_iff_append_eq.mp hrest
    split
    next h => exact .strip ⟨hsplit.symm, h⟩
    next h =>
      refine .keep (Or.inr fun other hother => h ?_)
      have hsame : rest = other :=
        List.append_cancel_left (hsplit.trans hother.1)
      rw [hsame]
      exact hother.2
  next hnone =>
    refine .keep (Or.inr fun rest hrest => ?_)
    have hsome := List.isPrefixOf?_eq_some_iff_append_eq.mpr hrest.1.symm
    rw [hnone] at hsome
    contradiction

/-- What `proxy` sends is the base URL and what is to be forwarded. -/
theorem proxyUrl_ok {baseUrl : List Char} {req : ProxyRequest}
    {url : List Char} (h : proxyUrl baseUrl req = .ok url) :
    hasDotSegment (req.pathAndQuery.getD ['/']) = false ∧
      ∃ forwarded, url = baseUrl ++ forwarded ∧
        Forwards req.nestedPath.isSome (req.pathAndQuery.getD ['/']) forwarded := by
  have hrooted : ∀ stripped : List Char, Rooted stripped
      (if stripped.head? = some '/' then stripped else '/' :: stripped) := by
    intro stripped
    split
    next hhead =>
      obtain ⟨rest, rfl⟩ := List.head?_eq_some_iff.mp hhead
      exact .same rest
    next hhead => exact .slash hhead
  unfold proxyUrl at h
  by_cases hdot : hasDotSegment (req.pathAndQuery.getD ['/']) = true
  · simp [hdot] at h
  · simp only [hdot, Bool.false_eq_true, if_false, Except.ok.injEq] at h
    refine ⟨by simpa using hdot, _, h.symm, _, ?_, hrooted _⟩
    split
    next hnested =>
      rw [hnested]
      exact .keep (Or.inl rfl)
    next hnested =>
      have hnot : req.nestedPath.isSome = false := by simpa using hnested
      rw [hnot]
      exact stripV1Prefix_strips _

theorem pathPart_cons {c : Char} (hc : c ≠ '?') (rest : List Char) :
    pathPart (c :: rest) = c :: pathPart rest :=
  List.takeWhile_cons_of_pos (by simpa using hc)

theorem queryPart_cons {c : Char} (hc : c ≠ '?') (rest : List Char) :
    queryPart (c :: rest) = queryPart rest :=
  List.dropWhile_cons_of_pos (by simpa using hc)

theorem pathPart_eq_nil {rest : List Char}
    (h : rest = [] ∨ rest.head? = some '?') : pathPart rest = [] := by
  rcases h with rfl | h
  · rfl
  · obtain ⟨tail, rfl⟩ := List.head?_eq_some_iff.mp h
    exact List.takeWhile_cons_of_neg (by simp)

theorem Forwards.queryPart_eq {nested : Bool} {pathAndQuery forwarded : List Char}
    (h : Forwards nested pathAndQuery forwarded) :
    queryPart forwarded = queryPart pathAndQuery := by
  obtain ⟨stripped, hstrips, hrooted⟩ := h
  have hroot : queryPart forwarded = queryPart stripped := by
    cases hrooted with
    | same rest => rfl
    | slash _ => exact queryPart_cons (by decide) stripped
  rw [hroot]
  cases hstrips with
  | strip h =>
      rw [h.1, List.cons_append, queryPart_cons (by decide), List.cons_append,
        queryPart_cons (by decide), List.cons_append, queryPart_cons (by decide)]
      rfl
  | keep _ => rfl

/-- The forwarded path starts with a slash, and its segments are among those of
the path it comes from, save for an empty one. -/
theorem Forwards.path_eq {nested : Bool} {pathAndQuery forwarded : List Char}
    (h : Forwards nested pathAndQuery forwarded) :
    ∃ rest, pathPart forwarded = '/' :: rest ∧ ∀ segment ∈ segments rest,
      segment = [] ∨ segment ∈ segments (pathPart pathAndQuery) := by
  obtain ⟨stripped, hstrips, hrooted⟩ := h
  have hslash : '/' ≠ '?' := by decide
  -- What follows a slash of the path is a tail of its segments.
  have htail : ∀ before rest : List Char, ∀ segment ∈ segments rest,
      segment ∈ segments (before ++ '/' :: rest) := by
    intro before rest segment hsegment
    rw [segments_append_cons before rest rfl]
    exact List.mem_append_right _ hsegment
  cases hrooted with
  | same rest =>
      refine ⟨pathPart rest, pathPart_cons hslash rest, fun segment hsegment => ?_⟩
      right
      cases hstrips with
      | strip h =>
          have hpath : pathPart pathAndQuery =
              ['/', 'v', '1'] ++ '/' :: pathPart rest := by
            rw [h.1]
            simp [pathPart]
          rw [hpath]
          exact htail _ _ segment hsegment
      | keep _ =>
          rw [pathPart_cons hslash]
          exact htail [] _ segment hsegment
  | slash hhead =>
      refine ⟨pathPart stripped, pathPart_cons hslash stripped,
        fun segment hsegment => ?_⟩
      cases hstrips with
      | strip h =>
          have hend : stripped = [] ∨ stripped.head? = some '?' := by
            rcases h.2 with hnil | hslash' | hquery
            · exact Or.inl hnil
            · exact absurd hslash' hhead
            · exact Or.inr hquery
          rw [pathPart_eq_nil hend] at hsegment
          exact Or.inl (List.mem_singleton.mp hsegment)
      | keep _ => exact Or.inr hsegment

theorem Forwards.not_dot {nested : Bool} {pathAndQuery forwarded : List Char}
    (h : Forwards nested pathAndQuery forwarded)
    (hdots : hasDotSegment pathAndQuery = false) :
    ∀ segment ∈ pathSegments (pathPart forwarded), ¬IsDotSegment segment := by
  obtain ⟨rest, hpath, hsegments⟩ := h.path_eq
  rw [hpath]
  intro segment hsegment hdot
  rcases hsegments segment hsegment with rfl | hmem
  · simp [IsDotSegment, dotSpellings] at hdot
  · have hfound := (hasDotSegment_iff pathAndQuery).mpr ⟨segment, hmem, hdot⟩
    rw [hdots] at hfound
    contradiction

theorem Forwards.admitted {nested : Bool} {pathAndQuery forwarded : List Char}
    (h : Forwards nested pathAndQuery forwarded)
    (hadmitted : AdmittedPathAndQuery pathAndQuery) :
    AdmittedPathAndQuery forwarded := by
  obtain ⟨stripped, hstrips, hrooted⟩ := h
  have hstripped : AdmittedPathAndQuery stripped := by
    cases hstrips with
    | strip h =>
        intro c hc
        apply hadmitted c
        rw [h.1]
        exact List.mem_append_right _ hc
    | keep _ => exact hadmitted
  cases hrooted with
  | same rest => exact hstripped
  | slash _ =>
      intro c hc
      rcases List.mem_cons.mp hc with rfl | hc
      · decide
      · exact hstripped c hc

/-- Appending a rooted path appends its segments. -/
theorem pathSegments_append (path rest : List Char) :
    pathSegments (path ++ '/' :: rest) =
      pathSegments path ++ pathSegments ('/' :: rest) := by
  cases path with
  | nil => rfl
  | cons c path => exact segments_append_cons path rest rfl

/-- The URL parser finds the segments of the base path and then those of the
forwarded path, with nothing dropped. -/
theorem parse_forwarded {parser : UrlParser} (hparser : parser.IsWhatwg)
    {base : BaseUrl} (hbase : (parser.parse base.origin.text).isSome = true)
    {nested : Bool} {pathAndQuery forwarded : List Char}
    (hadmitted : AdmittedPathAndQuery pathAndQuery)
    (hdots : hasDotSegment pathAndQuery = false)
    (h : Forwards nested pathAndQuery forwarded) :
    parser.parse (base.text ++ forwarded) =
      some ((pathSegments base.path ++ pathSegments (pathPart forwarded)).map
        parser.encode) := by
  obtain ⟨rest, hpath, _⟩ := h.path_eq
  have hadmitted' := h.admitted hadmitted
  have hsplit : base.text ++ forwarded =
      base.origin.text ++ (base.path ++ pathPart forwarded) ++
        queryPart forwarded := by
    have hparts : pathPart forwarded ++ queryPart forwarded = forwarded :=
      List.takeWhile_append_dropWhile
    rw [BaseUrl.text, List.append_assoc, List.append_assoc, List.append_assoc,
      hparts]
  have hplain : PlainPath (base.path ++ pathPart forwarded) := by
    constructor
    · cases hcase : base.path with
      | nil => simp [hpath, isSeparator]
      | cons c path =>
          have hrooted := base.path_plain.rooted
          rw [hcase] at hrooted
          simpa using hrooted
    · intro c hc
      rcases List.mem_append.mp hc with hc | hc
      · exact base.path_plain.plain c hc
      · have hne := List.all_eq_true.mp List.all_takeWhile c hc
        have hmem := (List.takeWhile_sublist _).subset hc
        exact ⟨by simpa using hne, hadmitted' c hmem⟩
  have hquery : ∀ c ∈ (queryPart forwarded).head?, c = '?' := by
    intro c hc
    have hnot := List.head?_dropWhile_not (· ≠ '?') forwarded
    rw [queryPart] at hc
    rw [hc] at hnot
    simpa using hnot
  have hrest : ∀ c ∈ queryPart forwarded, c ≠ '#' ∧ Printable c :=
    fun c hc => hadmitted' c ((List.dropWhile_sublist _).subset hc)
  have hdotFree : ∀ segment ∈ pathSegments base.path ++
      pathSegments (pathPart forwarded), ¬IsDotSegment segment := by
    intro segment hsegment
    rcases List.mem_append.mp hsegment with hmem | hmem
    · exact base.path_dots segment hmem
    · exact h.not_dot hdots segment hmem
  rw [hsplit, hparser base.origin _ _ hbase (by simp [hpath]) hplain hquery hrest,
    hpath, pathSegments_append, ← hpath, resolve_of_not_dot hdotFree,
    List.nil_append]

/-- What becomes of a request: with a dot segment it is refused, and without one
it is sent to a target under the base path. -/
structure StaysUnder (parser : UrlParser) (base : BaseUrl) (req : ProxyRequest)
    (pathAndQuery : List Char) : Prop where
  refused : proxyUrl base.text req = .error invalidRequestPath ↔
    ∃ segment ∈ segments (pathPart pathAndQuery), IsDotSegment segment
  sent : (∀ segment ∈ segments (pathPart pathAndQuery), ¬IsDotSegment segment) →
    ∃ forwarded, proxyUrl base.text req = .ok (base.text ++ forwarded) ∧
      Forwards req.nestedPath.isSome pathAndQuery forwarded ∧
      queryPart forwarded = queryPart pathAndQuery ∧
      parser.parse (base.text ++ forwarded) =
        some ((pathSegments base.path ++ pathSegments (pathPart forwarded)).map
          parser.encode)

theorem proxyUrl_refused (baseUrl : List Char) (req : ProxyRequest) :
    proxyUrl baseUrl req = .error invalidRequestPath ↔
      hasDotSegment (req.pathAndQuery.getD ['/']) = true := by
  unfold proxyUrl
  by_cases h : hasDotSegment (req.pathAndQuery.getD ['/']) = true
  · simp [h]
  · simp [h]

theorem proxyUrl_sent {baseUrl : List Char} {req : ProxyRequest}
    (hdots : hasDotSegment (req.pathAndQuery.getD ['/']) = false) :
    ∃ url, proxyUrl baseUrl req = .ok url := by
  simp only [proxyUrl, hdots, Bool.false_eq_true, if_false]
  exact ⟨_, rfl⟩

/-- No request leaves the base path of the upstream. -/
theorem proxy_stays_under {parser : UrlParser} (hparser : parser.IsWhatwg)
    (base : BaseUrl) (hbase : (parser.parse base.origin.text).isSome = true)
    (req : ProxyRequest) {pathAndQuery : List Char}
    (hreq : req.pathAndQuery = some pathAndQuery)
    (hadmitted : AdmittedPathAndQuery pathAndQuery) :
    StaysUnder parser base req pathAndQuery where
  refused := by
    rw [proxyUrl_refused, hreq, Option.getD_some, hasDotSegment_iff]
  sent hplain := by
    have hnone : hasDotSegment pathAndQuery = false := by
      rw [Bool.eq_false_iff, ne_eq, hasDotSegment_iff]
      rintro ⟨segment, hmem, hdot⟩
      exact hplain segment hmem hdot
    obtain ⟨url, hurl⟩ : ∃ url, proxyUrl base.text req = .ok url :=
      proxyUrl_sent (by rw [hreq, Option.getD_some, hnone])
    obtain ⟨-, forwarded, rfl, hforwards⟩ := proxyUrl_ok hurl
    rw [hreq, Option.getD_some] at hforwards
    exact ⟨forwarded, hurl, hforwards, hforwards.queryPart_eq,
      parse_forwarded hparser hbase hadmitted hnone hforwards⟩

namespace ProxyWitness

def http : List Char := ['h', 't', 't', 'p', ':', '/', '/']

def https : List Char := ['h', 't', 't', 'p', 's', ':', '/', '/']

def inAuthority (c : Char) : Bool := !(isSeparator c || c = '?' || c = '#')

def inPath (c : Char) : Bool := c ≠ '?' && c ≠ '#'

/-- Controls and spaces around a URL are no part of it. -/
def isMargin (c : Char) : Bool := c.toNat ≤ 32

def afterAuthority (rest : List Char) : Option (List (List Char)) :=
  let authority := rest.takeWhile inAuthority
  if !authority.isEmpty && authority.all fun c => decide (Printable c) then
    some (resolve [] (pathSegments ((rest.dropWhile inAuthority).takeWhile inPath)))
  else none

/-- A parser that keeps to the plain case: any authority without white space, and
no percent encoding. -/
def parser : UrlParser where
  parse text :=
    let text := (text.dropWhile isMargin).rdropWhile isMargin
    match https.isPrefixOf? text with
    | some rest => afterAuthority rest
    | none => (http.isPrefixOf? text).bind afterAuthority
  encode := id

/-- A host with a space is trimmed at the end of a URL, and refused before a path. -/
example : (parser.parse "http://h ".toList).isSome = true ∧
    parser.parse "http://h /p".toList = none := by
  decide +kernel

theorem isMargin_of_printable {c : Char} (hc : Printable c) : isMargin c = false := by
  simpa [isMargin] using hc.1

theorem printable_text (origin : Origin) : ∀ c ∈ origin.text, Printable c := by
  have hscheme : ∀ c ∈ origin.scheme, Printable c := by
    rcases origin.scheme_http with hscheme | hscheme <;> rw [hscheme] <;>
      simp [Printable, Char.isWhitespace]
  have hslashes : ∀ c ∈ [':', '/', '/'], Printable c := by simp [Printable, Char.isWhitespace]
  intro c hc
  rcases List.mem_append.mp hc with hc | hc
  · exact (List.mem_append.mp hc).elim (hscheme c) (hslashes c)
  · exact origin.authority_printable c hc

theorem trim_of_printable {text : List Char} (htext : ∀ c ∈ text, Printable c) :
    (text.dropWhile isMargin).rdropWhile isMargin = text := by
  have hstart : text.dropWhile isMargin = text := by
    cases text with
    | nil => rfl
    | cons c rest =>
        have hc := isMargin_of_printable (htext c List.mem_cons_self)
        exact List.dropWhile_cons_of_neg (by simp [hc])
  rw [hstart, List.rdropWhile_eq_self_iff]
  intro hne hlast
  rw [isMargin_of_printable (htext _ (List.getLast_mem hne))] at hlast
  contradiction

theorem parse_origin (origin : Origin) {rest : List Char} (hrest : ∀ c ∈ rest, Printable c) :
    parser.parse (origin.text ++ rest) = afterAuthority (origin.authority ++ rest) := by
  have htrim : ((origin.text ++ rest).dropWhile isMargin).rdropWhile isMargin =
      origin.text ++ rest := by
    refine trim_of_printable fun c hc => ?_
    rcases List.mem_append.mp hc with hc | hc
    · exact printable_text origin c hc
    · exact hrest c hc
  have hprefix : ∀ start : List Char, start.isPrefixOf? (start ++
      (origin.authority ++ rest)) = some (origin.authority ++ rest) :=
    fun start => List.isPrefixOf?_eq_some_iff_append_eq.mpr rfl
  simp only [parser, htrim]
  rcases origin.scheme_http with hscheme | hscheme
  · have htext : origin.text ++ rest = http ++ (origin.authority ++ rest) := by
      simp [Origin.text, hscheme, http]
    have hnot : https.isPrefixOf? (http ++ (origin.authority ++ rest)) = none := rfl
    simp only [htext, hnot, hprefix, Option.bind_some]
  · have htext : origin.text ++ rest = https ++ (origin.authority ++ rest) := by
      simp [Origin.text, hscheme, https]
    simp only [htext, hprefix]

theorem parser_isWhatwg : parser.IsWhatwg := by
  intro origin path query _ hpath hplain hquery hadmitted
  have hauthority : ∀ c ∈ origin.authority, inAuthority c = true := by
    intro c hc
    obtain ⟨hseparator, hmark, hhash⟩ := origin.authority_plain c hc
    simp [inAuthority, hseparator, hmark, hhash]
  have hinPath : ∀ c ∈ path, inPath c = true := by
    intro c hc
    obtain ⟨hmark, hhash, _⟩ := hplain.plain c hc
    simp [inPath, hmark, hhash]
  have hend : (path ++ query).takeWhile inAuthority = [] ∧
      (path ++ query).dropWhile inAuthority = path ++ query := by
    obtain ⟨c, rest, rfl⟩ := List.exists_cons_of_ne_nil hpath
    have hseparator := hplain.rooted c rfl
    simp [inAuthority, hseparator]
  have hstop : query.takeWhile inPath = [] := by
    cases query with
    | nil => rfl
    | cons c rest =>
        have hmark := hquery c rfl
        simp [inPath, hmark]
  have hprintable : ∀ c ∈ path ++ query, Printable c := by
    intro c hc
    rcases List.mem_append.mp hc with hc | hc
    · exact (hplain.plain c hc).2.2
    · exact (hadmitted c hc).2
  have haccepted : (!origin.authority.isEmpty &&
      origin.authority.all fun c => decide (Printable c)) = true := by
    simpa [origin.authority_ne_nil] using origin.authority_printable
  rw [List.append_assoc, parse_origin origin hprintable]
  simp only [afterAuthority, List.takeWhile_append_of_pos hauthority, hend.1, List.append_nil,
    if_pos haccepted, List.dropWhile_append_of_pos hauthority, hend.2,
    List.takeWhile_append_of_pos hinPath, hstop]
  simp [parser]

/-- `https://h/public` -/
def base : BaseUrl where
  origin := {
    scheme := ['h', 't', 't', 'p', 's']
    authority := ['h']
    scheme_http := by decide
    authority_ne_nil := by decide
    authority_plain := by simp [isSeparator]
    authority_printable := by simp [Printable, Char.isWhitespace] }
  path := ['/', 'p', 'u', 'b', 'l', 'i', 'c']
  path_plain := ⟨by simp [isSeparator], by simp [Printable, Char.isWhitespace]⟩
  path_dots := by
    simp [pathSegments, segments, List.splitOnP_cons_eq_if_modifyHead,
      isSeparator, IsDotSegment, dotSpellings]

/-- `/v1/a?../b` -/
def pathAndQuery : List Char :=
  ['/', 'v', '1', '/', 'a', '?', '.', '.', '/', 'b']

theorem query_stays_under :
    StaysUnder parser base ⟨some pathAndQuery, none⟩ pathAndQuery :=
  proxy_stays_under parser_isWhatwg base (by decide +kernel) _ rfl (by decide)

/-- Every spelling of a parent segment is refused. -/
example : ["/%2e%2E/x", "/a\\.%2e\\b", "/%2E"].map
    (fun path => proxyUrl base.text ⟨some path.toList, none⟩) =
      [.error invalidRequestPath, .error invalidRequestPath,
        .error invalidRequestPath] := by
  decide

end ProxyWitness

end KiteX402
