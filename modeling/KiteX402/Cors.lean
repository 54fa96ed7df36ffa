/-
Cross-origin sharing: which origins may read a reply, and what caches have to
tell apart.
-/
import KiteX402.Http
import KiteX402.ProxyHeaders

namespace KiteX402

inductive CorsConfig where
  | disabled
  | wildcard
  | origins (allowed : List String)
deriving DecidableEq

/-- `trim_end_matches('/')`. -/
def trimEndSlashes (text : List Char) : List Char := text.rdropWhile (· = '/')

namespace CorsConfig

def fromEnv (value : Option String) : CorsConfig :=
  let text := trim (value.getD "").toList
  if text = [] then .disabled
  else if text = ['*'] then .wildcard
  else
    let origins := ((text.splitOn ',').map
      fun entry => String.ofList (trimEndSlashes (trim entry))).filter (· ≠ "")
    if origins = [] then .disabled else .origins origins

def matchOrigin (cors : CorsConfig) (origin : String) : Option String :=
  match cors with
  | .disabled => none
  | .wildcard => some "*"
  | .origins allowed =>
      if allowed.contains (String.ofList (trimEndSlashes origin.toList)) then some origin
      else none

def isEnabled (cors : CorsConfig) : Bool := cors ≠ .disabled

def isOrigins : CorsConfig → Bool
  | .origins _ => true
  | _ => false

end CorsConfig

/-- A value of `Vary` that tells origins apart. -/
def variesByOrigin (value : HeaderValue) : Bool :=
  match value.toStr with
  | some text => (text.toList.splitOn ',').any fun token =>
      trim token = ['*'] || toAsciiLowercase (String.ofList (trim token)) = "origin"
  | none => false

def varyOrigin (headers : HeaderMap) : HeaderMap :=
  if (headers.getAll "vary").any variesByOrigin then headers
  else headers.append "vary" (.fromStatic "Origin")

/-- What the middleware reads of a request. -/
structure CorsRequest where
  method : String
  headers : HeaderMap

/-- The origin of a request, as far as it can be read. -/
def CorsRequest.origin (req : CorsRequest) : Option String :=
  (req.headers.get "origin").bind HeaderValue.toStr

/-- A preflight is answered without the service behind the middleware. -/
def CorsRequest.isPreflight (req : CorsRequest) : Bool :=
  req.method = "OPTIONS" && req.origin.isSome

def allowOrigin (origin : String) : HeaderValue :=
  (HeaderValue.fromStr origin).getD (.fromStatic "*")

def preflightResponse (cors : CorsConfig) (matchedOrigin : Option String) : Response :=
  let headers : HeaderMap := if cors.isOrigins then varyOrigin [] else []
  let headers := match matchedOrigin with
    | some origin =>
        (((headers.insert "access-control-allow-origin" (allowOrigin origin)).insert
          "access-control-allow-methods"
            (.fromStatic "GET, POST, PUT, DELETE, PATCH, HEAD, OPTIONS")).insert
          "access-control-allow-headers" (.fromStatic
            "Content-Type, Authorization, Payment-Signature, X-Payment, X-Requested-With, X-Request-ID")).insert
          "access-control-max-age" (.fromStatic "86400")
    | none => headers
  ⟨204, headers, []⟩

/-- `inner` is what the service behind the middleware answers. -/
def corsMiddleware (cors : CorsConfig) (req : CorsRequest) (inner : Response) : Response :=
  if cors.isEnabled = false then inner
  else
    let matchedOrigin := req.origin.bind cors.matchOrigin
    if req.isPreflight then preflightResponse cors matchedOrigin
    else
      let headers := if cors.isOrigins then varyOrigin inner.headers else inner.headers
      let headers := match matchedOrigin with
        | some origin =>
            (headers.insert "access-control-allow-origin" (allowOrigin origin)).insert
              "access-control-expose-headers" (.fromStatic
                "Payment-Required, Payment-Response, X-Payment, Payment-Signature, Retry-After, X-Request-ID")
        | none => headers
      { inner with headers := headers }

section Vary

/-- The values of `Vary` stay, and one more may follow. -/
theorem getAll_varyOrigin_prefix (headers : HeaderMap) :
    headers.getAll "vary" <+: (varyOrigin headers).getAll "vary" := by
  unfold varyOrigin
  split
  · exact List.prefix_rfl
  · rw [HeaderMap.getAll_append]
    exact List.prefix_append _ _

theorem variesByOrigin_varyOrigin (headers : HeaderMap) :
    ∃ value ∈ (varyOrigin headers).getAll "vary", variesByOrigin value = true := by
  unfold varyOrigin
  split
  next hpresent => exact List.any_eq_true.mp hpresent
  next =>
    refine ⟨.fromStatic "Origin", ?_, by decide +kernel⟩
    rw [HeaderMap.getAll_append]
    exact List.mem_append_right _ (List.mem_singleton_self _)

theorem getAll_varyOrigin_of_ne {name : String} (hne : "vary" ≠ name) (headers : HeaderMap) :
    (varyOrigin headers).getAll name = headers.getAll name := by
  unfold varyOrigin
  split
  · rfl
  · rw [HeaderMap.getAll_append, if_neg hne, List.append_nil]

end Vary

section Origins

variable {value : Option String} {allowed : List String} {req : CorsRequest}
  {inner : Response}

/-- The origin of a request is one of the list, trailing slashes aside. -/
def OriginAllowed (allowed : List String) (req : CorsRequest) : Prop :=
  ∃ origin, req.origin = some origin ∧
    ∃ entry ∈ allowed, trimEndSlashes entry.toList = trimEndSlashes origin.toList

/-- What a reply lets the browser share, and caches know of it. -/
structure SharesByList (allowed : List String) (req : CorsRequest)
    (inner reply : Response) : Prop where
  granted : reply.headers.containsKey "access-control-allow-origin" = true ↔
    OriginAllowed allowed req
  reflected : OriginAllowed allowed req → ∀ origin, req.headers.get "origin" = some origin →
    reply.headers.getAll "access-control-allow-origin" = [origin]
  varies : ∃ field ∈ reply.headers.getAll "vary", variesByOrigin field = true
  varyKept : req.isPreflight = false →
    inner.headers.getAll "vary" <+: reply.headers.getAll "vary"

/-- The entries of a list have no trailing slashes. -/
theorem trimEndSlashes_of_fromEnv (hbuilt : CorsConfig.fromEnv value = .origins allowed)
    {entry : String} (hentry : entry ∈ allowed) :
    trimEndSlashes entry.toList = entry.toList := by
  simp only [CorsConfig.fromEnv] at hbuilt
  split at hbuilt
  · contradiction
  · split at hbuilt
    · contradiction
    · split at hbuilt
      · contradiction
      · rw [← CorsConfig.origins.inj hbuilt] at hentry
        obtain ⟨piece, _, rfl⟩ := List.mem_map.mp (List.mem_filter.mp hentry).1
        rw [String.toList_ofList, trimEndSlashes, trimEndSlashes, List.rdropWhile_idempotent]

/-- The middleware finds the origins of the list. -/
theorem matchedOrigin_eq_some_iff (hbuilt : CorsConfig.fromEnv value = .origins allowed)
    {origin : String} :
    req.origin.bind (CorsConfig.origins allowed).matchOrigin = some origin ↔
      req.origin = some origin ∧
        ∃ entry ∈ allowed, trimEndSlashes entry.toList = trimEndSlashes origin.toList := by
  have hcontains : ∀ text : String,
      allowed.contains (String.ofList (trimEndSlashes text.toList)) = true ↔
        ∃ entry ∈ allowed, trimEndSlashes entry.toList = trimEndSlashes text.toList := by
    intro text
    rw [List.contains_iff_mem]
    constructor
    · intro hmem
      refine ⟨_, hmem, ?_⟩
      rw [trimEndSlashes_of_fromEnv hbuilt hmem, String.toList_ofList]
    · rintro ⟨entry, hentry, heq⟩
      rw [← heq, trimEndSlashes_of_fromEnv hbuilt hentry, String.ofList_toList]
      exact hentry
  rw [Option.bind_eq_some_iff]
  constructor
  · rintro ⟨text, htext, hmatch⟩
    simp only [CorsConfig.matchOrigin] at hmatch
    split at hmatch
    next hmem =>
      obtain rfl := Option.some.inj hmatch
      exact ⟨htext, (hcontains text).mp hmem⟩
    next => contradiction
  · rintro ⟨htext, hallowed⟩
    refine ⟨origin, htext, ?_⟩
    simp only [CorsConfig.matchOrigin, (hcontains origin).mpr hallowed, if_true]

theorem matchedOrigin_eq_none (hbuilt : CorsConfig.fromEnv value = .origins allowed)
    (hdenied : ¬ OriginAllowed allowed req) :
    req.origin.bind (CorsConfig.origins allowed).matchOrigin = none := by
  rw [Option.eq_none_iff_forall_ne_some]
  intro origin hmatched
  obtain ⟨horigin, hentry⟩ := (matchedOrigin_eq_some_iff hbuilt).mp hmatched
  exact hdenied ⟨origin, horigin, hentry⟩

/-- An allowed origin is reflected as it came. -/
theorem allowOrigin_of_origin {origin : String} {field : HeaderValue}
    (hfield : req.headers.get "origin" = some field) (horigin : req.origin = some origin) :
    allowOrigin origin = field := by
  rw [CorsRequest.origin, hfield, Option.bind_some] at horigin
  rw [allowOrigin, HeaderValue.fromStr_of_toStr horigin, Option.getD_some]

/-- The fields a reply starts with: a preflight is answered from none. -/
def startingFields (req : CorsRequest) (inner : Response) : HeaderMap :=
  if req.isPreflight then [] else inner.headers

/-- Of a reply's fields the origins are varied, and a matched origin takes the
place of what they grant; otherwise that stands. -/
theorem corsMiddleware_fields (allowed : List String) (req : CorsRequest) (inner : Response) :
    (corsMiddleware (.origins allowed) req inner).headers.getAll "vary" =
        (varyOrigin (startingFields req inner)).getAll "vary" ∧
      (corsMiddleware (.origins allowed) req inner).headers.getAll "access-control-allow-origin" =
        match req.origin.bind (CorsConfig.origins allowed).matchOrigin with
        | some origin => [allowOrigin origin]
        | none => (startingFields req inner).getAll "access-control-allow-origin" := by
  have henabled : (CorsConfig.origins allowed).isEnabled = true := rfl
  have horigins : (CorsConfig.origins allowed).isOrigins = true := rfl
  rw [corsMiddleware, henabled, if_neg (by decide), startingFields]
  cases hpreflight : req.isPreflight with
  | true =>
      simp only [if_true, preflightResponse, horigins]
      cases req.origin.bind (CorsConfig.origins allowed).matchOrigin with
      | none => exact ⟨rfl, getAll_varyOrigin_of_ne (by decide) []⟩
      | some origin =>
          simp only
          constructor
          · rw [HeaderMap.getAll_insert_of_ne (by decide),
              HeaderMap.getAll_insert_of_ne (by decide),
              HeaderMap.getAll_insert_of_ne (by decide),
              HeaderMap.getAll_insert_of_ne (by decide)]
          · rw [HeaderMap.getAll_insert_of_ne (by decide),
              HeaderMap.getAll_insert_of_ne (by decide),
              HeaderMap.getAll_insert_of_ne (by decide), HeaderMap.getAll_insert_self]
  | false =>
      simp only [Bool.false_eq_true, if_false, horigins, if_true]
      cases req.origin.bind (CorsConfig.origins allowed).matchOrigin with
      | none => exact ⟨rfl, getAll_varyOrigin_of_ne (by decide) inner.headers⟩
      | some origin =>
          simp only
          constructor
          · rw [HeaderMap.getAll_insert_of_ne (by decide),
              HeaderMap.getAll_insert_of_ne (by decide)]
          · rw [HeaderMap.getAll_insert_of_ne (by decide), HeaderMap.getAll_insert_self]

theorem corsMiddleware_variesByOrigin (allowed : List String) (req : CorsRequest)
    (inner : Response) :
    ∃ field ∈ (corsMiddleware (.origins allowed) req inner).headers.getAll "vary",
      variesByOrigin field = true := by
  rw [(corsMiddleware_fields allowed req inner).1]
  exact variesByOrigin_varyOrigin _

theorem corsMiddleware_keepsVary (allowed : List String) (inner : Response)
    (hordinary : req.isPreflight = false) :
    inner.headers.getAll "vary" <+:
      (corsMiddleware (.origins allowed) req inner).headers.getAll "vary" := by
  have hstart : startingFields req inner = inner.headers := by
    rw [startingFields, hordinary, if_neg (by decide)]
  rw [(corsMiddleware_fields allowed req inner).1, hstart]
  exact getAll_varyOrigin_prefix inner.headers

theorem startingFields_grantNothing_iff (req : CorsRequest) (inner : Response) :
    (startingFields req inner).getAll "access-control-allow-origin" = [] ↔
      req.isPreflight = true ∨ inner.headers.getAll "access-control-allow-origin" = [] := by
  rw [startingFields]
  cases req.isPreflight with
  | true => simp [HeaderMap.getAll]
  | false => simp

theorem corsMiddleware_reflects (hbuilt : CorsConfig.fromEnv value = .origins allowed)
    (hallowed : OriginAllowed allowed req) {field : HeaderValue}
    (hfield : req.headers.get "origin" = some field) :
    (corsMiddleware (.origins allowed) req inner).headers.getAll
      "access-control-allow-origin" = [field] := by
  obtain ⟨origin, horigin, hentry⟩ := hallowed
  rw [(corsMiddleware_fields allowed req inner).2,
    (matchedOrigin_eq_some_iff hbuilt).mpr ⟨horigin, hentry⟩]
  exact congrArg (fun held => [held]) (allowOrigin_of_origin hfield horigin)

theorem corsMiddleware_passesOn (hbuilt : CorsConfig.fromEnv value = .origins allowed)
    (hdenied : ¬ OriginAllowed allowed req) :
    (corsMiddleware (.origins allowed) req inner).headers.getAll "access-control-allow-origin" =
      (startingFields req inner).getAll "access-control-allow-origin" := by
  rw [(corsMiddleware_fields allowed req inner).2, matchedOrigin_eq_none hbuilt hdenied]

/-- The list decides who may read a reply exactly when the origin is allowed, the
request is a preflight, or the inner response grants nothing itself: what it
grants is replaced for an allowed origin and passed on to all others. -/
theorem corsMiddleware_sharesByList_iff
    (hbuilt : CorsConfig.fromEnv value = .origins allowed) :
    SharesByList allowed req inner (corsMiddleware (.origins allowed) req inner) ↔
      OriginAllowed allowed req ∨ req.isPreflight = true ∨
        inner.headers.getAll "access-control-allow-origin" = [] := by
  rw [← startingFields_grantNothing_iff]
  constructor
  · intro hshares
    by_cases hallowed : OriginAllowed allowed req
    · exact Or.inl hallowed
    · have hdenied := mt hshares.granted.mp hallowed
      rw [HeaderMap.containsKey_iff, not_not, corsMiddleware_passesOn hbuilt hallowed] at hdenied
      exact Or.inr hdenied
  · intro hholds
    refine ⟨⟨fun hgranted => ?_, fun hallowed => ?_⟩,
      fun hallowed _ hfield => corsMiddleware_reflects hbuilt hallowed hfield,
      corsMiddleware_variesByOrigin allowed req inner, corsMiddleware_keepsVary allowed inner⟩
    · by_contra hallowed
      rw [HeaderMap.containsKey_iff, corsMiddleware_passesOn hbuilt hallowed] at hgranted
      exact hgranted (hholds.resolve_left hallowed)
    · obtain ⟨_, hread, _⟩ := id hallowed
      obtain ⟨field, hfield, _⟩ := Option.bind_eq_some_iff.mp hread
      rw [HeaderMap.containsKey_iff, corsMiddleware_reflects hbuilt hallowed hfield]
      exact List.cons_ne_nil _ _

end Origins

namespace CorsWitness

def shop : List String := ["https://shop.example"]

theorem built : CorsConfig.fromEnv (some "https://shop.example/") = .origins shop := by
  decide +kernel

def request (origin : String) : CorsRequest := ⟨"GET", [("origin", .fromStatic origin)]⟩

/-- An upstream response that every origin may read. -/
def upstream : Response :=
  ⟨200, buyerHeaders [("access-control-allow-origin", .fromStatic "*")], []⟩

theorem shop_sharesByList : SharesByList shop (request "https://shop.example") upstream
    (corsMiddleware (.origins shop) (request "https://shop.example") upstream) := by
  refine (corsMiddleware_sharesByList_iff built).mpr (Or.inl ?_)
  exact ⟨"https://shop.example", by decide +kernel, "https://shop.example",
    List.mem_singleton_self _, rfl⟩

theorem stranger_not_sharesByList :
    CorsConfig.fromEnv (some "https://shop.example/") = .origins shop ∧
    ¬ SharesByList shop (request "https://stranger.example") upstream
      (corsMiddleware (.origins shop) (request "https://stranger.example") upstream) := by
  refine ⟨built, fun hshares => ?_⟩
  have hgranted : (corsMiddleware (.origins shop) (request "https://stranger.example")
      upstream).headers.containsKey "access-control-allow-origin" = true := by decide +kernel
  have hread : (request "https://stranger.example").origin = some "https://stranger.example" := by
    decide +kernel
  obtain ⟨origin, horigin, entry, hentry, heq⟩ := hshares.granted.mp hgranted
  obtain rfl := Option.some.inj (hread.symm.trans horigin)
  rw [List.mem_singleton.mp hentry] at heq
  exact absurd heq (by decide +kernel)

end CorsWitness

end KiteX402
