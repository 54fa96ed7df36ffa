/-
What a paid reply lets caches do: the directives of the handler's response, and
`private`.
-/
import KiteX402.GateTrace
import KiteX402.WireAgreement

namespace KiteX402

/-- The elements of a field that holds a list. -/
def HeaderValue.elements (value : HeaderValue) : List String :=
  listElements (value.toStr.getD "")

/-- The directives of all `Cache-Control` fields. -/
def cacheDirectives (headers : HeaderMap) : List String :=
  (headers.getAll "cache-control").flatMap HeaderValue.elements

/-- The fields that the gate writes in a paid reply. -/
def receiptFields : List String := ["payment-response", "cache-control"]

/-- The fields of a paid reply that the gate leaves alone. -/
def otherFields (headers : HeaderMap) : HeaderMap :=
  headers.filter fun field => !receiptFields.contains field.1

/-- A reply caches as the response asked, and is private; what the gate does not
write is as the handler sent it. -/
structure MergesPrivate (response reply : Response) : Prop where
  directives : ∀ directive, directive ∈ cacheDirectives reply.headers ↔
    directive ∈ cacheDirectives response.headers ∨ directive = "private"
  others : otherFields reply.headers = otherFields response.headers

/-- The lines after the first have no directive of their own but `private`. -/
def FirstLineSuffices (headers : HeaderMap) : Prop :=
  ∀ first later, headers.getAll "cache-control" = first :: later →
    ∀ value ∈ later, ∀ directive ∈ value.elements,
      directive ∈ first.elements ∨ directive = "private"

section Merge

variable {headers : HeaderMap} {codec : Codec} {response : Response} {settle : SettleResponse}

/-- The text that the gate writes as `Cache-Control`. -/
def mergedCacheControl (headers : HeaderMap) : String :=
  match (headers.get "cache-control").bind HeaderValue.toStr with
  | some existing => if existing.isEmpty then "private" else existing ++ ", private"
  | none => "private"

theorem settledResponse_headers (codec : Codec) (response : Response)
    (settle : SettleResponse) :
    (settledResponse codec response settle).headers =
      (response.headers.insert "payment-response"
        (Codec.headerValue (codec.encodeSettleResponse settle))).insert "cache-control"
          ((HeaderValue.fromStr (mergedCacheControl response.headers)).getD
            (.fromStatic "private")) := by
  rw [mergedCacheControl, ← HeaderMap.get_insert_of_ne response.headers
    (show "cache-control" ≠ "payment-response" by decide)
    (Codec.headerValue (codec.encodeSettleResponse settle))]
  rfl

theorem isText_mergedCacheControl (headers : HeaderMap) :
    HeaderValue.IsText (mergedCacheControl headers) := by
  have hprivate : HeaderValue.IsText ", private" := by decide
  have halone : HeaderValue.IsText "private" := by decide
  unfold mergedCacheControl
  split
  next existing hexisting =>
    split
    · exact halone
    · obtain ⟨value, _, htext⟩ := Option.bind_eq_some_iff.mp hexisting
      intro c hc
      rw [String.toList_append, List.mem_append] at hc
      exact hc.elim (HeaderValue.isText_of_toStr htext c) (hprivate c)
  next => exact halone

/-- The merged field has the directives of the first line, and `private`. -/
theorem mem_mergedCacheControl (headers : HeaderMap) (directive : String) :
    directive ∈ listElements (mergedCacheControl headers) ↔
      (∃ first ∈ (headers.getAll "cache-control").head?, directive ∈ first.elements) ∨
        directive = "private" := by
  have halone : listElements "private" = ["private"] := by decide +kernel
  have hmerge : listElements " private" = ["private"] := by decide +kernel
  rw [mergedCacheControl, HeaderMap.get_eq_head?_getAll]
  cases hfirst : (headers.getAll "cache-control").head? with
  | none => simp [halone]
  | some first =>
      cases htext : first.toStr with
      | none =>
          have hempty : first.elements = [] := by
            rw [HeaderValue.elements, htext]
            decide +kernel
          simp [htext, halone, hempty]
      | some existing =>
          have helements : first.elements = listElements existing := by
            rw [HeaderValue.elements, htext, Option.getD_some]
          simp only [Option.bind_some, htext, Option.mem_def, Option.some.injEq, exists_eq_left',
            helements]
          by_cases hempty : existing.isEmpty = true
          · rw [if_pos hempty, String.isEmpty_iff.mp hempty, halone, List.mem_singleton]
            have hnone : listElements "" = [] := by decide +kernel
            simp [hnone]
          · have hsplit : existing ++ ", private" = existing ++ "," ++ " private" := by
              rw [String.append_assoc]
              rfl
            rw [if_neg hempty, hsplit, listElements_append, hmerge, List.mem_append,
              List.mem_singleton]

theorem mem_cacheDirectives_settledResponse (directive : String) :
    directive ∈ cacheDirectives (settledResponse codec response settle).headers ↔
      (∃ first ∈ (response.headers.getAll "cache-control").head?, directive ∈ first.elements) ∨
        directive = "private" := by
  obtain ⟨hfrom, hto⟩ := HeaderValue.toStr_fromStr (isText_mergedCacheControl response.headers)
  rw [← mem_mergedCacheControl, cacheDirectives, settledResponse_headers,
    HeaderMap.getAll_insert_self, hfrom, Option.getD_some, List.flatMap_singleton,
    HeaderValue.elements, hto, Option.getD_some]

theorem otherFields_settledResponse (codec : Codec) (response : Response)
    (settle : SettleResponse) :
    otherFields (settledResponse codec response settle).headers =
      otherFields response.headers := by
  rw [settledResponse_headers, otherFields,
    HeaderMap.filter_insert (fun name => !receiptFields.contains name) rfl,
    HeaderMap.filter_insert (fun name => !receiptFields.contains name) rfl]
  rfl

/-- The merge keeps all directives exactly when the first line has them all. -/
theorem mergesPrivate_settledResponse_iff :
    MergesPrivate response (settledResponse codec response settle) ↔
      FirstLineSuffices response.headers := by
  constructor
  · intro hmerges first later hlines value hvalue directive hdirective
    have hmem : directive ∈ cacheDirectives response.headers := by
      rw [cacheDirectives, hlines, List.mem_flatMap]
      exact ⟨value, List.mem_cons_of_mem _ hvalue, hdirective⟩
    have hkept := mem_cacheDirectives_settledResponse directive |>.mp
      ((hmerges.directives directive).mpr (Or.inl hmem))
    rw [hlines] at hkept
    exact hkept.imp_left fun ⟨line, hline, hin⟩ => Option.some.inj hline ▸ hin
  · intro hsuffices
    refine ⟨fun directive => ?_, otherFields_settledResponse codec response settle⟩
    rw [mem_cacheDirectives_settledResponse, cacheDirectives]
    cases hlines : response.headers.getAll "cache-control" with
    | nil => simp
    | cons first later =>
        rw [List.head?_cons, List.flatMap_cons, List.mem_append]
        constructor
        · rintro (⟨line, hline, hin⟩ | hprivate)
          · exact Or.inl (Or.inl (Option.some.inj hline ▸ hin))
          · exact Or.inr hprivate
        · rintro ((hfirst | hlater) | hprivate)
          · exact Or.inl ⟨first, rfl, hfirst⟩
          · obtain ⟨value, hvalue, hdirective⟩ := List.mem_flatMap.mp hlater
            exact (hsuffices first later hlines value hvalue directive hdirective).imp_left
              fun hin => ⟨first, rfl, hin⟩
          · exact Or.inr hprivate

end Merge

section Gate

variable {rt : Runtime} {cfg : PaymentConfig} {req : Request} {world : GateWorld}
  {attempt : PaymentAttempt} {response reply : Response} {now : Instant}
  {settle : SettleResponse} {elapsed : Duration}

/-- A response that is settled is replied with the receipt. -/
theorem reply_eq_settledResponse (hsuccess : settle.success = true)
    (hreply : .replied reply ∈ (gateStep rt cfg req world (.settling attempt response) now
      (.settled (.ok settle) elapsed)).2) :
    reply = settledResponse rt.codec response settle := by
  simp only [gateStep, afterSettle, hsuccess, if_true, finish] at hreply
  split at hreply <;> simpa using hreply

/-- A paid reply has all directives of the handler's response exactly when that
has them in its first line: the gate reads no other, and replaces them all. -/
theorem paidReply_mergesPrivate_iff (hsuccess : settle.success = true)
    (hreply : .replied reply ∈ (gateStep rt cfg req world (.settling attempt response) now
      (.settled (.ok settle) elapsed)).2) :
    MergesPrivate response reply ↔ FirstLineSuffices response.headers := by
  rw [reply_eq_settledResponse hsuccess hreply]
  exact mergesPrivate_settledResponse_iff

end Gate

namespace CacheWitness

open WireWitness

def world : GateWorld := ⟨.empty, .new⟩

def attempt : PaymentAttempt where
  payload := ⟨2, none, WireWitness.required, Value.ofJson signature, none⟩
  requirements := WireWitness.required
  reservation := none

def settle : SettleResponse := ⟨true, none, none, some "0xabc", "0x01",
  WireWitness.required.network, none⟩

/-- A response of the handler with these lines of `Cache-Control`. -/
def response (lines : List String) : Response :=
  ⟨200, lines.map fun line => ("cache-control", HeaderValue.fromStatic line), []⟩

def request : Request := ⟨"/v1/forecast", none, []⟩

theorem replied (lines : List String) :
    .replied (settledResponse runtime.codec (response lines) settle) ∈
      (gateStep runtime route request world (.settling attempt (response lines)) 0
        (.settled (.ok settle) 0)).2 := by
  simp [gateStep, afterSettle, finish, settle, route, PaymentConfig.new]

/-- Lines that say nothing new. -/
def repeated : List String := ["public, max-age=60", "max-age=60", "private"]

/-- The later lines may go, as the first has all they say but `private`. -/
theorem repeated_mergesPrivate : MergesPrivate (response repeated)
    (settledResponse runtime.codec (response repeated) settle) := by
  refine (paidReply_mergesPrivate_iff rfl (replied _)).mpr ?_
  intro first later hlines
  obtain ⟨rfl, rfl⟩ := List.cons.inj hlines
  decide +kernel

/-- The `no-store` on a line of its own is lost, and the reply may be stored. -/
theorem split_not_mergesPrivate :
    (∀ field ∈ (response ["max-age=60", "no-store"]).headers, field.2.toStr.isSome = true) ∧
    .replied (settledResponse runtime.codec (response ["max-age=60", "no-store"]) settle) ∈
      (gateStep runtime route request world
        (.settling attempt (response ["max-age=60", "no-store"])) 0
          (.settled (.ok settle) 0)).2 ∧
    ¬ MergesPrivate (response ["max-age=60", "no-store"])
      (settledResponse runtime.codec (response ["max-age=60", "no-store"]) settle) := by
  refine ⟨by decide +kernel, replied _, fun hmerges => ?_⟩
  have hreply := (hmerges.directives "no-store").mpr (Or.inl (by decide +kernel))
  rw [mem_cacheDirectives_settledResponse] at hreply
  revert hreply
  decide +kernel

end CacheWitness

end KiteX402
