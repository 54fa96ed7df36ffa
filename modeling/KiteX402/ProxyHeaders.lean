/-
The headers that the proxy passes on: to the upstream without the fields of
this hop and of the payment, and with its credential; back without the fields
of that hop.
-/
import KiteX402.Http
import KiteX402.Proxy

namespace KiteX402

def hopByHop : List String :=
  ["connection", "proxy-authenticate", "proxy-authorization", "keep-alive",
    "transfer-encoding", "te", "trailer", "upgrade", "host", "content-length"]

def paymentHeaders : List String := ["payment-signature", "x-payment"]

/-- The fields that the connection options of a message name. -/
def connectionOptions (values : List String) : List String :=
  ((values.flatMap fun value => value.toList.splitOn ',').map
    fun option => toAsciiLowercase (String.ofList (trim option))).filter (· ≠ "")

/-- An empty credential is none. -/
structure UpstreamConfig where
  baseUrl : String
  authHeader : String
  authValue : String

/-- The loop over the fields of a message; `dropped` sees their names in lower
case. -/
def passFields (dropped : String → Bool) (headers : HeaderMap) : HeaderMap :=
  headers.foldl (fun out field =>
    if dropped (toAsciiLowercase field.1) then out
    else
      match headerName field.1, HeaderValue.fromBytes field.2.bytes with
      | some name, some value => out.append name value
      | _, _ => out) []

def messageOptions (headers : HeaderMap) : List String :=
  connectionOptions ((headers.getAll "connection").filterMap HeaderValue.toStr)

/-- The headers of the request to the upstream. -/
def upstreamHeaders (cfg : UpstreamConfig) (headers : HeaderMap) : HeaderMap :=
  let options := messageOptions headers
  let out := passFields (fun lower =>
    hopByHop.contains lower || paymentHeaders.contains lower || options.contains lower) headers
  if cfg.authValue ≠ "" then
    match headerName cfg.authHeader, HeaderValue.fromStr cfg.authValue with
    | some name, some value => out.insert name value
    | _, _ => out
  else out

/-- The headers of the answer to the buyer. -/
def buyerHeaders (headers : HeaderMap) : HeaderMap :=
  let options := messageOptions headers
  passFields (fun lower => hopByHop.contains lower || options.contains lower) headers

section Forwarding

/-- The fields that stay are those of the message, in their order. -/
theorem passFields_eq_filter (dropped : String → Bool) {headers : HeaderMap}
    (hvalid : headers.Valid) :
    passFields dropped headers =
      headers.filter fun field => !dropped (toAsciiLowercase field.1) := by
  have hloop : ∀ out : HeaderMap, headers.foldl (fun out field =>
      if dropped (toAsciiLowercase field.1) then out
      else
        match headerName field.1, HeaderValue.fromBytes field.2.bytes with
        | some name, some value => out.append name value
        | _, _ => out) out =
      out ++ headers.filter fun field => !dropped (toAsciiLowercase field.1) := by
    induction headers with
    | nil => exact fun out => (List.append_nil out).symm
    | cons field rest ih =>
        intro out
        obtain ⟨⟨hname, hvalue⟩, hrest⟩ := List.forall_mem_cons.mp hvalid
        rw [List.foldl_cons, hname, hvalue, ih hrest]
        cases hdropped : dropped (toAsciiLowercase field.1) with
        | true => simp [hdropped]
        | false => simp [hdropped, HeaderMap.append]
  exact hloop []

/-- A readable `Connection` field names a field as an option. -/
def NamedByConnection (headers : HeaderMap) (name : String) : Prop :=
  ∃ value ∈ headers.getAll "connection", ∃ text, value.toStr = some text ∧
    ∃ option ∈ text.toList.splitOn ',', trim option ≠ [] ∧
      toAsciiLowercase (String.ofList (trim option)) = toAsciiLowercase name

theorem toAsciiLowercase_eq_empty_iff {text : List Char} :
    toAsciiLowercase (String.ofList text) = "" ↔ text = [] := by
  rw [toAsciiLowercase_eq, String.toList_ofList, String.ofList_eq_empty_iff,
    List.map_eq_nil_iff]

theorem mem_messageOptions (headers : HeaderMap) (name : String) :
    toAsciiLowercase name ∈ messageOptions headers ↔ NamedByConnection headers name := by
  simp only [messageOptions, connectionOptions, List.mem_filter, List.mem_map, List.mem_flatMap,
    List.mem_filterMap, decide_eq_true_eq, NamedByConnection]
  constructor
  · rintro ⟨⟨option, ⟨text, ⟨value, hvalue, htext⟩, hoption⟩, hlower⟩, hne⟩
    refine ⟨value, hvalue, text, htext, option, hoption, ?_, hlower⟩
    rwa [← hlower, ne_eq, toAsciiLowercase_eq_empty_iff] at hne
  · rintro ⟨value, hvalue, text, htext, option, hoption, hne, hlower⟩
    refine ⟨⟨option, ⟨text, ⟨value, hvalue, htext⟩, hoption⟩, hlower⟩, ?_⟩
    rwa [← hlower, ne_eq, toAsciiLowercase_eq_empty_iff]

/-- The fields that end at this hop. -/
def DroppedAtHop (headers : HeaderMap) (name : String) : Prop :=
  toAsciiLowercase name ∈ hopByHop ∨ NamedByConnection headers name

/-- The field that the configured credential stands in. -/
def IsCredential (cfg : UpstreamConfig) (name : String) : Prop :=
  cfg.authValue ≠ "" ∧ headerName cfg.authHeader = some name

/-- The headers handed to the upstream: those of the request less the fields of
the hop and of the payment, and the credential in its field alone. -/
structure ForwardsRequest (cfg : UpstreamConfig) (headers out : HeaderMap) : Prop where
  credential : ∀ name value, IsCredential cfg name →
    HeaderValue.fromStr cfg.authValue = some value → out.getAll name = [value]
  dropped : ∀ name, ¬ IsCredential cfg name →
    toAsciiLowercase name ∈ paymentHeaders ∨ DroppedAtHop headers name → out.getAll name = []
  kept : ∀ name, ¬ IsCredential cfg name →
    ¬ (toAsciiLowercase name ∈ paymentHeaders ∨ DroppedAtHop headers name) →
      out.getAll name = headers.getAll name

/-- The headers handed back: those of the answer less the fields of the hop. -/
structure ForwardsResponse (headers out : HeaderMap) : Prop where
  dropped : ∀ name, DroppedAtHop headers name → out.getAll name = []
  kept : ∀ name, ¬ DroppedAtHop headers name → out.getAll name = headers.getAll name

variable {cfg : UpstreamConfig} {headers : HeaderMap}

/-- The fields of a name after the loop: all of them, or none. -/
theorem getAll_passFields (dropped : String → Bool) (hvalid : headers.Valid) (name : String) :
    (passFields dropped headers).getAll name =
      if dropped (toAsciiLowercase name) then [] else headers.getAll name := by
  rw [passFields_eq_filter dropped hvalid,
    HeaderMap.getAll_filter fun name => !dropped (toAsciiLowercase name)]
  cases dropped (toAsciiLowercase name) <;> rfl

/-- The credential is inserted behind the loop, and only where it is
configured. -/
theorem getAll_upstreamHeaders_of_not_credential {name : String}
    (hname : ¬ IsCredential cfg name) (hvalid : headers.Valid) :
    (upstreamHeaders cfg headers).getAll name =
      if hopByHop.contains (toAsciiLowercase name) ||
          paymentHeaders.contains (toAsciiLowercase name) ||
          (messageOptions headers).contains (toAsciiLowercase name) then []
      else headers.getAll name := by
  rw [← getAll_passFields (fun lower => hopByHop.contains lower || paymentHeaders.contains lower ||
    (messageOptions headers).contains lower) hvalid, upstreamHeaders]
  by_cases hauth : cfg.authValue ≠ ""
  · rw [if_pos hauth]
    split
    next credential value hcredential _ =>
      have hne : name ≠ credential := by
        rintro rfl
        exact hname ⟨hauth, hcredential⟩
      exact HeaderMap.getAll_insert_of_ne hne _ _
    next => rfl
  · rw [if_neg hauth]

theorem getAll_upstreamHeaders_of_credential {name : String} {value : HeaderValue}
    (hname : IsCredential cfg name) (hvalue : HeaderValue.fromStr cfg.authValue = some value) :
    (upstreamHeaders cfg headers).getAll name = [value] := by
  rw [upstreamHeaders, if_pos hname.1, hname.2, hvalue]
  exact HeaderMap.getAll_insert_self _ _ _

theorem dropped_iff (headers : HeaderMap) (name : String) :
    (hopByHop.contains (toAsciiLowercase name) ||
      (messageOptions headers).contains (toAsciiLowercase name)) = true ↔
        DroppedAtHop headers name := by
  rw [Bool.or_eq_true, List.contains_iff_mem, List.contains_iff_mem, mem_messageOptions]
  rfl

theorem dropped_or_payment_iff (headers : HeaderMap) (name : String) :
    (hopByHop.contains (toAsciiLowercase name) ||
      paymentHeaders.contains (toAsciiLowercase name) ||
      (messageOptions headers).contains (toAsciiLowercase name)) = true ↔
        toAsciiLowercase name ∈ paymentHeaders ∨ DroppedAtHop headers name := by
  rw [Bool.or_eq_true, Bool.or_eq_true, List.contains_iff_mem, List.contains_iff_mem,
    List.contains_iff_mem, mem_messageOptions, DroppedAtHop]
  tauto

/-- Nothing but the fields of the hop and of the payment is lost on the way to
the upstream, which sees no credential but the configured one; nothing but the
fields of the hop is lost on the way back. -/
theorem proxy_forwards {answer : HeaderMap} (hvalid : headers.Valid) (hanswer : answer.Valid) :
    ForwardsRequest cfg headers (upstreamHeaders cfg headers) ∧
      ForwardsResponse answer (buyerHeaders answer) := by
  refine ⟨⟨?_, ?_, ?_⟩, ?_, ?_⟩
  · intro name value hname hvalue
    exact getAll_upstreamHeaders_of_credential hname hvalue
  · intro name hname hdropped
    rw [getAll_upstreamHeaders_of_not_credential hname hvalid,
      if_pos ((dropped_or_payment_iff headers name).mpr hdropped)]
  · intro name hname hkept
    rw [getAll_upstreamHeaders_of_not_credential hname hvalid,
      if_neg (fun h => hkept ((dropped_or_payment_iff headers name).mp h))]
  · intro name hdropped
    rw [buyerHeaders, getAll_passFields _ hanswer, if_pos ((dropped_iff answer name).mpr hdropped)]
  · intro name hkept
    rw [buyerHeaders, getAll_passFields _ hanswer,
      if_neg (fun h => hkept ((dropped_iff answer name).mp h))]

end Forwarding

namespace ForwardingWitness

def cfg : UpstreamConfig := ⟨"https://api.example.com", "Authorization", "Bearer key"⟩

/-- The buyer names its payment, its trace and the credential as options. -/
def headers : HeaderMap :=
  [("connection", .fromStatic "close, X-Trace"), ("x-trace", .fromStatic "1"),
    ("accept", .fromStatic "text/html"), ("authorization", .fromStatic "Bearer buyer"),
    ("x-payment", .fromStatic "signed"), ("accept", .fromStatic "text/plain"),
    ("connection", .fromStatic "authorization")]

example : messageOptions headers = ["close", "x-trace", "authorization"] := by decide +kernel

theorem headers_valid : headers.Valid := by
  simp only [HeaderMap.Valid]
  decide +kernel

theorem forwards : ForwardsRequest cfg headers (upstreamHeaders cfg headers) ∧
    ForwardsResponse headers (buyerHeaders headers) :=
  proxy_forwards headers_valid headers_valid

end ForwardingWitness

end KiteX402
