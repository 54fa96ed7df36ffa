/-
Which client a request is counted for, behind proxies that are trusted to
forward.
-/
import KiteX402.Http
import KiteX402.IpAddress
import KiteX402.TrustWalk

namespace KiteX402

/-- A network is no longer than its addresses. -/
structure IpNetwork where
  address : IpAddr
  prefixLen : ℕ
  prefixLen_le : prefixLen ≤ address.bits
deriving DecidableEq

abbrev TrustedProxies := List IpNetwork

/-- `str::parse::<u8>`. -/
def parseU8 (text : List Char) : Option ℕ :=
  (parseU64 text).bind fun value => if value.toNat < 2 ^ 8 then some value.toNat else none

def IpNetwork.parse (text : List Char) : Option IpNetwork :=
  let (address, rest) := text.span (· ≠ '/')
  let prefixLen? := match rest with
    | [] => some none
    | _ :: digits => (parseU8 digits).map some
  prefixLen?.bind fun prefixLen => (IpAddr.parse address).bind fun address =>
    let prefixLen := prefixLen.getD address.bits
    if hle : prefixLen ≤ address.bits then
      match address, hle with
      | .v4 bits, hle => some ⟨.v4 bits, prefixLen, hle⟩
      | .v6 bits, hle =>
          match IpAddr.toIpv4Mapped bits with
          -- a mapped network has to be one of mapped addresses only
          | some mapped =>
              if 96 ≤ prefixLen then
                some ⟨.v4 mapped, prefixLen - 96, Nat.sub_le_sub_right hle 96⟩
              else none
          | none => some ⟨.v6 bits, prefixLen, hle⟩
    else none

namespace TrustedProxies

def parse (value : String) : Except String TrustedProxies :=
  if trim value.toList = [] then .ok []
  else
    match (value.toList.splitOn ',').mapM fun entry => IpNetwork.parse (trim entry) with
    | some networks => .ok networks
    | none => .error
        "RATE_LIMIT_TRUSTED_PROXIES must contain comma-separated IP addresses or CIDRs"

def contains (proxies : TrustedProxies) (ip : IpAddr) : Bool :=
  let ip := normalizeIp ip
  proxies.any fun network =>
    match network.address, ip with
    | .v4 networkIp, .v4 ip => network.prefixLen = 0 ||
        networkIp >>> (32 - network.prefixLen) = ip >>> (32 - network.prefixLen)
    | .v6 networkIp, .v6 ip => network.prefixLen = 0 ||
        networkIp >>> (128 - network.prefixLen) = ip >>> (128 - network.prefixLen)
    | _, _ => false

end TrustedProxies

/-- How the loop over the hops of one field ends. -/
inductive FieldScan where
  | returned (client : IpAddr)
  | failed
  | finished (client : IpAddr)

/-- The hops of one field, from right to left. -/
def scanHops (proxies : TrustedProxies) (client : IpAddr) : List (List Char) → FieldScan
  | [] => .finished client
  | hop :: rest =>
      if proxies.contains client = false then .returned client
      else
        match IpAddr.parse (trim hop) with
        | none => .failed
        | some ip => scanHops proxies (normalizeIp ip) rest

/-- The fields, from the last one back. -/
def scanFields (proxies : TrustedProxies) (client : IpAddr) : List HeaderValue → Option IpAddr
  | [] => some client
  | value :: rest =>
      if proxies.contains client = false then some client
      else
        match value.toStr with
        | none => none
        | some text =>
            match scanHops proxies client (text.toList.splitOn ',').reverse with
            | .returned client => some client
            | .failed => none
            | .finished client => scanFields proxies client rest

/-- `none` is a request whose client cannot be told. -/
def clientIp (headers : HeaderMap) (peer : IpAddr) (proxies : TrustedProxies) :
    Option IpAddr :=
  let client := normalizeIp peer
  if proxies.contains client = false then some client
  else if headers.containsKey "x-forwarded-for" then
    scanFields proxies client (headers.getAll "x-forwarded-for").reverse
  else
    match headers.get "x-real-ip" with
    | some value =>
        if (headers.getAll "x-real-ip").length ≠ 1 then none
        else value.toStr.bind fun text => (IpAddr.parse (trim text.toList)).map normalizeIp
    | none => some client

/-- The address that a hop stands for. -/
def readHop (hop : List Char) : Option IpAddr := (IpAddr.parse (trim hop)).map normalizeIp

/-- The hops of one field, in order. -/
def fieldHops (value : HeaderValue) : List (List Char) :=
  (value.toStr.getD "").toList.splitOn ','

/-- The hops of all `X-Forwarded-For` fields, in order. -/
def forwardedHops (headers : HeaderMap) : List (List Char) :=
  (headers.getAll "x-forwarded-for").flatMap fieldHops

namespace TrustedProxies

variable (proxies : TrustedProxies)

def Trusts (ip : IpAddr) : Prop := proxies.contains ip = true

instance (ip : IpAddr) : Decidable (proxies.Trusts ip) :=
  inferInstanceAs (Decidable (_ = true))

theorem not_trusts_iff {ip : IpAddr} : ¬ proxies.Trusts ip ↔ proxies.contains ip = false := by
  rw [Trusts, Bool.not_eq_true]

/-- The loop over one field is a walk over its hops. -/
theorem scanHops_walks (client : IpAddr) (hops : List (List Char)) :
    match scanHops proxies client hops with
    | .returned ip => trustWalk readHop proxies.Trusts client hops = some ip ∧ ¬ proxies.Trusts ip
    | .failed => trustWalk readHop proxies.Trusts client hops = none
    | .finished ip => trustWalk readHop proxies.Trusts client hops = some ip := by
  induction hops generalizing client with
  | nil => rfl
  | cons hop rest ih =>
      by_cases hclient : proxies.contains client = false
      · have hnot := proxies.not_trusts_iff.mpr hclient
        simp only [scanHops, hclient, if_true]
        exact ⟨trustWalk_of_not_trusted hnot _, hnot⟩
      · have hcontains : proxies.contains client = true := by simpa using hclient
        have htrusts : proxies.Trusts client := hcontains
        cases hparse : IpAddr.parse (trim hop) with
        | none =>
            have hread : readHop hop = none := by rw [readHop, hparse, Option.map_none]
            simp only [scanHops, hcontains, Bool.true_eq_false, if_false, hparse, trustWalk,
              htrusts, if_true, hread]
        | some ip =>
            have hread : readHop hop = some (normalizeIp ip) := by
              rw [readHop, hparse, Option.map_some]
            have hrest := ih (normalizeIp ip)
            simpa only [scanHops, hcontains, Bool.true_eq_false, if_false, hparse,
              trustWalk_cons_of_passes htrusts hread] using hrest

/-- The two loops together are one walk over the hops of all fields. -/
theorem scanFields_eq_trustWalk (client : IpAddr) (values : List HeaderValue)
    (hvisible : ∀ value ∈ values, value.toStr.isSome = true) :
    scanFields proxies client values =
      trustWalk readHop proxies.Trusts client
        (values.flatMap fun value => (fieldHops value).reverse) := by
  induction values generalizing client with
  | nil => rfl
  | cons value rest ih =>
      obtain ⟨hvalue, hrest⟩ := List.forall_mem_cons.mp hvisible
      obtain ⟨text, htext⟩ := Option.isSome_iff_exists.mp hvalue
      have hhops : fieldHops value = text.toList.splitOn ',' := by
        rw [fieldHops, htext, Option.getD_some]
      rw [List.flatMap_cons, trustWalk_append, hhops]
      by_cases hclient : proxies.contains client = false
      · have hnot := proxies.not_trusts_iff.mpr hclient
        rw [scanFields, if_pos hclient, trustWalk_of_not_trusted hnot, Option.bind_some,
          trustWalk_of_not_trusted hnot]
      · have hwalks := proxies.scanHops_walks client (text.toList.splitOn ',').reverse
        rw [scanFields, if_neg hclient, htext]
        cases hscan : scanHops proxies client (text.toList.splitOn ',').reverse with
        | returned ip =>
            rw [hscan] at hwalks
            simp only [hscan, hwalks.1, Option.bind_some, trustWalk_of_not_trusted hwalks.2]
        | failed =>
            rw [hscan] at hwalks
            simp only [hscan, hwalks, Option.bind_none]
        | finished ip =>
            rw [hscan] at hwalks
            simp only [hscan, hwalks, Option.bind_some, ih ip hrest]

end TrustedProxies

/-- The `X-Forwarded-For` fields of a request are visible ASCII. -/
def ForwardedVisible (headers : HeaderMap) : Prop :=
  ∀ value ∈ headers.getAll "x-forwarded-for", value.toStr.isSome = true

section Resolution

variable {headers : HeaderMap} {peer : IpAddr} {proxies : TrustedProxies}

theorem clientIp_of_not_trusts (hpeer : ¬ proxies.Trusts (normalizeIp peer))
    (headers : HeaderMap) : clientIp headers peer proxies = some (normalizeIp peer) := by
  rw [clientIp, if_pos (proxies.not_trusts_iff.mp hpeer)]

/-- With `X-Forwarded-For` present, the client of a trusted peer is found by one
walk over all hops from right to left. -/
theorem clientIp_eq_trustWalk (hpeer : proxies.Trusts (normalizeIp peer))
    (hpresent : headers.containsKey "x-forwarded-for" = true)
    (hvisible : ForwardedVisible headers) :
    clientIp headers peer proxies =
      trustWalk readHop proxies.Trusts (normalizeIp peer) (forwardedHops headers).reverse := by
  have hcontains : ¬ proxies.contains (normalizeIp peer) = false := by
    simpa [TrustedProxies.Trusts] using hpeer
  have hreverse : (forwardedHops headers).reverse =
      (headers.getAll "x-forwarded-for").reverse.flatMap fun value =>
        (fieldHops value).reverse :=
    List.reverse_flatMap ..
  rw [clientIp, if_neg hcontains, if_pos hpresent, hreverse]
  exact proxies.scanFields_eq_trustWalk _ _ fun value hvalue =>
    hvisible value (List.mem_reverse.mp hvalue)

theorem forwardedHops_ne_nil (hpresent : headers.containsKey "x-forwarded-for" = true) :
    forwardedHops headers ≠ [] := by
  have hvalues := (headers.containsKey_iff _).mp hpresent
  obtain ⟨value, rest, hcons⟩ := List.exists_cons_of_ne_nil hvalues
  rw [forwardedHops, hcons, List.flatMap_cons]
  exact List.append_ne_nil_of_left_ne_nil (List.splitOn_ne_nil _ _) _

theorem containsKey_of_forwardedHops (hhops : forwardedHops headers ≠ []) :
    headers.containsKey "x-forwarded-for" = true := by
  rw [HeaderMap.containsKey_iff]
  intro hnone
  rw [forwardedHops, hnone] at hhops
  exact hhops rfl

/-- A hop that names a trusted address. -/
def TrustedHop (proxies : TrustedProxies) (hop : List Char) : Prop :=
  ∃ ip, readHop hop = some ip ∧ proxies.contains ip = true

/-- How the client of a request is told from the connection and its headers. -/
structure ClientLaws (proxies : TrustedProxies) (peer : IpAddr) : Prop where
  /-- Headers of a peer that is not trusted are ignored. -/
  direct : proxies.contains (normalizeIp peer) = false → ∀ headers,
    clientIp headers peer proxies = some (normalizeIp peer)
  /-- From right to left, the first address that is not trusted, or the
  leftmost. -/
  resolved : proxies.contains (normalizeIp peer) = true → ∀ headers,
    headers.containsKey "x-forwarded-for" = true → ForwardedVisible headers → ∀ ip,
      (clientIp headers peer proxies = some ip ↔
        ∃ far hop near, forwardedHops headers = far ++ hop :: near ∧
          (∀ h ∈ near, TrustedHop proxies h) ∧ readHop hop = some ip ∧
          (proxies.contains ip = true → far = []))
  /-- It fails at a hop that has to be read and does not parse. -/
  failed : proxies.contains (normalizeIp peer) = true → ∀ headers,
    headers.containsKey "x-forwarded-for" = true → ForwardedVisible headers →
      (clientIp headers peer proxies = none ↔
        ∃ far hop near, forwardedHops headers = far ++ hop :: near ∧
          (∀ h ∈ near, TrustedHop proxies h) ∧ readHop hop = none)
  /-- Two requests get the same outcome when they agree on hops at the right
  end, one of which is not trusted. -/
  insensitive : ∀ first second, ForwardedVisible first → ForwardedVisible second →
    ∀ far far' near, forwardedHops first = far ++ near → forwardedHops second = far' ++ near →
      (∃ hop ∈ near, ∃ ip, readHop hop = some ip ∧ proxies.contains ip = false) →
        clientIp first peer proxies = clientIp second peer proxies

theorem clientIp_laws (proxies : TrustedProxies) (peer : IpAddr) : ClientLaws proxies peer where
  direct hpeer headers := clientIp_of_not_trusts (proxies.not_trusts_iff.mpr hpeer) headers
  resolved hpeer headers hpresent hvisible ip := by
    have hhops : (forwardedHops headers).reverse ≠ [] := by
      rw [ne_eq, List.reverse_eq_nil_iff]
      exact forwardedHops_ne_nil hpresent
    have htrusts : proxies.Trusts (normalizeIp peer) := hpeer
    rw [clientIp_eq_trustWalk htrusts hpresent hvisible, trustWalk_eq_some_iff htrusts hhops,
      exists_split_reverse_iff (Q := fun hop far =>
        readHop hop = some ip ∧ (proxies.Trusts ip → far = []))]
    simp only [List.reverse_eq_nil_iff]
    exact Iff.rfl
  failed hpeer headers hpresent hvisible := by
    have htrusts : proxies.Trusts (normalizeIp peer) := hpeer
    rw [clientIp_eq_trustWalk htrusts hpresent hvisible, trustWalk_eq_none_iff htrusts]
    exact exists_split_reverse_iff (Q := fun hop _ => readHop hop = none)
  insensitive first second hfirst hsecond far far' near hhops hhops' hstop := by
    obtain ⟨hop, hmem, ip, hread, huntrusted⟩ := hstop
    have hnot : ¬ proxies.Trusts ip := proxies.not_trusts_iff.mpr huntrusted
    by_cases hpeer : proxies.Trusts (normalizeIp peer)
    · have hne : near ≠ [] := List.ne_nil_of_mem hmem
      have hpresent := containsKey_of_forwardedHops
        (hhops ▸ List.append_ne_nil_of_right_ne_nil far hne)
      have hpresent' := containsKey_of_forwardedHops
        (hhops' ▸ List.append_ne_nil_of_right_ne_nil far' hne)
      rw [clientIp_eq_trustWalk hpeer hpresent hfirst,
        clientIp_eq_trustWalk hpeer hpresent' hsecond, hhops, hhops', List.reverse_append,
        List.reverse_append,
        trustWalk_append_of_stop (List.mem_reverse.mpr hmem) hread hnot,
        trustWalk_append_of_stop (List.mem_reverse.mpr hmem) hread hnot]
    · rw [clientIp_of_not_trusts hpeer, clientIp_of_not_trusts hpeer]

end Resolution

namespace ClientWitness

/-- `10.0.0.0/8`. -/
def proxies : TrustedProxies := [⟨.v4 0x0a000000, 8, by decide⟩]

/-- The proxy `10.0.0.1`. -/
def peer : IpAddr := .v4 0x0a000001

def headers : HeaderMap :=
  [("x-forwarded-for", .fromStatic "garbage, 203.0.113.9"), ("x-real-ip", .fromStatic "::1"),
    ("x-forwarded-for", .fromStatic "10.0.0.2")]

example : TrustedProxies.parse "10.0.0.0/8" = .ok proxies := by decide +kernel

/-- The walk passes by the proxy `10.0.0.2` of the last field and never reads
what stands left of the client. -/
theorem chain_resolves : clientIp headers peer proxies = some (.v4 0xcb007109) := by
  refine ((clientIp_laws proxies peer).resolved (by decide +kernel) headers (by decide +kernel)
    ?_ _).mpr ⟨["garbage".toList], " 203.0.113.9".toList, ["10.0.0.2".toList],
      by decide +kernel, ?_, by decide +kernel, ?_⟩
  · simp only [ForwardedVisible]
    decide +kernel
  · intro hop hmem
    obtain rfl := List.mem_singleton.mp hmem
    exact ⟨.v4 0x0a000002, by decide +kernel, by decide +kernel⟩
  · intro htrusted
    exact absurd htrusted (by decide +kernel)

end ClientWitness

end KiteX402
