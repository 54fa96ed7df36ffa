/-
Redirects of the upstream: which the proxy follows with the credential, and how
many of them.
-/
import Mathlib.Data.List.Chain
import Mathlib.Data.String.Basic

namespace KiteX402

def maxRedirects : ℕ := 10

/-- What a redirect policy reads of a URL. -/
structure Url where
  scheme : String
  hostStr : Option String
  port : Option UInt16
deriving DecidableEq

/-- The known defaults are those of the special schemes. -/
def Url.portOrKnownDefault (url : Url) : Option UInt16 :=
  url.port.or
    (if url.scheme = "http" ∨ url.scheme = "ws" then some 80
    else if url.scheme = "https" ∨ url.scheme = "wss" then some 443
    else if url.scheme = "ftp" then some 21
    else none)

def isSameOriginHop (source target : Url) : Bool :=
  if source.hostStr ≠ target.hostStr then false
  else
    let upgrade := source.scheme = "http" && target.scheme = "https"
    let sameOrigin := source.scheme = target.scheme &&
      source.portOrKnownDefault = target.portOrKnownDefault
    sameOrigin || upgrade

inductive RedirectAction where
  | follow
  | stop
  | error (message : String)
deriving DecidableEq

/-- The policy on a redirect to `url`.  `previous` holds the initial URL and
those of the redirects already followed. -/
def sameOriginRedirectPolicy (previous : List Url) (url : Url) : RedirectAction :=
  if maxRedirects ≤ previous.length then .error "too many redirects"
  else if previous.getLast?.any fun source => isSameOriginHop source url then .follow
  else .stop

/-- The HTTP client on the redirects that a chain of answers asks for: the URLs
it has requested, and the action that ended the chain; `none` is an answer
without a redirect. -/
def chase (previous : List Url) : List Url → List Url × Option RedirectAction
  | [] => (previous, none)
  | url :: rest =>
      match sameOriginRedirectPolicy previous url with
      | .follow => chase (previous ++ [url]) rest
      | .stop => (previous, some .stop)
      | .error message => (previous, some (.error message))

/-- A hop that leaves the host alone, and the scheme and port of an encrypted
origin. -/
structure Stays (source target : Url) : Prop where
  host : source.hostStr = target.hostStr
  secure : source.scheme = "https" → target.scheme = "https" ∧
    source.portOrKnownDefault = target.portOrKnownDefault

instance : Trans Stays Stays Stays where
  trans first second :=
    ⟨first.host.trans second.host, fun hsource =>
      have hmiddle := first.secure hsource
      have htarget := second.secure hmiddle.1
      ⟨htarget.1, hmiddle.2.trans htarget.2⟩⟩

section Hop

variable {source target : Url}

/-- A hop that is allowed stays on the origin, or upgrades it. -/
theorem isSameOriginHop_iff :
    isSameOriginHop source target = true ↔ source.hostStr = target.hostStr ∧
      ((source.scheme = target.scheme ∧
        source.portOrKnownDefault = target.portOrKnownDefault) ∨
      (source.scheme = "http" ∧ target.scheme = "https")) := by
  by_cases hhost : source.hostStr = target.hostStr
  · simp [isSameOriginHop, hhost]
  · simp [isSameOriginHop, hhost]

theorem stays_of_isSameOriginHop (hhop : isSameOriginHop source target = true) :
    Stays source target := by
  obtain ⟨hhost, hsame | hupgrade⟩ := isSameOriginHop_iff.mp hhop
  · exact ⟨hhost, fun hsource => ⟨hsame.1 ▸ hsource, hsame.2⟩⟩
  · refine ⟨hhost, fun hsource => ?_⟩
    rw [hupgrade.1] at hsource
    exact absurd hsource (by decide)

/-- Only an upgrade changes the port. -/
theorem upgrade_of_port_ne (hhop : isSameOriginHop source target = true)
    (hport : source.portOrKnownDefault ≠ target.portOrKnownDefault) :
    source.scheme = "http" ∧ target.scheme = "https" := by
  obtain ⟨_, hsame | hupgrade⟩ := isSameOriginHop_iff.mp hhop
  · exact absurd hsame.2 hport
  · exact hupgrade

end Hop

/-- The hop behind the URL at an index changes the port. -/
def PortChangesAt (urls : List Url) (i : ℕ) : Prop :=
  ∃ source target, urls[i]? = some source ∧ urls[i + 1]? = some target ∧
    source.portOrKnownDefault ≠ target.portOrKnownDefault

/-- The requested URLs are all of one host; encryption is never given up, nor
the port of an encrypted origin; and the port changes at most once, where
encryption begins. -/
structure KeepsOrigin (urls : List Url) : Prop where
  host : ∀ start ∈ urls.head?, ∀ url ∈ urls, url.hostStr = start.hostStr
  secure : urls.Pairwise fun earlier later => earlier.scheme = "https" →
    later.scheme = "https" ∧ earlier.portOrKnownDefault = later.portOrKnownDefault
  upgrade : urls.IsChain fun source target =>
    source.portOrKnownDefault ≠ target.portOrKnownDefault →
      source.scheme = "http" ∧ target.scheme = "https"
  once : ∀ i j, PortChangesAt urls i → PortChangesAt urls j → i = j

section Origin

variable {urls : List Url}

/-- Behind a change of the port the origin is encrypted, so that there is no
second change. -/
theorem not_portChangesAt_of_lt
    (hhops : urls.IsChain fun source target => isSameOriginHop source target = true)
    (hstays : urls.Pairwise Stays) {i j : ℕ} (hlt : i < j) (hi : PortChangesAt urls i) :
    ¬ PortChangesAt urls j := by
  rintro ⟨source', target', hsource', htarget', hport'⟩
  obtain ⟨source, target, hsource, htarget, hport⟩ := hi
  obtain ⟨hilen, rfl⟩ := List.getElem?_eq_some_iff.mp hsource
  obtain ⟨hilen', rfl⟩ := List.getElem?_eq_some_iff.mp htarget
  obtain ⟨hjlen, rfl⟩ := List.getElem?_eq_some_iff.mp hsource'
  obtain ⟨hjlen', rfl⟩ := List.getElem?_eq_some_iff.mp htarget'
  have hhop := List.isChain_iff_getElem.mp hhops i hilen'
  have hsecure := (upgrade_of_port_ne hhop hport).2
  have hlater : ∀ k (hk : k < urls.length), i + 1 < k →
      urls[i + 1].portOrKnownDefault = urls[k].portOrKnownDefault :=
    fun k hk hik =>
      ((List.pairwise_iff_getElem.mp hstays (i + 1) k hilen' hk hik).secure hsecure).2
  have hend := hlater (j + 1) hjlen' (by omega)
  by_cases hnext : j = i + 1
  · subst hnext
    exact hport' hend
  · exact hport' ((hlater j hjlen (by omega)).symm.trans hend)

theorem keepsOrigin_of_hops
    (hhops : urls.IsChain fun source target => isSameOriginHop source target = true) :
    KeepsOrigin urls := by
  have hstays : urls.Pairwise Stays :=
    (hhops.imp fun _ _ hhop => stays_of_isSameOriginHop hhop).pairwise
  refine ⟨?_, hstays.imp fun hstay => hstay.secure, ?_, ?_⟩
  · intro start hstart url hurl
    cases urls with
    | nil => exact absurd hurl List.not_mem_nil
    | cons first rest =>
        obtain rfl : first = start := Option.some.inj hstart
        cases List.mem_cons.mp hurl with
        | inl heq => rw [heq]
        | inr hrest => exact ((List.pairwise_cons.mp hstays).1 url hrest).host.symm
  · exact hhops.imp fun _ _ hhop hport => upgrade_of_port_ne hhop hport
  · intro i j hi hj
    rcases lt_trichotomy i j with hlt | heq | hlt
    · exact absurd hj (not_portChangesAt_of_lt hhops hstays hlt hi)
    · exact heq
    · exact absurd hi (not_portChangesAt_of_lt hhops hstays hlt hj)

end Origin

section Chase

/-- The policy follows a redirect that stays on the origin of the last URL, as
long as there are fewer than `MAX_REDIRECTS` previous ones. -/
theorem sameOriginRedirectPolicy_eq_follow_iff {previous : List Url} {url : Url} :
    sameOriginRedirectPolicy previous url = .follow ↔
      previous.length < maxRedirects ∧
        ∃ source, previous.getLast? = some source ∧ isSameOriginHop source url = true := by
  by_cases hfull : maxRedirects ≤ previous.length
  · simp [sameOriginRedirectPolicy, hfull, not_lt.mpr hfull]
  · simp only [sameOriginRedirectPolicy, hfull, if_false, not_le.mp hfull, true_and]
    cases hlast : previous.getLast? with
    | none => simp
    | some source => cases hhop : isSameOriginHop source url <;> simp [hhop]

/-- Whatever redirects are asked for, the requested URLs are one chain of
allowed hops. -/
theorem chase_hops {previous : List Url} (redirects : List Url)
    (hprevious : previous.IsChain fun source target => isSameOriginHop source target = true) :
    (chase previous redirects).1.IsChain
      fun source target => isSameOriginHop source target = true := by
  induction redirects generalizing previous with
  | nil => exact hprevious
  | cons url rest ih =>
      cases haction : sameOriginRedirectPolicy previous url with
      | follow =>
          obtain ⟨_, source, hlast, hhop⟩ := sameOriginRedirectPolicy_eq_follow_iff.mp haction
          simp only [chase, haction]
          refine ih (hprevious.append (List.IsChain.singleton url) ?_)
          intro first hfirst second hsecond
          obtain rfl : source = first := by
            rw [hlast] at hfirst
            exact Option.some.inj hfirst
          obtain rfl : url = second := Option.some.inj hsecond
          exact hhop
      | stop =>
          simp only [chase, haction]
          exact hprevious
      | error message =>
          simp only [chase, haction]
          exact hprevious

/-- Where no redirect ended the chain, all of them were followed. -/
theorem chase_eq_of_none {previous redirects : List Url}
    (hnone : (chase previous redirects).2 = none) :
    (chase previous redirects).1 = previous ++ redirects := by
  induction redirects generalizing previous with
  | nil => exact (List.append_nil previous).symm
  | cons url rest ih =>
      cases haction : sameOriginRedirectPolicy previous url with
      | follow =>
          simp only [chase, haction] at hnone ⊢
          rw [ih hnone, List.append_assoc, List.singleton_append]
      | stop => simp [chase, haction] at hnone
      | error message => simp [chase, haction] at hnone

/-- Whatever redirects the upstream asks for, the request and its credential
stay on the origin they were meant for; in particular where all the redirects
were followed. -/
theorem redirects_keep_origin (start : Url) (redirects : List Url) :
    KeepsOrigin (chase [start] redirects).1 ∧
      ((chase [start] redirects).2 = none → KeepsOrigin (start :: redirects)) := by
  have hhops := chase_hops redirects (List.IsChain.singleton start)
  refine ⟨keepsOrigin_of_hops hhops, fun hnone => ?_⟩
  have hall := chase_eq_of_none hnone
  rw [hall] at hhops
  exact keepsOrigin_of_hops hhops

/-- On redirects within the origin the chain ends only for its length: the URLs
requested, the initial one among them, are at most `MAX_REDIRECTS`. -/
theorem chase_eq_of_hops {previous redirects : List Url} {last : Url}
    (hlast : previous.getLast? = some last)
    (hhops : (last :: redirects).IsChain
      fun source target => isSameOriginHop source target = true)
    (hroom : previous.length ≤ maxRedirects) :
    chase previous redirects =
      if previous.length + redirects.length ≤ maxRedirects then (previous ++ redirects, none)
      else (previous ++ redirects.take (maxRedirects - previous.length),
        some (.error "too many redirects")) := by
  induction redirects generalizing previous last with
  | nil =>
      rw [List.length_nil, Nat.add_zero, if_pos hroom, List.append_nil]
      rfl
  | cons url rest ih =>
      rw [List.isChain_cons_cons] at hhops
      by_cases hfull : previous.length = maxRedirects
      · have hpolicy : sameOriginRedirectPolicy previous url = .error "too many redirects" := by
          rw [sameOriginRedirectPolicy, if_pos hfull.ge]
        have hover : ¬ previous.length + (url :: rest).length ≤ maxRedirects := by
          rw [List.length_cons]
          omega
        rw [if_neg hover, hfull, Nat.sub_self, List.take_zero, List.append_nil]
        simp only [chase, hpolicy]
      · have hlt : previous.length < maxRedirects := lt_of_le_of_ne hroom hfull
        have hpolicy : sameOriginRedirectPolicy previous url = .follow :=
          sameOriginRedirectPolicy_eq_follow_iff.mpr ⟨hlt, last, hlast, hhops.1⟩
        have hnext : (previous ++ [url]).length = previous.length + 1 := by simp
        have htake : maxRedirects - previous.length = maxRedirects - (previous.length + 1) + 1 := by
          omega
        have hchase : chase previous (url :: rest) = chase (previous ++ [url]) rest := by
          simp only [chase, hpolicy]
        rw [hchase, ih List.getLast?_concat hhops.2 (by omega), hnext, htake, List.take_succ_cons,
          List.length_cons, List.append_assoc, List.append_assoc, List.singleton_append,
          List.singleton_append, Nat.add_assoc, Nat.add_comm 1]

/-- The limit as it is documented: that many redirects are followed, and it is
the next one that fails. -/
structure HonoursLimit (start : Url) (redirects : List Url) : Prop where
  followed : redirects.length ≤ maxRedirects →
    chase [start] redirects = (start :: redirects, none)
  refused : maxRedirects < redirects.length →
    chase [start] redirects =
      (start :: redirects.take maxRedirects, some (.error "too many redirects"))

/-- The initial URL counts as a redirect, so that the limit is honoured only
where it is not reached. -/
theorem honoursLimit_iff {start : Url} {redirects : List Url}
    (hhops : (start :: redirects).IsChain
      fun source target => isSameOriginHop source target = true) :
    HonoursLimit start redirects ↔ redirects.length < maxRedirects := by
  have hroom : [start].length ≤ maxRedirects := show 1 ≤ 10 by decide
  have hchase := chase_eq_of_hops List.getLast?_singleton hhops hroom
  rw [List.length_singleton] at hchase
  by_cases hbelow : redirects.length < maxRedirects
  · rw [if_pos (by omega)] at hchase
    exact iff_of_true ⟨fun _ => hchase, fun hover => absurd hbelow (not_lt.mpr hover.le)⟩ hbelow
  · rw [if_neg (by omega)] at hchase
    refine iff_of_false (fun hhonours => ?_) hbelow
    cases Nat.lt_or_eq_of_le (not_lt.mp hbelow) with
    | inl hover =>
        have hurls := congrArg (fun result => result.1.length)
          (hchase.symm.trans (hhonours.refused hover))
        simp only [List.length_append, List.length_cons, List.length_nil, List.length_take,
          maxRedirects] at hurls hover
        omega
    | inr heq =>
        have hend := congrArg Prod.snd (hchase.symm.trans (hhonours.followed heq.ge))
        contradiction

end Chase

namespace RedirectWitness

/-- An upstream that redirects to itself. -/
def start : Url := ⟨"https", some "api.example.com", none⟩

theorem once_honoursLimit : HonoursLimit start [start] :=
  (honoursLimit_iff (by decide)).mpr (by decide)

/-- The last of ten redirects is not followed. -/
theorem ten_not_honoursLimit :
    (start :: List.replicate 10 start).IsChain
      (fun source target => isSameOriginHop source target = true) ∧
    ¬ HonoursLimit start (List.replicate 10 start) := by
  refine ⟨by decide, fun hhonours => ?_⟩
  have hfollowed := hhonours.followed (by decide)
  have hrefused : (chase [start] (List.replicate 10 start)).2 =
      some (.error "too many redirects") := by decide
  rw [hfollowed] at hrefused
  contradiction

end RedirectWitness

end KiteX402
