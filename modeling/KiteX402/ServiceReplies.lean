/-
What leaves the service: the ids of requests, and for every reply the layer it
comes from and what the layers outside have put on it.
-/
import KiteX402.ServiceBooks

namespace KiteX402

namespace Wrapper

variable {cfg : Config} {arrivals : ℕ → Arrival}

theorem mem_append_stamp {records : List Record} {i : ℕ} {now : Instant} {events : List Event}
    {record : Record} :
    record ∈ records ++ stamp i now events ↔
      record ∈ records ∨ ∃ event ∈ events, record = ⟨i, now, event⟩ := by
  rw [List.mem_append, stamp, List.mem_map]
  simp only [eq_comm]

section Ids

/-- The id of a request that sent a valid one is that, and otherwise generated. -/
structure IdFor (arrival : Arrival) (id : String) (generated : Bool) : Prop where
  valid : isValidRequestId id = true
  own : ((arrival.request.headers.get "x-request-id").bind HeaderValue.toStr).filter
    isValidRequestId = if generated then none else some id

theorem idFor_resolve {arrival : Arrival} {now : BitVec 128} {counter counter' : UInt64}
    {id : String}
    (hresolved : resolveRequestId arrival.request.headers now counter = (id, counter')) :
    IdFor arrival id (counter' ≠ counter) := by
  refine ⟨?_, ?_⟩
  · have hvalid := isValidRequestId_resolve arrival.request.headers now counter
    rwa [hresolved] at hvalid
  · unfold resolveRequestId at hresolved
    split at hresolved
    next own hown =>
      obtain ⟨rfl, rfl⟩ := Prod.mk.inj hresolved
      simpa using hown
    next hnone =>
      obtain ⟨-, rfl⟩ := Prod.mk.inj hresolved
      simpa using hnone

def Event.generatedId : Event → Option String
  | .entered id true => some id
  | _ => none

/-- The ids that the service made up, in order. -/
def generatedIds (records : List Record) : List String :=
  records.filterMap fun record => record.event.generatedId

theorem generatedIds_append_stamp (records : List Record) (i : ℕ) (now : Instant)
    (events : List Event) :
    generatedIds (records ++ stamp i now events) =
      generatedIds records ++ events.filterMap Event.generatedId := by
  rw [generatedIds, List.filterMap_append, stamp, List.filterMap_map]
  rfl

variable {arrival : Arrival} {world world' : World} {now reading : Instant}
  {phase phase' : Phase} {events : List Event}

/-- A move generates an id and counts it, or does neither. -/
theorem Moves.generated
    (hmoves : Moves cfg arrival world now reading phase world' phase' events) :
    (events.filterMap Event.generatedId = [] ∧
        world'.requestCounter = world.requestCounter) ∨
      ∃ millis, events.filterMap Event.generatedId =
          [generateRequestId millis world.requestCounter] ∧
        world'.requestCounter = world.requestCounter + 1 := by
  have hinner : ∀ {A : Type} (wrap : A → Event) (inner : List A),
      (∀ inner, (wrap inner).generatedId = none) →
      (inner.map wrap).filterMap Event.generatedId = [] := by
    intro A wrap inner hwrap
    rw [List.filterMap_map, List.filterMap_eq_nil_iff]
    exact fun inner _ => hwrap inner
  cases hmoves with
  | entered unixMillis id counter hentered hresolved =>
      unfold resolveRequestId at hresolved
      split at hresolved
      next own hown =>
        obtain ⟨rfl, rfl⟩ := Prod.mk.inj hresolved
        left
        simp [Event.generatedId]
      next =>
        obtain ⟨rfl, rfl⟩ := Prod.mk.inj hresolved
        right
        refine ⟨unixMillis, ?_, rfl⟩
        simp [Event.generatedId]
  | admitted => exact Or.inl ⟨hinner _ _ fun _ => rfl, rfl⟩
  | refused => exact Or.inl ⟨hinner _ _ fun _ => rfl, rfl⟩
  | gated => exact Or.inl ⟨hinner _ _ fun _ => rfl, rfl⟩
  | through => exact Or.inl ⟨hinner _ _ fun _ => rfl, rfl⟩
  | _ => exact Or.inl ⟨rfl, rfl⟩

/-- The ids made up so far are numbered from one on. -/
structure Issued (counter : UInt64) (ids : List String) : Prop where
  counter : counter = UInt64.ofNat (ids.length + 1)
  numbered : ∀ k (hk : k < ids.length), ∃ millis,
    ids[k] = generateRequestId millis (UInt64.ofNat (k + 1))

theorem Issued.concat {counter : UInt64} {ids : List String} (hissued : Issued counter ids)
    (millis : BitVec 128) :
    Issued (counter + 1) (ids ++ [generateRequestId millis counter]) where
  counter := by
    rw [hissued.counter, List.length_append, List.length_singleton, ← UInt64.ofNat_one,
      ← UInt64.ofNat_add]
  numbered k hk := by
    rw [List.length_append, List.length_singleton] at hk
    by_cases hlast : k < ids.length
    · rw [List.getElem_append_left hlast]
      exact hissued.numbered k hlast
    · have hend : k = ids.length := by omega
      subst hend
      refine ⟨millis, ?_⟩
      rw [List.getElem_append_right (Nat.le_refl _), ← hissued.counter]
      simp

/-- Ids differ as long as the counter has not wrapped. -/
theorem Issued.nodup {counter : UInt64} {ids : List String} (hissued : Issued counter ids)
    (hfew : ids.length ≤ 2 ^ 64) : ids.Nodup := by
  rw [List.nodup_iff_injective_getElem]
  rintro ⟨first, hfirst⟩ ⟨second, hsecond⟩ heq
  obtain ⟨millis, hmillis⟩ := hissued.numbered first hfirst
  obtain ⟨millis', hmillis'⟩ := hissued.numbered second hsecond
  have hids : generateRequestId millis (UInt64.ofNat (first + 1)) =
      generateRequestId millis' (UInt64.ofNat (second + 1)) := by
    rw [← hmillis, ← hmillis']
    exact heq
  have hcounts := congrArg UInt64.toNat (generateRequestId_inj.mp hids).2
  rw [UInt64.toNat_ofNat', UInt64.toNat_ofNat'] at hcounts
  rw [Fin.mk.injEq]
  omega

theorem issued_run (arrivals : ℕ → Arrival) (clock : Instant) (actions : List Action) :
    Issued (run cfg arrivals clock actions).1.world.requestCounter
      (generatedIds (run cfg arrivals clock actions).2) := by
  refine run_induction (P := fun state records =>
    Issued state.world.requestCounter (generatedIds records)) cfg arrivals
      ⟨rfl, fun k hk => absurd hk (Nat.not_lt_zero k)⟩ ?_ actions
  intro state records i now reading world phase events hissued _ _ hmoves
  rw [generatedIds_append_stamp]
  rcases hmoves.generated with ⟨hnone, hcounter⟩ | ⟨millis, hone, hcounter⟩
  · rw [hnone, List.append_nil, hcounter]
    exact hissued
  · rw [hone, hcounter]
    exact hissued.concat millis

end Ids

section Sources

/-- The id under which a request is inside. -/
def Phase.id : Phase → Option String
  | .entered id | .free id | .seated id | .gated id _ _ | .returning id _
  | .departing id _ => some id
  | .arrived | .departed => none

/-- The response that is on its way out. -/
def Phase.response : Phase → Option Response
  | .returning _ response | .departing _ response => response
  | _ => none

def Phase.isFree : Phase → Bool
  | .free _ => true
  | _ => false

/-- Where the response that a request is answered with comes from. -/
inductive Source (cfg : Config) (arrivals : ℕ → Arrival) (i : ℕ) (records : List Record) :
    Response → Prop where
  | busy (time) (hbusy : ⟨i, time, .busy⟩ ∈ records) :
      Source cfg arrivals i records (serviceBusy cfg.rt.codec)
  | refused (id layer buckets reading response buckets' calls time)
      (hlimiter : cfg.limiter = some layer)
      (hcheck : layer.check cfg.rt.codec cfg.rt.clock ((arrivals i).tagged id).headers
        (arrivals i).peer buckets reading = ((.error response, buckets'), calls))
      (hcalls : ∀ call ∈ calls, ⟨i, time, .limiter call⟩ ∈ records) :
      Source cfg arrivals i records response
  | gate (remaining response time) (hreplied : ⟨i, time, .gate (.replied response)⟩ ∈ records) :
      Source cfg arrivals i records (annotate cfg remaining response)
  | free (response) (hfree : (arrivals i).metered = false) :
      Source cfg arrivals i records response

theorem Source.mono {i : ℕ} {records more : List Record} {response : Response}
    (hsource : Source cfg arrivals i records response)
    (hsub : ∀ record ∈ records, record ∈ more) : Source cfg arrivals i more response := by
  cases hsource with
  | busy time hbusy => exact .busy time (hsub _ hbusy)
  | refused id layer buckets reading response buckets' calls time hlimiter hcheck hcalls =>
      exact .refused id layer buckets reading response buckets' calls time hlimiter hcheck
        fun call hcall => hsub _ (hcalls call hcall)
  | gate remaining response time hreplied => exact .gate remaining response time (hsub _ hreplied)
  | free response hfree => exact .free response hfree

theorem replied_mem_of_gateReply {events : List GateEvent} {response : Response}
    (hreply : gateReply events = some response) : .replied response ∈ events := by
  induction events with
  | nil => contradiction
  | cons event rest ih =>
      cases event with
      | replied reply =>
          rw [← Option.some.inj hreply]
          exact List.mem_cons_self
      | _ => exact List.mem_cons_of_mem _ (ih hreply)

/-- What is known of a request from where it stands. -/
structure Placed (cfg : Config) (arrivals : ℕ → Arrival) (i : ℕ) (records : List Record)
    (phase : Phase) : Prop where
  id : ∀ id, phase.id = some id → ∃ time generated, ⟨i, time, .entered id generated⟩ ∈ records
  free : phase.isFree = true → (arrivals i).metered = false
  source : ∀ response, phase.response = some response → Source cfg arrivals i records response

theorem Placed.mono {i : ℕ} {records more : List Record} {phase : Phase}
    (hplaced : Placed cfg arrivals i records phase)
    (hsub : ∀ record ∈ records, record ∈ more) : Placed cfg arrivals i more phase where
  id id hid := by
    obtain ⟨time, generated, hmem⟩ := hplaced.id id hid
    exact ⟨time, generated, hsub _ hmem⟩
  free := hplaced.free
  source response hresponse := (hplaced.source response hresponse).mono hsub

/-- A place from which no response leaves yet. -/
theorem Placed.keep {i : ℕ} {records : List Record} {phase phase' : Phase}
    (hplaced : Placed cfg arrivals i records phase) (hid : phase'.id = phase.id)
    (hfree : phase'.isFree = false) (hresponse : phase'.response = none) :
    Placed cfg arrivals i records phase' where
  id := hid ▸ hplaced.id
  free h := absurd h (by rw [hfree]; exact Bool.false_ne_true)
  source response h := absurd h (by rw [hresponse]; simp)

/-- A response starts on its way out. -/
theorem Placed.answer {i : ℕ} {records : List Record} {phase phase' : Phase}
    (hplaced : Placed cfg arrivals i records phase) (hid : phase'.id = phase.id)
    (hfree : phase'.isFree = false)
    (hsource : ∀ response, phase'.response = some response →
      Source cfg arrivals i records response) :
    Placed cfg arrivals i records phase' where
  id := hid ▸ hplaced.id
  free h := absurd h (by rw [hfree]; exact Bool.false_ne_true)
  source := hsource

theorem Moves.placed {i : ℕ} {state : State} {records : List Record} {world : World}
    {now reading : Instant} {phase : Phase} {events : List Event}
    (hmoves : Moves cfg (arrivals i) state.world now reading (state.phases i) world phase events)
    (hplaced : Placed cfg arrivals i records (state.phases i)) :
    Placed cfg arrivals i (records ++ stamp i now events) phase := by
  have hbefore : Placed cfg arrivals i (records ++ stamp i now events) (state.phases i) :=
    hplaced.mono fun record hrecord => List.mem_append_left _ hrecord
  have hnew : ∀ event ∈ events, ⟨i, now, event⟩ ∈ records ++ stamp i now events :=
    fun event hevent => mem_append_stamp.mpr (Or.inr ⟨event, hevent, rfl⟩)
  generalize records ++ stamp i now events = more at hbefore hnew ⊢
  generalize state.phases i = start at hmoves hbefore
  cases hmoves with
  | stayed => exact hbefore
  | entered unixMillis id counter hinner hresolved =>
      exact ⟨fun other hother => ⟨now, _, Option.some.inj hother ▸
        hnew _ (List.mem_singleton_self _)⟩, fun h => absurd h Bool.false_ne_true,
        fun response h => by simp [Phase.response] at h⟩
  | freed id hfree =>
      exact ⟨hbefore.id, fun _ => hfree, fun response h => by simp [Phase.response] at h⟩
  | busy id hmetered hfull =>
      refine hbefore.answer rfl rfl fun response hresponse => ?_
      rw [← Option.some.inj hresponse]
      exact .busy now (hnew _ (List.mem_singleton_self _))
  | answered id response =>
      exact hbefore.answer rfl rfl fun response _ => .free response (hbefore.free rfl)
  | refused id layer response buckets calls hlimiter hcheck =>
      refine hbefore.answer rfl rfl fun other hother => ?_
      rw [← Option.some.inj hother]
      exact .refused id layer _ reading response buckets calls now hlimiter hcheck
        fun call hcall => hnew _ (List.mem_map_of_mem hcall)
  | through id remaining phase input gate events =>
      refine hbefore.answer rfl rfl fun response hresponse => ?_
      obtain ⟨reply, hreply, rfl⟩ := Option.map_eq_some_iff.mp hresponse
      exact .gate remaining reply now
        (hnew _ (List.mem_map_of_mem (replied_mem_of_gateReply hreply)))
  | released id response => exact hbefore.answer rfl rfl hbefore.source
  | forgotten | preflight | departed | dropped =>
      exact ⟨fun id h => by simp [Phase.id] at h, fun h => absurd h Bool.false_ne_true,
        fun response h => by simp [Phase.response] at h⟩
  | seated | unlimited | admitted | gated => exact hbefore.keep rfl rfl rfl

end Sources

section Replies

variable {arrival : Arrival} {world world' : World} {now reading : Instant}
  {phase phase' : Phase} {events : List Event}

theorem Moves.of_entered_mem
    (hmoves : Moves cfg arrival world now reading phase world' phase' events) {id : String}
    {generated : Bool} (hmem : .entered id generated ∈ events) : IdFor arrival id generated := by
  cases hmoves with
  | entered unixMillis own counter hinner hresolved =>
      obtain ⟨rfl, rfl⟩ := Event.entered.inj (List.mem_singleton.mp hmem)
      exact idFor_resolve hresolved
  | _ => simp at hmem

theorem Moves.of_replied_mem
    (hmoves : Moves cfg arrival world now reading phase world' phase' events)
    {reply : Response} (hmem : .replied reply ∈ events) :
    ∃ id response, phase = .departing id (some response) ∧
      reply = finishReply cfg arrival id response := by
  cases hmoves with
  | departed id response =>
      exact ⟨id, response, rfl, Event.replied.inj (List.mem_singleton.mp hmem)⟩
  | _ => simp at hmem

/-- A reply is the response of some layer, as the outer layers finish it under
the id that the request was given. -/
structure Answers (cfg : Config) (arrivals : ℕ → Arrival) (i : ℕ) (records : List Record)
    (id : String) (inner reply : Response) : Prop where
  entered : ∃ time generated, ⟨i, time, .entered id generated⟩ ∈ records
  source : Source cfg arrivals i records inner
  inside : cfg.answersPreflight (arrivals i) = false
  finished : reply = finishReply cfg (arrivals i) id inner

/-- What the records tell of ids and replies. -/
structure Told (cfg : Config) (arrivals : ℕ → Arrival) (state : State)
    (records : List Record) : Prop where
  placed : ∀ i, Placed cfg arrivals i records (state.phases i)
  inner : ∀ i, (state.phases i).isInside = true → cfg.answersPreflight (arrivals i) = false
  entered : ∀ i time id generated, ⟨i, time, .entered id generated⟩ ∈ records →
    IdFor (arrivals i) id generated
  replied : ∀ i time reply, ⟨i, time, .replied reply⟩ ∈ records →
    ∃ id inner, Answers cfg arrivals i records id inner reply

theorem Answers.mono {i : ℕ} {records more : List Record} {id : String}
    {inner reply : Response} (hanswers : Answers cfg arrivals i records id inner reply)
    (hsub : ∀ record ∈ records, record ∈ more) : Answers cfg arrivals i more id inner reply where
  entered := by
    obtain ⟨time, generated, hmem⟩ := hanswers.entered
    exact ⟨time, generated, hsub _ hmem⟩
  source := hanswers.source.mono hsub
  inside := hanswers.inside
  finished := hanswers.finished

theorem told_run (arrivals : ℕ → Arrival) (clock : Instant) (actions : List Action) :
    Told cfg arrivals (run cfg arrivals clock actions).1 (run cfg arrivals clock actions).2 := by
  refine run_induction (P := Told cfg arrivals) cfg arrivals ?_ ?_ actions
  · refine ⟨fun i => ⟨fun id h => by simp [State.start, Phase.id] at h,
      fun h => absurd h Bool.false_ne_true, fun response h => by
        simp [State.start, Phase.response] at h⟩,
      fun i h => absurd h Bool.false_ne_true, ?_, ?_⟩ <;> simp
  · intro state records i now reading world phase events htold _ _ hmoves
    have hold : ∀ record ∈ records, record ∈ records ++ stamp i now events :=
      fun record hrecord => List.mem_append_left _ hrecord
    refine ⟨?_, ?_, fun j time id generated hmem => ?_, fun j time reply hmem => ?_⟩
    · exact (Function.forall_update_iff state.phases fun j place =>
        Placed cfg arrivals j (records ++ stamp i now events) place).mpr
          ⟨hmoves.placed (htold.placed i), fun j _ => (htold.placed j).mono hold⟩
    · exact (Function.forall_update_iff state.phases fun j place =>
        place.isInside = true → cfg.answersPreflight (arrivals j) = false).mpr
          ⟨hmoves.inner (htold.inner i), fun j _ => htold.inner j⟩
    · rcases mem_append_stamp.mp hmem with hmem | ⟨event, hevent, heq⟩
      · exact htold.entered j time id generated hmem
      · obtain ⟨rfl, rfl, rfl⟩ := Record.mk.inj heq
        exact hmoves.of_entered_mem hevent
    · rcases mem_append_stamp.mp hmem with hmem | ⟨event, hevent, heq⟩
      · obtain ⟨id, inner, hanswers⟩ := htold.replied j time reply hmem
        exact ⟨id, inner, hanswers.mono hold⟩
      · obtain ⟨rfl, rfl, rfl⟩ := Record.mk.inj heq
        obtain ⟨id, response, hphase, hreply⟩ := hmoves.of_replied_mem hevent
        have hplaced := (htold.placed j).mono hold
        have hinside := htold.inner j
        rw [hphase] at hplaced hinside
        exact ⟨id, response, hplaced.id id rfl, hplaced.source response rfl, hinside rfl,
          hreply⟩

end Replies

section Dressing

/-- The names that the outer layers write under. -/
def dressedNames : List String :=
  ["x-content-type-options", "x-frame-options", "x-xss-protection", "referrer-policy",
    "content-security-policy", "x-request-id", "vary", "access-control-allow-origin",
    "access-control-expose-headers"]

/-- The security headers of a configuration, each with its one value; a text that
is no header value is left out. -/
def securityFields (security : SecurityHeadersConfig) : List (String × Option HeaderValue) :=
  [("x-content-type-options", some (.fromStatic "nosniff")),
    ("x-frame-options", some (.fromStatic "DENY")),
    ("x-xss-protection", some (.fromStatic "0")),
    ("referrer-policy", HeaderValue.fromStr security.referrerPolicy),
    ("content-security-policy", HeaderValue.fromStr security.csp)]

/-- What the outer layers have made of a response. -/
structure Dressed (cfg : Config) (id : String) (inner reply : Response) : Prop where
  status : reply.status = inner.status
  body : reply.body = inner.body
  security : cfg.security.enabled = true → ∀ name value,
    (name, some value) ∈ securityFields cfg.security → reply.headers.getAll name = [value]
  requestId : reply.headers.getAll "x-request-id" =
    if inner.headers.getAll "x-request-id" = [] then [⟨utf8 id⟩]
    else inner.headers.getAll "x-request-id"
  others : ∀ name, name ∉ dressedNames →
    reply.headers.getAll name = inner.headers.getAll name

theorem getAll_corsMiddleware_of_ne {cors : CorsConfig} {req : CorsRequest}
    (hinner : (cors.isEnabled && req.isPreflight) = false) (inner : Response) {name : String}
    (hvary : name ≠ "vary") (hallow : name ≠ "access-control-allow-origin")
    (hexpose : name ≠ "access-control-expose-headers") :
    (corsMiddleware cors req inner).headers.getAll name = inner.headers.getAll name := by
  have hstart : (if cors.isOrigins then varyOrigin inner.headers else inner.headers).getAll name =
      inner.headers.getAll name := by
    split
    · exact getAll_varyOrigin_of_ne hvary.symm inner.headers
    · rfl
  unfold corsMiddleware
  cases henabled : cors.isEnabled with
  | false => rfl
  | true =>
      rw [henabled, Bool.true_and] at hinner
      rw [if_neg (by decide), hinner, if_neg Bool.false_ne_true]
      cases req.origin.bind cors.matchOrigin with
      | none => exact hstart
      | some origin =>
          simp only [HeaderMap.getAll_insert_of_ne hexpose, HeaderMap.getAll_insert_of_ne hallow]
          exact hstart

/-- Of every security header there is the one value. -/
theorem getAll_securityHeaders {security : SecurityHeadersConfig}
    (henabled : security.enabled = true) (response : Response) {name : String}
    {value : HeaderValue} (hfield : (name, some value) ∈ securityFields security) :
    (securityHeadersMiddleware security response).headers.getAll name = [value] := by
  simp only [securityFields, List.mem_cons, Prod.mk.injEq, List.not_mem_nil, or_false,
    Option.some.injEq] at hfield
  rw [securityHeadersMiddleware, if_pos henabled]
  rcases hfield with ⟨rfl, rfl⟩ | ⟨rfl, rfl⟩ | ⟨rfl, rfl⟩ | ⟨rfl, hvalue⟩ | ⟨rfl, hvalue⟩
  · simp [HeaderMap.getAll_insertStr_of_ne, HeaderMap.getAll_insert_of_ne,
      HeaderMap.getAll_insert_self]
  · simp [HeaderMap.getAll_insertStr_of_ne, HeaderMap.getAll_insert_of_ne,
      HeaderMap.getAll_insert_self]
  · simp [HeaderMap.getAll_insertStr_of_ne, HeaderMap.getAll_insert_self]
  · simp [HeaderMap.getAll_insertStr_of_ne, HeaderMap.getAll_insertStr_self, ← hvalue]
  · simp [HeaderMap.getAll_insertStr_self, ← hvalue]

theorem getAll_securityHeaders_of_notMem {security : SecurityHeadersConfig}
    (response : Response) {name : String}
    (hname : name ∉ (securityFields security).map Prod.fst) :
    (securityHeadersMiddleware security response).headers.getAll name =
      response.headers.getAll name := by
  simp only [securityFields, List.map_cons, List.map_nil, List.mem_cons, List.not_mem_nil,
    or_false, not_or] at hname
  obtain ⟨hsniff, hframe, hxss, hreferrer, hcsp⟩ := hname
  unfold securityHeadersMiddleware
  split
  · rw [HeaderMap.getAll_insertStr_of_ne hcsp, HeaderMap.getAll_insertStr_of_ne hreferrer,
      HeaderMap.getAll_insert_of_ne hxss, HeaderMap.getAll_insert_of_ne hframe,
      HeaderMap.getAll_insert_of_ne hsniff]
  · rfl

theorem finishReply_dressed {arrival : Arrival}
    (hinner : cfg.answersPreflight arrival = false) {id : String}
    (hvalid : isValidRequestId id = true) (inner : Response) :
    Dressed cfg id inner (finishReply cfg arrival id inner) := by
  -- Everything but the sharing headers is as the logger left it.
  have hlogged : ∀ name, name ≠ "vary" → name ≠ "access-control-allow-origin" →
      name ≠ "access-control-expose-headers" →
      (finishReply cfg arrival id inner).headers.getAll name =
        (tagResponse id (securityHeadersMiddleware cfg.security inner).headers).getAll name :=
    fun name hvary hallow hexpose => getAll_corsMiddleware_of_ne hinner _ hvary hallow hexpose
  have hkept := finishReply_kept hinner id inner
  refine ⟨hkept.1, hkept.2, ?_, ?_, ?_⟩
  · intro henabled name value hfield
    have hname : name ∈ (securityFields cfg.security).map Prod.fst :=
      List.mem_map_of_mem (f := Prod.fst) hfield
    have hapart : ∀ name ∈ (securityFields cfg.security).map Prod.fst, name ≠ "vary" ∧
        name ≠ "access-control-allow-origin" ∧ name ≠ "access-control-expose-headers" ∧
        name ≠ "x-request-id" := by
      simp [securityFields]
    obtain ⟨hvary, hallow, hexpose, hid⟩ := hapart name hname
    rw [hlogged name hvary hallow hexpose, getAll_tagResponse_of_ne hid]
    exact getAll_securityHeaders henabled inner hfield
  · have hkept : (securityHeadersMiddleware cfg.security inner).headers.getAll "x-request-id" =
        inner.headers.getAll "x-request-id" :=
      getAll_securityHeaders_of_notMem inner (by simp [securityFields])
    rw [hlogged _ (by decide) (by decide) (by decide), getAll_tagResponse_self hvalid, hkept]
  · intro name hname
    simp only [dressedNames, List.mem_cons, List.not_mem_nil, or_false, not_or] at hname
    obtain ⟨hsniff, hframe, hxss, hreferrer, hcsp, hid, hvary, hallow, hexpose⟩ := hname
    rw [hlogged name hvary hallow hexpose, getAll_tagResponse_of_ne hid]
    exact getAll_securityHeaders_of_notMem inner
      (by simp [securityFields, hsniff, hframe, hxss, hreferrer, hcsp])

end Dressing

/-- The ids of a run: valid, the client's own where it sent a valid one, and
those made up different from each other. -/
structure IdsTold (arrivals : ℕ → Arrival) (records : List Record) : Prop where
  given : ∀ i time id generated, ⟨i, time, .entered id generated⟩ ∈ records →
    IdFor (arrivals i) id generated
  distinct : (generatedIds records).length ≤ 2 ^ 64 → (generatedIds records).Nodup

theorem ids_told (cfg : Config) (arrivals : ℕ → Arrival) (clock : Instant)
    (actions : List Action) : IdsTold arrivals (run cfg arrivals clock actions).2 where
  given := (told_run arrivals clock actions).entered
  distinct := (issued_run arrivals clock actions).nodup

/-- Whatever layer answers a request, in whatever interleaving: the reply is its
response with the security headers and the id of the request on it, and nothing
else of it is changed but what is shared with other origins. -/
theorem replies_dressed (cfg : Config) (arrivals : ℕ → Arrival) (clock : Instant)
    (actions : List Action) :
    let records := (run cfg arrivals clock actions).2
    ∀ i time reply, ⟨i, time, .replied reply⟩ ∈ records →
      ∃ id inner, (∃ enteredAt generated, ⟨i, enteredAt, .entered id generated⟩ ∈ records) ∧
        Source cfg arrivals i records inner ∧ Dressed cfg id inner reply := by
  intro records i time reply hreplied
  have htold : Told cfg arrivals _ records := told_run arrivals clock actions
  obtain ⟨id, inner, hanswers⟩ := htold.replied i time reply hreplied
  obtain ⟨enteredAt, generated, hentered⟩ := hanswers.entered
  refine ⟨id, inner, hanswers.entered, hanswers.source, ?_⟩
  rw [hanswers.finished]
  exact finishReply_dressed hanswers.inside
    (htold.entered i enteredAt id generated hentered).valid inner

end Wrapper

end KiteX402
