/-
The life of one request among all others: it comes in once, is answered or
dropped once, and the reply that its gate has made is not lost on the way out.
-/
import KiteX402.ServiceGate

namespace KiteX402

section Replies

def GateEvent.reply : GateEvent → Option Response
  | .replied response => some response
  | _ => none

def gateReplies (trace : List GateEvent) : List Response := trace.filterMap GateEvent.reply

theorem mem_gateReplies {trace : List GateEvent} {reply : Response} :
    reply ∈ gateReplies trace ↔ .replied reply ∈ trace := by
  constructor
  · intro hmem
    obtain ⟨event, hevent, hreply⟩ := List.mem_filterMap.mp hmem
    cases event with
    | replied response =>
        rw [← Option.some.inj hreply]
        exact hevent
    | _ => contradiction
  · intro hmem
    exact List.mem_filterMap.mpr ⟨_, hmem, rfl⟩

theorem gateReplies_append (first last : List GateEvent) :
    gateReplies (first ++ last) = gateReplies first ++ gateReplies last :=
  List.filterMap_append

variable {rt : Runtime} {cfg : PaymentConfig} {req : Request}

theorem gateReplies_opening {attempt : PaymentAttempt} {retain : Bool} {opening : List GateEvent}
    (hopens : Opens rt cfg attempt retain opening) : gateReplies opening = [] := by
  rw [gateReplies, List.filterMap_eq_nil_iff]
  intro event hevent
  obtain ⟨key, reservedAt, generation, rfl⟩ := hopens.of_mem hevent
  rfl

theorem gateReplies_closing (reservation : Option PaymentNonceReservation) (retain : Bool)
    (now : Instant) : gateReplies (closing reservation retain now) = [] := by
  cases reservation <;> rfl

/-- A request is replied to at most once, and then it is over. -/
theorem GateHistory.replies {phase : GatePhase} {trace : List GateEvent}
    (hhist : GateHistory rt cfg req phase trace) :
    (phase ≠ .ended → gateReplies trace = []) ∧ (gateReplies trace).length ≤ 1 := by
  have hnone : ∀ {event : GateEvent} {rest : List GateEvent}, event.reply = none →
      gateReplies (event :: rest) = gateReplies rest := fun h => List.filterMap_cons_none h
  have hverify : ∀ {attempt retain opening}, Opens rt cfg attempt retain opening →
      gateReplies (verifyTrace attempt opening) = [] := by
    intro attempt retain opening hopens
    rw [verifyTrace, gateReplies_append, gateReplies_opening hopens]
    rfl
  have hhandler : ∀ {attempt retain opening verify}, Opens rt cfg attempt retain opening →
      gateReplies (handlerTrace attempt opening verify) = [] := by
    intro attempt retain opening verify hopens
    rw [handlerTrace, gateReplies_append, hverify hopens]
    rfl
  have hsettle : ∀ {attempt retain opening verify response},
      Opens rt cfg attempt retain opening →
        gateReplies (settleTrace attempt opening verify response) = [] := by
    intro attempt retain opening verify response hopens
    rw [settleTrace, gateReplies_append, hhandler hopens]
    rfl
  have hended : ∀ {trace : List GateEvent}, (gateReplies trace).length ≤ 1 →
      (GatePhase.ended ≠ .ended → gateReplies trace = []) ∧ (gateReplies trace).length ≤ 1 :=
    fun hle => ⟨fun hne => absurd rfl hne, hle⟩
  cases hhist with
  | arrived => exact ⟨fun _ => rfl, Nat.zero_le 1⟩
  | unverified events hends =>
      apply hended
      unfold EndsUnverified at hends
      split at hends
      all_goals first
        | exact absurd hends id
        | exact Nat.zero_le 1
        | exact le_refl 1
  | verifying attempt opening hmatch hopens =>
      rw [hverify hopens]
      exact ⟨fun _ => rfl, Nat.zero_le 1⟩
  | handling attempt opening verify hmatch hopens =>
      rw [hhandler hopens]
      exact ⟨fun _ => rfl, Nat.zero_le 1⟩
  | settling attempt opening verify response hmatch hopens =>
      rw [hsettle hopens]
      exact ⟨fun _ => rfl, Nat.zero_le 1⟩
  | verifyCancelled attempt opening now hmatch hopens =>
      apply hended
      rw [gateReplies_append, gateReplies_append, hverify hopens, gateReplies_closing]
      exact Nat.zero_le 1
  | rejected attempt opening now result reply hmatch hopens =>
      apply hended
      rw [gateReplies_append, hnone rfl, gateReplies_append, hverify hopens, gateReplies_closing]
      exact le_refl 1
  | handlerCancelled attempt opening now verify hmatch hopens =>
      apply hended
      rw [gateReplies_append, gateReplies_append, hhandler hopens, gateReplies_closing]
      exact Nat.zero_le 1
  | failed attempt opening now verify response hmatch hopens =>
      apply hended
      rw [gateReplies_append, hnone rfl, gateReplies_append, hhandler hopens, gateReplies_closing]
      exact le_refl 1
  | settleCancelled attempt opening now verify response hmatch hopens =>
      apply hended
      rw [gateReplies_append, gateReplies_append, hsettle hopens, gateReplies_closing]
      exact Nat.zero_le 1
  | settled attempt opening now verify response result hmatch hopens =>
      apply hended
      rw [gateReplies_append, hnone rfl, gateReplies_append, hsettle hopens, gateReplies_closing]
      exact le_refl 1

end Replies

namespace Wrapper

theorem gateReply_eq_head? (trace : List GateEvent) :
    gateReply trace = (gateReplies trace).head? := by
  induction trace with
  | nil => rfl
  | cons event rest ih =>
      cases event with
      | replied response => rfl
      | _ => exact ih

/-- What happened to one request. -/
def eventsOf (i : ℕ) (records : List Record) : List Event :=
  (records.filter fun record => record.request = i).map Record.event

theorem eventsOf_append_stamp_self (i : ℕ) (records : List Record) (now : Instant)
    (events : List Event) :
    eventsOf i (records ++ stamp i now events) = eventsOf i records ++ events := by
  simp [eventsOf, stamp, List.filter_map, Function.comp_def]

theorem eventsOf_append_stamp_of_ne {i j : ℕ} (hne : i ≠ j) (records : List Record)
    (now : Instant) (events : List Event) :
    eventsOf j (records ++ stamp i now events) = eventsOf j records := by
  simp [eventsOf, stamp, hne]

variable (cfg : Config) (arrival : Arrival)

/-- What lies between the entry of a request and its leaving with a response. -/
inductive Course : List Event → Option Response → Prop where
  | free (response) : Course [] response
  | busy : Course [.busy] (some (serviceBusy cfg.rt.codec))
  | refused (calls : List LimiterEvent) (response) (hcalls : calls.length ≤ 1) :
      Course (calls.map .limiter) (some response)
  | gated (calls : List LimiterEvent) (remaining) (trace : List GateEvent)
      (hcalls : calls.length ≤ 1)
      (hhist : GateHistory cfg.rt cfg.payment arrival.request .ended trace) :
      Course (calls.map .limiter ++ trace.map .gate)
        ((gateReply trace).map (annotate cfg remaining))

/-- The last event of a request that came in. -/
def lastEvent (id : String) : Option Response → Event
  | some response => .replied (finishReply cfg arrival id response)
  | none => .dropped

/-- All that can have happened to a request, by where it stands. -/
inductive Life : Phase → List Event → Prop where
  | arrived : Life .arrived []
  | forgotten : Life .departed []
  | preflight (response) : Life .departed [.preflight response]
  | entered (id generated) : Life (.entered id) [.entered id generated]
  | free (id generated) : Life (.free id) [.entered id generated]
  | seated (id generated) : Life (.seated id) [.entered id generated]
  | gated (id generated remaining own) (calls : List LimiterEvent) (trace : List GateEvent)
      (hcalls : calls.length ≤ 1) (hown : own ≠ .ended)
      (hhist : GateHistory cfg.rt cfg.payment arrival.request own trace) :
      Life (.gated id remaining own)
        (.entered id generated :: (calls.map .limiter ++ trace.map .gate))
  | returning (id generated course response) (hcourse : Course cfg arrival course response) :
      Life (.returning id response) (.entered id generated :: course)
  | departing (id generated course response) (hcourse : Course cfg arrival course response) :
      Life (.departing id response) (.entered id generated :: course)
  | gone (id generated course response) (hinner : cfg.answersPreflight arrival = false)
      (hcourse : Course cfg arrival course response) :
      Life .departed (.entered id generated :: (course ++ [lastEvent cfg arrival id response]))

variable {cfg arrival}

theorem length_check_le {layer : RateLimitLayer} {codec : Codec} {clock : MonotonicClock}
    {headers : HeaderMap} {peer : Option IpAddr} {buckets buckets' : BucketStore}
    {now : Instant} {result : Except Response ℕ} {calls : List LimiterEvent}
    (hcheck : layer.check codec clock headers peer buckets now = ((result, buckets'), calls)) :
    calls.length ≤ 1 := by
  have hcalls : calls = (layer.check codec clock headers peer buckets now).2 := by rw [hcheck]
  rw [hcalls]
  unfold RateLimitLayer.check
  cases peer with
  | none => exact Nat.zero_le 1
  | some peer =>
      dsimp only
      split
      · exact Nat.zero_le 1
      · split <;> exact le_refl 1

variable {world world' : World} {now reading : Instant} {phase phase' : Phase}
  {events : List Event}

/-- Every move goes on with the life of the request. -/
theorem Moves.life {past : List Event}
    (hinner : phase.isInside = true → cfg.answersPreflight arrival = false)
    (hmoves : Moves cfg arrival world now reading phase world' phase' events)
    (hlife : Life cfg arrival phase past) : Life cfg arrival phase' (past ++ events) := by
  cases hmoves with
  | stayed =>
      rw [List.append_nil]
      exact hlife
  | forgotten =>
      cases hlife
      exact .forgotten
  | preflight =>
      cases hlife
      exact .preflight _
  | entered unixMillis id counter =>
      cases hlife
      exact .entered id _
  | freed id =>
      cases hlife with
      | entered _ generated => exact .free id generated
  | seated id =>
      cases hlife with
      | entered _ generated => exact .seated id generated
  | busy id =>
      cases hlife with
      | entered _ generated => exact .departing id generated _ _ .busy
  | answered id response =>
      cases hlife with
      | free _ generated => exact .departing id generated _ _ (.free response)
  | unlimited id =>
      cases hlife with
      | seated _ generated =>
          exact .gated id generated none .arrived [] [] (Nat.zero_le 1) (by simp) .arrived
  | admitted id layer remaining buckets calls hlimiter hcheck =>
      cases hlife with
      | seated _ generated =>
          have hcalls : calls.map Event.limiter =
              calls.map .limiter ++ ([] : List GateEvent).map .gate := (List.append_nil _).symm
          rw [hcalls]
          exact .gated id generated _ .arrived calls [] (length_check_le hcheck) (by simp)
            .arrived
  | refused id layer response buckets calls hlimiter hcheck =>
      cases hlife with
      | seated _ generated =>
          exact .returning id generated _ _ (.refused calls response (length_check_le hcheck))
  | gated id remaining own input gate next events hstep hnext =>
      cases hlife with
      | gated _ generated _ _ calls trace hcalls hown hhist =>
          rw [gateStep_tagged] at hstep
          have hafter := hhist.step world.gate now (input.readAt reading)
          rw [hstep] at hafter
          rw [List.cons_append, List.append_assoc, ← List.map_append]
          exact .gated id generated remaining next calls _ hcalls hnext hafter
  | through id remaining own input gate events hstep =>
      cases hlife with
      | gated _ generated _ _ calls trace hcalls hown hhist =>
          rw [gateStep_tagged] at hstep
          have hafter := hhist.step world.gate now (input.readAt reading)
          rw [hstep] at hafter
          have hreply : gateReply events = gateReply (trace ++ events) := by
            rw [gateReply_eq_head?, gateReply_eq_head?, gateReplies_append, hhist.replies.1 hown,
              List.nil_append]
          rw [List.cons_append, List.append_assoc, ← List.map_append, hreply]
          exact .returning id generated _ _ (.gated calls remaining _ hcalls hafter)
  | released id response =>
      cases hlife with
      | returning _ generated course _ hcourse =>
          rw [List.append_nil]
          exact .departing id generated course response hcourse
  | departed id response =>
      cases hlife with
      | departing _ generated course _ hcourse =>
          exact .gone id generated course (some response) (hinner rfl) hcourse
  | dropped id =>
      cases hlife with
      | departing _ generated course _ hcourse =>
          exact .gone id generated course none (hinner rfl) hcourse

theorem life_run (cfg : Config) (arrivals : ℕ → Arrival) (clock : Instant)
    (actions : List Action) (i : ℕ) :
    Life cfg (arrivals i) ((run cfg arrivals clock actions).1.phases i)
      (eventsOf i (run cfg arrivals clock actions).2) := by
  suffices hlives : (∀ i, ((run cfg arrivals clock actions).1.phases i).isInside = true →
        cfg.answersPreflight (arrivals i) = false) ∧
      ∀ i, Life cfg (arrivals i) ((run cfg arrivals clock actions).1.phases i)
        (eventsOf i (run cfg arrivals clock actions).2) from hlives.2 i
  refine run_induction (P := fun state records =>
    (∀ i, (state.phases i).isInside = true → cfg.answersPreflight (arrivals i) = false) ∧
      ∀ i, Life cfg (arrivals i) (state.phases i) (eventsOf i records)) cfg arrivals
    ⟨fun i h => absurd h Bool.false_ne_true, fun i => .arrived⟩ ?_ actions
  rintro state records i now reading world phase events ⟨hinner, hlives⟩ _ _ hmoves
  constructor
  · exact (Function.forall_update_iff state.phases fun j place =>
      place.isInside = true → cfg.answersPreflight (arrivals j) = false).mpr
        ⟨hmoves.inner (hinner i), fun j _ => hinner j⟩
  · intro j
    dsimp only
    by_cases hj : j = i
    · subst hj
      rw [Function.update_self, eventsOf_append_stamp_self]
      exact hmoves.life (hinner j) (hlives j)
    · rw [Function.update_of_ne hj, eventsOf_append_stamp_of_ne (Ne.symm hj)]
      exact hlives j

section Once

def Event.isLimiter : Event → Bool
  | .limiter _ => true
  | _ => false

/-- The service is done with a request: it has answered, or dropped it. -/
def Event.isFinal : Event → Bool
  | .preflight _ | .replied _ | .dropped => true
  | _ => false

/-- A request comes in, is limited and is answered at most once, and nothing
happens to it after that. -/
structure LivesOnce (phase : Phase) (events : List Event) : Prop where
  entered_once : events.countP Event.isEntered ≤ 1
  limited_once : events.countP Event.isLimiter ≤ 1
  ended_once : events.countP Event.isFinal ≤ 1
  ended_last : ∀ before event after, events = before ++ event :: after →
    event.isFinal = true → after = [] ∧ phase = .departed
  ended : phase = .departed → events ≠ [] → ∃ event ∈ events, event.isFinal = true
  /-- What the gate has replied leaves the service. -/
  answered : ∀ reply, .gate (.replied reply) ∈ events → phase = .departed →
    ∃ out, .replied out ∈ events ∧ out.status = reply.status ∧ out.body = reply.body

variable {course : List Event} {response : Option Response}

theorem quiet_inner (calls : List LimiterEvent) (trace : List GateEvent) :
    ∀ event ∈ calls.map Event.limiter ++ trace.map Event.gate,
      event.isFinal = false ∧ event.isEntered = false := by
  intro event hevent
  rcases List.mem_append.mp hevent with hevent | hevent
  · obtain ⟨call, -, rfl⟩ := List.mem_map.mp hevent
    exact ⟨rfl, rfl⟩
  · obtain ⟨inner, -, rfl⟩ := List.mem_map.mp hevent
    exact ⟨rfl, rfl⟩

theorem Course.quiet (hcourse : Course cfg arrival course response) :
    ∀ event ∈ course, event.isFinal = false ∧ event.isEntered = false := by
  intro event hevent
  cases hcourse with
  | free => simp at hevent
  | busy =>
      rw [List.mem_singleton.mp hevent]
      exact ⟨rfl, rfl⟩
  | refused calls response hcalls =>
      exact quiet_inner calls [] event (List.mem_append_left _ hevent)
  | gated calls remaining trace => exact quiet_inner calls trace event hevent

theorem countP_limiter_calls (calls : List LimiterEvent) (trace : List GateEvent) :
    (calls.map Event.limiter ++ trace.map Event.gate).countP Event.isLimiter = calls.length := by
  have hcalls : (calls.map Event.limiter).countP Event.isLimiter = calls.length := by
    rw [List.countP_map, List.countP_eq_length]
    exact fun call _ => rfl
  have htrace : (trace.map Event.gate).countP Event.isLimiter = 0 := by
    rw [List.countP_map, List.countP_eq_zero]
    exact fun event _ => Bool.false_ne_true
  rw [List.countP_append, hcalls, htrace, Nat.add_zero]

theorem Course.limited_once (hcourse : Course cfg arrival course response) :
    course.countP Event.isLimiter ≤ 1 := by
  cases hcourse with
  | free => exact Nat.zero_le 1
  | busy => exact Nat.zero_le 1
  | refused calls response hcalls =>
      have hcount := countP_limiter_calls calls []
      rw [List.map_nil, List.append_nil] at hcount
      rw [hcount]
      exact hcalls
  | gated calls remaining trace hcalls hhist =>
      rw [countP_limiter_calls]
      exact hcalls

/-- The reply of the gate is the response that a course leads to. -/
theorem Course.answered (hcourse : Course cfg arrival course response) {reply : Response}
    (hreply : .gate (.replied reply) ∈ course) :
    ∃ remaining, response = some (annotate cfg remaining reply) := by
  cases hcourse with
  | free => simp at hreply
  | busy => simp at hreply
  | refused => simp at hreply
  | gated calls remaining trace hcalls hhist =>
      have hmem : reply ∈ gateReplies trace := by
        rw [mem_gateReplies]
        simpa using hreply
      obtain ⟨only, honly⟩ : ∃ only, gateReplies trace = [only] := by
        cases hlist : gateReplies trace with
        | nil =>
            rw [hlist] at hmem
            simp at hmem
        | cons only rest =>
            have hlength := hhist.replies.2
            rw [hlist, List.length_cons] at hlength
            rw [List.length_eq_zero_iff.mp (by omega : rest.length = 0)]
            exact ⟨only, rfl⟩
      rw [honly, List.mem_singleton] at hmem
      refine ⟨remaining, ?_⟩
      rw [gateReply_eq_head?, honly, hmem]
      rfl

/-- As long as a request is inside, it has come in and not ended. -/
theorem livesOnce_inside {id : String} {generated : Bool} (hphase : phase ≠ .departed)
    (hquiet : ∀ event ∈ course, event.isFinal = false ∧ event.isEntered = false)
    (hlimited : course.countP Event.isLimiter ≤ 1) :
    LivesOnce phase (.entered id generated :: course) := by
  have hentered : course.countP Event.isEntered = 0 := by
    rw [List.countP_eq_zero]
    intro event hevent
    rw [(hquiet event hevent).2]
    exact Bool.false_ne_true
  have hfinal : ∀ event ∈ Event.entered id generated :: course, event.isFinal = false := by
    intro event hevent
    rcases List.mem_cons.mp hevent with rfl | hevent
    · rfl
    · exact (hquiet event hevent).1
  constructor
  · rw [List.countP_cons_of_pos rfl, hentered]
  · rwa [List.countP_cons_of_neg Bool.false_ne_true]
  · rw [List.countP_eq_zero.mpr fun event hevent => by
      rw [hfinal event hevent]
      exact Bool.false_ne_true]
    exact Nat.zero_le 1
  · intro before event after heq hevent
    have hmem : event ∈ Event.entered id generated :: course := by simp [heq]
    rw [hfinal event hmem] at hevent
    contradiction
  · exact fun h => absurd h hphase
  · exact fun reply _ h => absurd h hphase

theorem livesOnce_gone {id : String} {generated : Bool}
    (hinner : cfg.answersPreflight arrival = false)
    (hcourse : Course cfg arrival course response) :
    LivesOnce .departed
      (.entered id generated :: (course ++ [lastEvent cfg arrival id response])) := by
  have hinside : LivesOnce (.entered id) (.entered id generated :: course) :=
    livesOnce_inside (by simp) hcourse.quiet hcourse.limited_once
  have hlast : (lastEvent cfg arrival id response).isEntered = false ∧
      (lastEvent cfg arrival id response).isLimiter = false ∧
      (lastEvent cfg arrival id response).isFinal = true := by
    cases response <;> exact ⟨rfl, rfl, rfl⟩
  have hnone : (Event.entered id generated :: course).countP Event.isFinal = 0 := by
    rw [List.countP_eq_zero]
    intro event hevent hfinal
    obtain ⟨before, after, heq⟩ := List.append_of_mem hevent
    have hphase := (hinside.ended_last before event after heq hfinal).2
    contradiction
  have hcount : ∀ kind : Event → Bool,
      (Event.entered id generated :: (course ++ [lastEvent cfg arrival id response])).countP kind =
        (Event.entered id generated :: course).countP kind +
          (kind (lastEvent cfg arrival id response)).toNat := by
    intro kind
    rw [← List.cons_append, List.countP_append, List.countP_singleton]
    cases kind (lastEvent cfg arrival id response) <;> rfl
  constructor
  · rw [hcount, hlast.1]
    exact hinside.entered_once
  · rw [hcount, hlast.2.1]
    exact hinside.limited_once
  · rw [hcount, hnone, hlast.2.2]
    exact le_refl 1
  · intro before event after heq hfinal
    rw [← List.cons_append] at heq
    rcases concat_eq_split heq with ⟨-, -, rfl⟩ | ⟨rest, -, hsplit⟩
    · exact ⟨rfl, rfl⟩
    · have hphase := (hinside.ended_last before event rest hsplit hfinal).2
      contradiction
  · exact fun _ _ => ⟨_, by simp, hlast.2.2⟩
  · intro reply hreply _
    have hmem : .gate (.replied reply) ∈ course := by
      have hnot : Event.gate (.replied reply) ≠ lastEvent cfg arrival id response := by
        cases response <;> simp [lastEvent]
      simpa [hnot] using hreply
    obtain ⟨remaining, rfl⟩ := hcourse.answered hmem
    obtain ⟨hstatus, hbody⟩ := finishReply_kept hinner id (annotate cfg remaining reply)
    obtain ⟨hsame, hsame'⟩ := annotate_kept cfg remaining reply
    exact ⟨finishReply cfg arrival id (annotate cfg remaining reply), by simp [lastEvent],
      hstatus.trans hsame, hbody.trans hsame'⟩

end Once

/-- In every interleaving each request lives once. -/
theorem requests_live_once (cfg : Config) (arrivals : ℕ → Arrival) (clock : Instant)
    (actions : List Action) (i : ℕ) :
    LivesOnce ((run cfg arrivals clock actions).1.phases i)
      (eventsOf i (run cfg arrivals clock actions).2) := by
  have hlife := life_run cfg arrivals clock actions i
  generalize (run cfg arrivals clock actions).1.phases i = phase at hlife ⊢
  generalize eventsOf i (run cfg arrivals clock actions).2 = events at hlife ⊢
  cases hlife with
  | arrived => constructor <;> simp
  | forgotten => constructor <;> simp
  | preflight response =>
      refine ⟨Nat.zero_le 1, Nat.zero_le 1, le_refl 1, ?_, ?_, ?_⟩
      · intro before event after heq _
        have hlength := congrArg List.length heq
        rw [List.length_singleton, List.length_append, List.length_cons] at hlength
        exact ⟨List.length_eq_zero_iff.mp (by omega), rfl⟩
      · exact fun _ _ => ⟨_, List.mem_singleton_self _, rfl⟩
      · intro reply hreply
        simp at hreply
  | entered | free | seated => exact livesOnce_inside (by simp) (by simp) (Nat.zero_le 1)
  | gated id generated remaining own calls trace hcalls hown hhist =>
      refine livesOnce_inside (by simp) (quiet_inner calls trace) ?_
      rw [countP_limiter_calls]
      exact hcalls
  | returning id generated course response hcourse =>
      exact livesOnce_inside (by simp) hcourse.quiet hcourse.limited_once
  | departing id generated course response hcourse =>
      exact livesOnce_inside (by simp) hcourse.quiet hcourse.limited_once
  | gone id generated course response hinner hcourse => exact livesOnce_gone hinner hcourse

end Wrapper

end KiteX402
