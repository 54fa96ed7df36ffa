/-
The gate and its facilitator client as one system: every answer of the
facilitator, every delay and every cancellation is a step of its own, and the
steps of different requests interleave.
-/
import KiteX402.FacilitatorClient
import KiteX402.GateReplies
import KiteX402.GateSystem

namespace KiteX402

/-- Where a call of the client stands: it waits for the answer of one of its
requests, or sleeps before the next one. -/
structure CallState where
  attempt : UInt32
  asleep : Bool

def CallState.start : CallState := ⟨0, false⟩

structure ExchangePhase where
  gate : GatePhase
  call : CallState

/-- `answered` is what the HTTP client makes of the answer, or of the lack of one,
`elapsed` after the call began.  The redirects that it follows on the way are within
that. -/
inductive ExchangeInput where
  | poll (wallClock : Option UInt64) (reserveAt : Instant)
  | answered (reply : Except RequestError (ℕ × String)) (elapsed : Duration)
  | woken
  | handled (response : Response)
  | cancel

def ExchangeInput.readAt (reserveAt : Instant) : ExchangeInput → ExchangeInput
  | .poll wallClock _ => .poll wallClock reserveAt
  | input => input

inductive ExchangeEvent where
  | gate (event : GateEvent)
  | posted (op : FacilitatorOp) (post : Post)
  | answered (op : FacilitatorOp) (reply : Except RequestError (ℕ × String))
  | slept (backoff : Duration)

def ExchangeEvent.gateEvent : ExchangeEvent → Option GateEvent
  | .gate event => some event
  | _ => none

def GateEvent.called (op : FacilitatorOp) (payload : PaymentPayload)
    (requirements : PaymentRequirements) : GateEvent :=
  match op with
  | .verify => .verifyCalled payload requirements
  | .settle => .settleCalled payload requirements

section Step

variable (rt : Runtime) (cfg : PaymentConfig) (req : Request) (client : FacilitatorClient)
  (reader : AnswerReader)

/-- A call of the gate sends the first request at once. -/
def opened : GateEvent → List ExchangeEvent
  | .verifyCalled payload requirements =>
      [.gate (.verifyCalled payload requirements),
        .posted .verify (client.post .verify payload requirements)]
  | .settleCalled payload requirements =>
      [.gate (.settleCalled payload requirements),
        .posted .settle (client.post .settle payload requirements)]
  | event => [.gate event]

def gateMove (world : GateWorld) (phase : GatePhase) (now : Instant) (input : GateInput) :
    (GateWorld × ExchangePhase) × List ExchangeEvent :=
  let next := gateStep rt cfg req world phase now input
  ((next.1.1, ⟨next.1.2, .start⟩), next.2.flatMap (opened client))

/-- The gate knows an error by its text. -/
def tell {A : Type} (outcome : Except FacilitatorError A) : Except String A :=
  outcome.mapError FacilitatorError.message

/-- One step of a request; an input that nothing waits for changes nothing. -/
def exchangeStep (world : GateWorld) (place : ExchangePhase) (now : Instant)
    (input : ExchangeInput) : (GateWorld × ExchangePhase) × List ExchangeEvent :=
  match place, input with
  | ⟨.ended, call⟩, _ => ((world, ⟨.ended, call⟩), [])
  | ⟨.arrived, _⟩, .poll wallClock reserveAt =>
      gateMove rt cfg req client world .arrived now (.poll wallClock reserveAt)
  | ⟨.verifying attempt, ⟨n, false⟩⟩, .answered reply _ =>
      match client.judge .verify n (reader.readVerify reply) with
      | .retry backoff =>
          ((world, ⟨.verifying attempt, ⟨n, true⟩⟩),
            [.answered .verify reply, .slept backoff])
      | .conclude result =>
          let next := gateMove rt cfg req client world (.verifying attempt) now
            (.verified (tell result))
          (next.1, .answered .verify reply :: next.2)
  | ⟨.verifying attempt, ⟨n, true⟩⟩, .woken =>
      ((world, ⟨.verifying attempt, ⟨n + 1, false⟩⟩),
        [.posted .verify (client.post .verify attempt.payload attempt.requirements)])
  | ⟨.handling attempt, _⟩, .handled response =>
      gateMove rt cfg req client world (.handling attempt) now (.handled response)
  | ⟨.settling attempt response, ⟨n, false⟩⟩, .answered reply elapsed =>
      match client.judge .settle n (reader.readSettle reply) with
      | .retry backoff =>
          ((world, ⟨.settling attempt response, ⟨n, true⟩⟩),
            [.answered .settle reply, .slept backoff])
      | .conclude result =>
          let next := gateMove rt cfg req client world (.settling attempt response) now
            (.settled (tell result) elapsed)
          (next.1, .answered .settle reply :: next.2)
  | ⟨.settling attempt response, ⟨n, true⟩⟩, .woken =>
      ((world, ⟨.settling attempt response, ⟨n + 1, false⟩⟩),
        [.posted .settle (client.post .settle attempt.payload attempt.requirements)])
  | ⟨phase, _⟩, .cancel => gateMove rt cfg req client world phase now .cancel
  | place, _ => ((world, place), [])

/-- The events that neither call the facilitator nor report its answer. -/
def GateEvent.isPlain : GateEvent → Bool
  | .verifyCalled _ _ | .verifyReturned _ | .settleCalled _ _ | .settleReturned _ => false
  | _ => true

/-- The inputs that a request waits for. -/
def GatePhase.awaits : GatePhase → GateInput → Bool
  | .arrived, .poll _ _ | .verifying _, .verified _ | .handling _, .handled _
  | .settling _ _, .settled _ _ => true
  | .ended, .cancel => false
  | _, .cancel => true
  | _, _ => false

/-- How a step of the gate deals with the facilitator. -/
inductive GateTurns : GatePhase → GateInput → GatePhase → List GateEvent → Prop where
  | verifies (input attempt opening)
      (hopening : ∀ event ∈ opening, event.isPlain = true) :
      GateTurns .arrived input (.verifying attempt)
        (opening ++ [.verifyCalled attempt.payload attempt.requirements])
  | enters (attempt next result) :
      GateTurns (.verifying attempt) (.verified result) (.handling next)
        [.verifyReturned result, .handlerEntered]
  | rejects (attempt result closing) (hclosing : ∀ event ∈ closing, event.isPlain = true) :
      GateTurns (.verifying attempt) (.verified result) .ended
        (.verifyReturned result :: closing)
  | settles (attempt response) :
      GateTurns (.handling attempt) (.handled response) (.settling attempt response)
        [.handlerReturned response,
          .settleCalled attempt.payload attempt.requirements]
  | concludes (attempt response result elapsed closing)
      (hclosing : ∀ event ∈ closing, event.isPlain = true) :
      GateTurns (.settling attempt response) (.settled result elapsed) .ended
        (.settleReturned result :: closing)
  | ends (phase input closing) (hclosing : ∀ event ∈ closing, event.isPlain = true) :
      GateTurns phase input .ended closing

variable {rt cfg req}

theorem plain_finish {world : GateWorld} {reservation : Option PaymentNonceReservation}
    {now : Instant} {last : GateEvent} (hlast : last.isPlain = true) :
    ∀ event ∈ (finish rt cfg world reservation now last).2, event.isPlain = true := by
  intro event hmem
  unfold finish at hmem
  split at hmem
  · rcases List.mem_cons.mp hmem with rfl | hmem
    · rfl
    · rw [List.mem_singleton.mp hmem]
      exact hlast
  · rw [List.mem_singleton.mp hmem]
    exact hlast

theorem arrive_turns (world : GateWorld) (wallClock : Option UInt64) (reserveAt : Instant)
    (input : GateInput) :
    GateTurns .arrived input (arrive rt cfg req world wallClock reserveAt).1.2
      (arrive rt cfg req world wallClock reserveAt).2 := by
  unfold arrive
  dsimp only
  split
  · exact .ends _ _ _ (by simp [GateEvent.isPlain])
  · exact .ends _ _ _ (by simp [GateEvent.isPlain])
  next payload requirements hpassed =>
    split
    · exact .verifies _ ⟨payload, requirements, none⟩ [] (by simp)
    · split
      next handle store hreserved =>
        exact .verifies _ ⟨payload, requirements, some handle⟩
          [.guard (.reserved handle.key reserveAt handle.generation)]
          (by simp [GateEvent.isPlain])
      · exact .ends _ _ _ (by simp [GateEvent.isPlain])
      · exact .ends _ _ _ (by simp [GateEvent.isPlain])

theorem afterVerify_turns (world : GateWorld) (attempt : PaymentAttempt) (now : Instant)
    (result : Except String VerifyResponse) :
    GateTurns (.verifying attempt) (.verified result)
      (afterVerify rt cfg req world attempt now result).1.2
      (afterVerify rt cfg req world attempt now result).2 := by
  unfold afterVerify
  dsimp only
  split
  · rw [finish_phase]
    exact .rejects _ _ _ (plain_finish rfl)
  · split
    · exact .enters _ _ _
    · rw [finish_phase]
      exact .rejects _ _ _ (plain_finish rfl)

theorem afterHandler_turns (world : GateWorld) (attempt : PaymentAttempt) (now : Instant)
    (response : Response) :
    GateTurns (.handling attempt) (.handled response)
      (afterHandler rt cfg world attempt now response).1.2
      (afterHandler rt cfg world attempt now response).2 := by
  unfold afterHandler
  dsimp only
  split
  · rw [finish_phase]
    refine .ends _ _ _ fun event hmem => ?_
    rcases List.mem_cons.mp hmem with rfl | hmem
    · rfl
    · exact plain_finish rfl event hmem
  · exact .settles _ _

theorem afterSettle_turns (world : GateWorld) (attempt : PaymentAttempt) (response : Response)
    (now : Instant) (result : Except String SettleResponse) (elapsed : Duration) :
    GateTurns (.settling attempt response) (.settled result elapsed)
      (afterSettle rt cfg world attempt response now result elapsed).1.2
      (afterSettle rt cfg world attempt response now result elapsed).2 := by
  unfold afterSettle
  dsimp only
  cases result with
  | ok settle =>
      rw [finish_phase]
      exact .concludes _ _ _ _ _ (plain_finish rfl)
  | error error =>
      rw [finish_phase]
      exact .concludes _ _ _ _ _ (plain_finish rfl)

theorem gateStep_turns (world : GateWorld) {phase : GatePhase} (now : Instant)
    {input : GateInput} (hawaits : phase.awaits input = true) :
    GateTurns phase input (gateStep rt cfg req world phase now input).1.2
      (gateStep rt cfg req world phase now input).2 := by
  have hcancel : ∀ phase reservation, GateTurns phase .cancel
      (finish rt cfg world reservation now .cancelled).1.2
      (finish rt cfg world reservation now .cancelled).2 := by
    intro phase reservation
    rw [finish_phase]
    exact .ends _ _ _ (plain_finish rfl)
  cases phase with
  | arrived =>
      cases input with
      | poll wallClock reserveAt => exact arrive_turns world wallClock reserveAt _
      | cancel => exact .ends _ _ [.cancelled] (by simp [GateEvent.isPlain])
      | _ => contradiction
  | verifying attempt =>
      cases input with
      | verified result => exact afterVerify_turns world attempt now result
      | cancel => exact hcancel _ _
      | _ => contradiction
  | handling attempt =>
      cases input with
      | handled response => exact afterHandler_turns world attempt now response
      | cancel => exact hcancel _ _
      | _ => contradiction
  | settling attempt response =>
      cases input with
      | settled result elapsed => exact afterSettle_turns world attempt response now result elapsed
      | cancel => exact hcancel _ _
      | _ => contradiction
  | ended => cases input <;> contradiction

end Step

section Moves

variable (rt : Runtime) (cfg : PaymentConfig) (req : Request) (client : FacilitatorClient)
  (reader : AnswerReader)

/-- What a step can do while no settlement sleeps. -/
inductive ExchangeMoves (world : GateWorld) (now reading : Instant) :
    ExchangePhase → GateWorld → ExchangePhase → List ExchangeEvent → Prop where
  | ignored (place) : ExchangeMoves world now reading place world place []
  | gate (phase call input world' next events) (hawaits : phase.awaits input = true)
      (hinput : ∀ result, input ≠ .verified result)
      (hinput' : ∀ result elapsed, input ≠ .settled result elapsed)
      (hread : input.readAt reading = input)
      (hstep : gateStep rt cfg req world phase now input = ((world', next), events)) :
      ExchangeMoves world now reading ⟨phase, call⟩ world' ⟨next, .start⟩
        (events.flatMap (opened client))
  | retried (attempt n reply backoff)
      (hjudge : client.judge .verify n (reader.readVerify reply) = .retry backoff) :
      ExchangeMoves world now reading ⟨.verifying attempt, ⟨n, false⟩⟩ world
        ⟨.verifying attempt, ⟨n, true⟩⟩ [.answered .verify reply, .slept backoff]
  | woken (attempt n) :
      ExchangeMoves world now reading ⟨.verifying attempt, ⟨n, true⟩⟩ world
        ⟨.verifying attempt, ⟨n + 1, false⟩⟩
        [.posted .verify (client.post .verify attempt.payload attempt.requirements)]
  | verified (attempt n reply world' next events)
      (hstep : gateStep rt cfg req world (.verifying attempt) now
        (.verified (tell (reader.readVerify reply))) = ((world', next), events)) :
      ExchangeMoves world now reading ⟨.verifying attempt, ⟨n, false⟩⟩ world' ⟨next, .start⟩
        (.answered .verify reply :: events.flatMap (opened client))
  | settled (attempt response n reply elapsed world' next events)
      (hstep : gateStep rt cfg req world (.settling attempt response) now
        (.settled (tell (reader.readSettle reply)) elapsed) = ((world', next), events)) :
      ExchangeMoves world now reading ⟨.settling attempt response, ⟨n, false⟩⟩ world'
        ⟨next, .start⟩ (.answered .settle reply :: events.flatMap (opened client))

variable {rt cfg req client reader}

theorem exchangeStep_moves (world : GateWorld) {place : ExchangePhase}
    (now reading : Instant) (input : ExchangeInput)
    (hawake : ∀ attempt response, place.gate = .settling attempt response →
      place.call.asleep = false) :
    ExchangeMoves rt cfg req client reader world now reading place
      (exchangeStep rt cfg req client reader world place now (input.readAt reading)).1.1
      (exchangeStep rt cfg req client reader world place now (input.readAt reading)).1.2
      (exchangeStep rt cfg req client reader world place now (input.readAt reading)).2 := by
  have hgate : ∀ phase call input, phase.awaits input = true →
      (∀ result, input ≠ .verified result) →
      (∀ result elapsed, input ≠ .settled result elapsed) → input.readAt reading = input →
      ExchangeMoves rt cfg req client reader world now reading ⟨phase, call⟩
        (gateMove rt cfg req client world phase now input).1.1
        (gateMove rt cfg req client world phase now input).1.2
        (gateMove rt cfg req client world phase now input).2 :=
    fun phase call input hawaits hinput hinput' hread =>
      .gate phase call input _ _ _ hawaits hinput hinput' hread rfl
  have hcancel := fun phase call (hawaits : GatePhase.awaits phase .cancel = true) =>
    hgate phase call .cancel hawaits (by simp) (by simp) rfl
  obtain ⟨phase, n, asleep⟩ := place
  cases phase with
  | arrived =>
      cases input with
      | poll wallClock reserveAt =>
          exact hgate _ _ (.poll wallClock reading) rfl (by simp) (by simp) rfl
      | cancel => exact hcancel _ _ rfl
      | _ => exact .ignored _
  | verifying attempt =>
      cases asleep with
      | true =>
          cases input with
          | woken => exact .woken attempt n
          | cancel => exact hcancel _ _ rfl
          | _ => exact .ignored _
      | false =>
          cases input with
          | answered reply elapsed =>
              simp only [exchangeStep, ExchangeInput.readAt]
              cases hjudge : client.judge .verify n (reader.readVerify reply) with
              | retry backoff => exact .retried attempt n reply backoff hjudge
              | conclude result =>
                  rw [judge_conclude hjudge]
                  exact .verified attempt n reply _ _ _ rfl
          | cancel => exact hcancel _ _ rfl
          | _ => exact .ignored _
  | handling attempt =>
      cases input with
      | handled response => exact hgate _ _ (.handled response) rfl (by simp) (by simp) rfl
      | cancel => exact hcancel _ _ rfl
      | _ => exact .ignored _
  | settling attempt response =>
      obtain rfl : asleep = false := hawake attempt response rfl
      cases input with
      | cancel => exact hcancel _ _ rfl
      | answered reply elapsed =>
          simp only [exchangeStep, ExchangeInput.readAt]
          cases hjudge : client.judge .settle n (reader.readSettle reply) with
          | retry backoff =>
              obtain ⟨hverify, _⟩ := judge_retry hjudge
              contradiction
          | conclude result =>
              rw [judge_conclude hjudge]
              exact .settled attempt response n reply elapsed _ _ _ rfl
      | _ => exact .ignored _
  | ended => exact .ignored _

end Moves

theorem toNat_succ_of_lt {attempt maxRetries : UInt32} (hlt : attempt < maxRetries) :
    (attempt + 1).toNat = attempt.toNat + 1 := by
  have hbelow := UInt32.lt_iff_toNat_lt.mp hlt
  have hbound := maxRetries.toNat_lt
  rw [UInt32.toNat_add, show (1 : UInt32).toNat = 1 from rfl, Nat.mod_eq_of_lt (by omega)]

section Call

variable (rt : Runtime) (cfg : PaymentConfig) (req : Request) (client : FacilitatorClient)
  (reader : AnswerReader)

/-- A request on its own, its inputs one after the other. -/
def exchangeRun (world : GateWorld) (place : ExchangePhase) (now : Instant) :
    List ExchangeInput → GateWorld × ExchangePhase
  | [] => (world, place)
  | input :: rest =>
      let next := exchangeStep rt cfg req client reader world place now input
      exchangeRun next.1.1 next.1.2 now rest

/-- Answers until the last of some retries. -/
def answers (replies : ℕ → Except RequestError (ℕ × String)) : ℕ → List ExchangeInput
  | 0 => [.answered (replies 0) 0]
  | retries + 1 => .answered (replies 0) 0 :: .woken :: answers (fun n => replies (n + 1)) retries

/-- One answer at a time, a verification comes to what its loop returns. -/
theorem exchangeRun_call (world : GateWorld) (attempt : PaymentAttempt) (now : Instant)
    (n : UInt32) (replies : ℕ → Except RequestError (ℕ × String)) :
    ∃ retries, exchangeRun rt cfg req client reader world ⟨.verifying attempt, ⟨n, false⟩⟩ now
        (answers replies retries) =
      (gateMove rt cfg req client world (.verifying attempt) now (.verified (tell
        (callLoop client.retryConfig (client.maxRetries .verify) n fun k =>
          reader.readVerify (replies k)).2))).1 := by
  induction hleft : (client.maxRetries .verify).toNat - n.toNat using Nat.strong_induction_on
    generalizing n replies with
  | _ left ih =>
      rw [callLoop_judge]
      cases hjudge : client.judge .verify n (reader.readVerify (replies 0)) with
      | conclude result =>
          exact ⟨0, by simp only [answers, exchangeRun, exchangeStep, hjudge]⟩
      | retry backoff =>
          obtain ⟨_, hbelow, _⟩ := judge_retry hjudge
          have hlt := UInt32.lt_iff_toNat_lt.mp hbelow
          have hsucc := toNat_succ_of_lt hbelow
          obtain ⟨retries, hrun⟩ := ih ((client.maxRetries .verify).toNat - (n + 1).toNat)
            (by omega) (n + 1) (fun k => replies (k + 1)) rfl
          refine ⟨retries + 1, ?_⟩
          simp only [answers, exchangeRun, exchangeStep, hjudge]
          exact hrun

end Call

section Opening

variable {client : FacilitatorClient}

theorem opened_of_plain {event : GateEvent} (hplain : event.isPlain = true) :
    opened client event = [.gate event] := by
  cases event <;> first
    | contradiction
    | rfl

theorem flatMap_opened_of_plain {events : List GateEvent}
    (hplain : ∀ event ∈ events, event.isPlain = true) :
    events.flatMap (opened client) = events.map .gate := by
  induction events with
  | nil => rfl
  | cons event rest ih =>
      rw [List.flatMap_cons, opened_of_plain (hplain event List.mem_cons_self),
        ih fun other hother => hplain other (List.mem_cons_of_mem _ hother)]
      rfl

/-- The gate's part of what it opens is what it did. -/
theorem filterMap_gateEvent_opened (events : List GateEvent) :
    (events.flatMap (opened client)).filterMap ExchangeEvent.gateEvent = events := by
  induction events with
  | nil => rfl
  | cons event rest ih =>
      rw [List.flatMap_cons, List.filterMap_append, ih]
      cases event <;> rfl

def ExchangeEvent.isPosted (op : FacilitatorOp) : ExchangeEvent → Bool
  | .posted op' _ => op' = op
  | _ => false

theorem countP_posted_map (op : FacilitatorOp) (events : List GateEvent) :
    (events.map ExchangeEvent.gate).countP (·.isPosted op) = 0 := by
  rw [List.countP_eq_zero]
  intro event hmem
  obtain ⟨inner, _, rfl⟩ := List.mem_map.mp hmem
  exact Bool.false_ne_true

end Opening

section Conversation

variable (rt : Runtime) (cfg : PaymentConfig) (req : Request) (client : FacilitatorClient)
  (reader : AnswerReader)

/-- What may come next in the conversation of a request with the facilitator. -/
def Follows (before : List ExchangeEvent) : ExchangeEvent → Prop
  | .posted op post => ∃ payload requirements, Matches rt cfg req payload requirements ∧
      post = client.post op payload requirements ∧
      (before.getLast? = some (.gate (.called op payload requirements)) ∨
        op = .verify ∧ ∃ backoff, before.getLast? = some (.slept backoff))
  | .answered op _ => ∃ post, before.getLast? = some (.posted op post)
  | .slept _ => ∃ reply, before.getLast? = some (.answered .verify reply) ∧
      ¬Conclusive (reader.readVerify reply)
  | .gate (.verifyReturned result) => ∃ reply,
      before.getLast? = some (.answered .verify reply) ∧ result = tell (reader.readVerify reply)
  | .gate (.settleReturned result) => ∃ reply,
      before.getLast? = some (.answered .settle reply) ∧ result = tell (reader.readSettle reply)
  | _ => True

/-- The operation whose answer a request waits for. -/
def ExchangePhase.waitsFor : ExchangePhase → Option FacilitatorOp
  | ⟨.verifying _, ⟨_, false⟩⟩ => some .verify
  | ⟨.settling _ _, ⟨_, false⟩⟩ => some .settle
  | _ => none

/-- How many requests have been sent, from where a request stands. -/
def Posts : ExchangePhase → ℕ → ℕ → Prop
  | ⟨.arrived, _⟩, verifies, settles => verifies = 0 ∧ settles = 0
  | ⟨.verifying _, call⟩, verifies, settles =>
      verifies = call.attempt.toNat + 1 ∧ settles = 0 ∧
      call.attempt.toNat + (if call.asleep then 1 else 0) ≤ (client.maxRetries .verify).toNat
  | ⟨.handling _, _⟩, verifies, settles =>
      verifies ≤ (client.maxRetries .verify).toNat + 1 ∧ settles = 0
  | ⟨.settling _ _, call⟩, verifies, settles =>
      verifies ≤ (client.maxRetries .verify).toNat + 1 ∧ settles = 1 ∧ call.asleep = false
  | ⟨.ended, _⟩, verifies, settles =>
      verifies ≤ (client.maxRetries .verify).toNat + 1 ∧ settles ≤ 1

/-- What a request and the facilitator have said so far. -/
structure Conversed (place : ExchangePhase) (trace : List ExchangeEvent) : Prop where
  history : GateHistory rt cfg req place.gate (trace.filterMap ExchangeEvent.gateEvent)
  paid : RepliesPaid rt cfg req (trace.filterMap ExchangeEvent.gateEvent)
  follows : Justified (Follows rt cfg req client reader) trace
  posts : Posts client place (trace.countP (·.isPosted .verify))
    (trace.countP (·.isPosted .settle))
  asleep : place.call.asleep = true → ∃ backoff, trace.getLast? = some (.slept backoff)
  waits : ∀ op, place.waitsFor = some op → ∃ post, trace.getLast? = some (.posted op post)

variable {rt cfg req client reader}

theorem Conversed.start : Conversed rt cfg req client reader ⟨.arrived, .start⟩ [] where
  history := .arrived
  paid reply hmem := by simp at hmem
  follows := justified_nil _
  posts := ⟨rfl, rfl⟩
  asleep h := absurd h Bool.false_ne_true
  waits op h := by contradiction

theorem Follows.plain {before : List ExchangeEvent} {event : GateEvent}
    (hplain : event.isPlain = true) : Follows rt cfg req client reader before (.gate event) := by
  cases event <;> first
    | contradiction
    | trivial

theorem GateHistory.matches_verifying {attempt : PaymentAttempt} {trace : List GateEvent}
    (hhist : GateHistory rt cfg req (.verifying attempt) trace) :
    Matches rt cfg req attempt.payload attempt.requirements := by
  cases hhist with
  | verifying _ _ hmatch _ => exact hmatch

theorem GateHistory.matches_settling {attempt : PaymentAttempt} {response : Response}
    {trace : List GateEvent} (hhist : GateHistory rt cfg req (.settling attempt response) trace) :
    Matches rt cfg req attempt.payload attempt.requirements := by
  cases hhist with
  | settling _ _ _ _ hmatch _ _ _ => exact hmatch

/-- A step of the gate continues the conversation, where what it was told is what
the client has just read. -/
theorem GateTurns.follows {phase next : GatePhase} {input : GateInput} {events : List GateEvent}
    {before : List ExchangeEvent} {trace : List GateEvent}
    (hturns : GateTurns phase input next events)
    (hhist : GateHistory rt cfg req next trace)
    (hverified : ∀ result, input = .verified result → ∃ reply,
      before.getLast? = some (.answered .verify reply) ∧ result = tell (reader.readVerify reply))
    (hsettled : ∀ result elapsed, input = .settled result elapsed → ∃ reply,
      before.getLast? = some (.answered .settle reply) ∧
        result = tell (reader.readSettle reply)) :
    Justified (fun more => Follows rt cfg req client reader (before ++ more))
      (events.flatMap (opened client)) := by
  have hplain : ∀ {events : List GateEvent}, (∀ event ∈ events, event.isPlain = true) →
      ∀ start, Justified (fun more => Follows rt cfg req client reader (start ++ more))
        (events.flatMap (opened client)) := by
    intro events hevents start
    rw [flatMap_opened_of_plain hevents]
    apply justified_of_forall
    intro event hmem more
    obtain ⟨inner, hinner, rfl⟩ := List.mem_map.mp hmem
    exact .plain (hevents inner hinner)
  cases hturns with
  | verifies _ attempt opening hopening =>
      rw [List.flatMap_append, justified_append]
      refine ⟨hplain hopening before, ?_⟩
      simp only [List.flatMap_cons, List.flatMap_nil, opened, List.append_nil, justified_cons,
        justified_nil, and_true]
      refine ⟨trivial, _, _, hhist.matches_verifying, rfl, Or.inl ?_⟩
      simp [GateEvent.called]
  | enters attempt next result =>
      obtain ⟨reply, hlast, hresult⟩ := hverified result rfl
      simp only [List.flatMap_cons, List.flatMap_nil, opened, List.append_nil, justified_cons,
        justified_nil, and_true, List.cons_append, List.nil_append]
      exact ⟨⟨reply, hlast, hresult⟩, trivial⟩
  | rejects attempt result closing hclosing =>
      obtain ⟨reply, hlast, hresult⟩ := hverified result rfl
      rw [List.flatMap_cons, justified_append]
      refine ⟨?_, ?_⟩
      · simp only [opened, justified_cons, justified_nil, and_true, List.append_nil]
        exact ⟨reply, hlast, hresult⟩
      · simpa only [List.append_assoc] using hplain hclosing
          (before ++ opened client (.verifyReturned result))
  | settles attempt response =>
      simp only [List.flatMap_cons, List.flatMap_nil, opened, List.append_nil, justified_cons,
        justified_nil, and_true, List.cons_append, List.nil_append]
      refine ⟨trivial, trivial, _, _, hhist.matches_settling, rfl, Or.inl ?_⟩
      simp [GateEvent.called]
  | concludes attempt response result elapsed closing hclosing =>
      obtain ⟨reply, hlast, hresult⟩ := hsettled result elapsed rfl
      rw [List.flatMap_cons, justified_append]
      refine ⟨?_, ?_⟩
      · simp only [opened, justified_cons, justified_nil, and_true, List.append_nil]
        exact ⟨reply, hlast, hresult⟩
      · simpa only [List.append_assoc] using hplain hclosing
          (before ++ opened client (.settleReturned result))
  | ends _ _ closing hclosing => exact hplain hclosing before

/-- A request that waits after a step of the gate has just sent something. -/
theorem GateTurns.waits {phase next : GatePhase} {input : GateInput} {events : List GateEvent}
    (hturns : GateTurns phase input next events) {op : FacilitatorOp}
    (hwaits : (ExchangePhase.mk next .start).waitsFor = some op) :
    ∃ post, (events.flatMap (opened client)).getLast? = some (.posted op post) := by
  cases hturns with
  | verifies _ attempt opening hopening =>
      obtain rfl := Option.some.inj hwaits
      rw [List.flatMap_append]
      exact ⟨client.post .verify attempt.payload attempt.requirements, by simp [opened]⟩
  | settles attempt response =>
      obtain rfl := Option.some.inj hwaits
      exact ⟨client.post .settle attempt.payload attempt.requirements, by simp [opened]⟩
  | _ => contradiction

theorem Posts.le {place : ExchangePhase} {verifies settles : ℕ}
    (hposts : Posts client place verifies settles) :
    verifies ≤ (client.maxRetries .verify).toNat + 1 ∧ settles ≤ 1 := by
  obtain ⟨phase, call⟩ := place
  cases phase with
  | arrived =>
      obtain ⟨rfl, rfl⟩ := hposts
      exact ⟨Nat.zero_le _, Nat.zero_le 1⟩
  | verifying attempt =>
      obtain ⟨rfl, rfl, hretries⟩ := hposts
      exact ⟨by omega, Nat.zero_le 1⟩
  | handling attempt =>
      obtain ⟨hverifies, rfl⟩ := hposts
      exact ⟨hverifies, Nat.zero_le 1⟩
  | settling attempt response =>
      obtain ⟨hverifies, rfl, _⟩ := hposts
      exact ⟨hverifies, le_refl 1⟩
  | ended => exact hposts

/-- A step of the gate sends at most one request. -/
theorem GateTurns.posts {phase next : GatePhase} {input : GateInput} {events : List GateEvent}
    (hturns : GateTurns phase input next events) {call : CallState} {verifies settles : ℕ}
    (hposts : Posts client ⟨phase, call⟩ verifies settles) :
    Posts client ⟨next, .start⟩
      (verifies + (events.flatMap (opened client)).countP (·.isPosted .verify))
      (settles + (events.flatMap (opened client)).countP (·.isPosted .settle)) := by
  have hplain : ∀ {events : List GateEvent}, (∀ event ∈ events, event.isPlain = true) →
      ∀ op, (events.flatMap (opened client)).countP (·.isPosted op) = 0 := by
    intro events hevents op
    rw [flatMap_opened_of_plain hevents, countP_posted_map]
  cases hturns with
  | verifies _ attempt opening hopening =>
      obtain ⟨rfl, rfl⟩ := hposts
      rw [List.flatMap_append, List.countP_append, List.countP_append, hplain hopening,
        hplain hopening]
      exact ⟨rfl, rfl, Nat.zero_le _⟩
  | enters attempt next result => exact ⟨hposts.le.1, hposts.2.1⟩
  | rejects attempt result closing hclosing =>
      rw [List.flatMap_cons, List.countP_append, List.countP_append, hplain hclosing,
        hplain hclosing]
      exact hposts.le
  | settles attempt response =>
      obtain ⟨hverifies, rfl⟩ := hposts
      exact ⟨hverifies, rfl, rfl⟩
  | concludes attempt response result elapsed closing hclosing =>
      rw [List.flatMap_cons, List.countP_append, List.countP_append, hplain hclosing,
        hplain hclosing]
      exact hposts.le
  | ends _ _ closing hclosing =>
      rw [hplain hclosing, hplain hclosing]
      exact hposts.le

variable {world world' : GateWorld} {place place' : ExchangePhase} {now reading : Instant}
  {trace events : List ExchangeEvent}

theorem Conversed.awake (hconversed : Conversed rt cfg req client reader place trace) :
    ∀ attempt response, place.gate = .settling attempt response →
      place.call.asleep = false := by
  obtain ⟨phase, call⟩ := place
  rintro attempt response rfl
  exact hconversed.posts.2.2

/-- What the gate does not do leaves its part of the trace as it is. -/
theorem filterMap_gateEvent_append (trace said : List ExchangeEvent)
    (hsaid : said.filterMap ExchangeEvent.gateEvent = []) :
    (trace ++ said).filterMap ExchangeEvent.gateEvent =
      trace.filterMap ExchangeEvent.gateEvent := by
  rw [List.filterMap_append, hsaid, List.append_nil]

/-- The gate's part of a move. -/
theorem Conversed.turn {phase next : GatePhase} {call : CallState} {input : GateInput}
    {gateEvents : List GateEvent}
    (hconversed : Conversed rt cfg req client reader ⟨phase, call⟩ trace)
    (said : List ExchangeEvent) (hsaid : said.filterMap ExchangeEvent.gateEvent = [])
    (hsilent : ∀ op, said.countP (·.isPosted op) = 0)
    (hfollows : Justified (fun more => Follows rt cfg req client reader (trace ++ more)) said)
    (hawaits : phase.awaits input = true)
    (hstep : gateStep rt cfg req world phase now input = ((world', next), gateEvents))
    (hverified : ∀ result, input = .verified result → ∃ reply,
      (trace ++ said).getLast? = some (.answered .verify reply) ∧
        result = tell (reader.readVerify reply))
    (hsettled : ∀ result elapsed, input = .settled result elapsed → ∃ reply,
      (trace ++ said).getLast? = some (.answered .settle reply) ∧
        result = tell (reader.readSettle reply)) :
    Conversed rt cfg req client reader ⟨next, .start⟩
      (trace ++ (said ++ gateEvents.flatMap (opened client))) := by
  have hturns : GateTurns phase input (gateStep rt cfg req world phase now input).1.2
      (gateStep rt cfg req world phase now input).2 := gateStep_turns world now hawaits
  have hhist := hconversed.history.step world now input
  have hpaid := hconversed.history.repliesPaid hconversed.paid world now input
  have hgate : (trace ++ (said ++ gateEvents.flatMap (opened client))).filterMap
      ExchangeEvent.gateEvent = trace.filterMap ExchangeEvent.gateEvent ++ gateEvents := by
    rw [← List.append_assoc, List.filterMap_append, filterMap_gateEvent_append _ _ hsaid,
      filterMap_gateEvent_opened]
  rw [hstep] at hturns hhist hpaid
  refine ⟨hgate ▸ hhist, hgate ▸ hpaid, ?_, ?_, fun h => absurd h Bool.false_ne_true,
    fun op hwaits => ?_⟩
  · rw [justified_append, justified_append]
    refine ⟨hconversed.follows, hfollows, ?_⟩
    simp only [← List.append_assoc]
    exact hturns.follows hhist hverified hsettled
  · have hposts := hturns.posts hconversed.posts
    simp only [List.countP_append, hsilent, Nat.zero_add]
    exact hposts
  · obtain ⟨post, hlast⟩ : ∃ post, (gateEvents.flatMap (opened client)).getLast? =
        some (.posted op post) := hturns.waits hwaits
    exact ⟨post, by simp [hlast]⟩

/-- Every move continues the conversation. -/
theorem Conversed.step (hconversed : Conversed rt cfg req client reader place trace)
    (hmoves : ExchangeMoves rt cfg req client reader world now reading place world' place' events) :
    Conversed rt cfg req client reader place' (trace ++ events) := by
  cases hmoves with
  | ignored place =>
      rw [List.append_nil]
      exact hconversed
  | gate phase call input world' next events hawaits hinput hinput' _ hstep =>
      exact hconversed.turn [] rfl (fun _ => rfl) (justified_nil _) hawaits hstep
        (fun result heq => absurd heq (hinput result))
        fun result elapsed heq => absurd heq (hinput' result elapsed)
  | retried attempt n reply backoff hjudge =>
      obtain ⟨_, hbelow, htransient⟩ := judge_retry hjudge
      obtain ⟨hverifies, hsettles, _⟩ := hconversed.posts
      have hretries := UInt32.lt_iff_toNat_lt.mp hbelow
      have hgate := filterMap_gateEvent_append trace
        [.answered .verify reply, .slept backoff] rfl
      refine ⟨hgate ▸ hconversed.history, hgate ▸ hconversed.paid, ?_, ⟨?_, ?_, hretries⟩,
        fun _ => ⟨backoff, by simp⟩, fun op h => by contradiction⟩
      · rw [justified_append]
        refine ⟨hconversed.follows, ?_⟩
        simpa [Follows, hconversed.waits .verify rfl] using htransient
      · simpa [ExchangeEvent.isPosted] using hverifies
      · simpa [ExchangeEvent.isPosted] using hsettles
  | woken attempt n =>
      obtain ⟨backoff, hlast⟩ := hconversed.asleep rfl
      obtain ⟨hverifies, hsettles, hretries⟩ := hconversed.posts
      have hbelow : n.toNat + 1 ≤ (client.maxRetries .verify).toNat := hretries
      have hsucc : (n + 1).toNat = n.toNat + 1 :=
        toNat_succ_of_lt (UInt32.lt_iff_toNat_lt.mpr hbelow)
      have hgate := filterMap_gateEvent_append trace
        [.posted .verify (client.post .verify attempt.payload attempt.requirements)] rfl
      refine ⟨hgate ▸ hconversed.history, hgate ▸ hconversed.paid, ?_, ⟨?_, ?_, ?_⟩,
        fun h => absurd h Bool.false_ne_true, ?_⟩
      · refine hconversed.follows.concat ⟨_, _, hconversed.history.matches_verifying, rfl, ?_⟩
        exact Or.inr ⟨rfl, backoff, hlast⟩
      · rw [List.countP_append, hverifies, hsucc]
        rfl
      · rw [List.countP_append, hsettles]
        rfl
      · rw [hsucc]
        exact hbelow
      · rintro op hwaits
        obtain rfl := Option.some.inj hwaits
        exact ⟨_, List.getLast?_concat⟩
  | verified attempt n reply world' next events hstep =>
      apply hconversed.turn [.answered .verify reply] rfl (fun _ => rfl) _ rfl hstep
      · rintro result ⟨⟩
        exact ⟨reply, by simp, rfl⟩
      · intro result elapsed heq
        contradiction
      · simpa [Follows] using hconversed.waits .verify rfl
  | settled attempt response n reply elapsed world' next events hstep =>
      apply hconversed.turn [.answered .settle reply] rfl (fun _ => rfl) _ rfl hstep
      · intro result heq
        contradiction
      · rintro result elapsed ⟨⟩
        exact ⟨reply, by simp, rfl⟩
      · simpa [Follows] using hconversed.waits .settle rfl

end Conversation

end KiteX402
