/-
No request hangs of itself: each of them is over after a number of steps that the
retries of its client bound, and until then something that it waits for moves it
on.
-/
import KiteX402.GateExchangeSafe

namespace KiteX402

/-- The inputs that a request waits for. -/
def ExchangePhase.awaits : ExchangePhase → ExchangeInput → Bool
  | ⟨.arrived, _⟩, .poll _ _ | ⟨.verifying _, ⟨_, false⟩⟩, .answered _ _
  | ⟨.verifying _, ⟨_, true⟩⟩, .woken | ⟨.handling _, _⟩, .handled _
  | ⟨.settling _ _, ⟨_, false⟩⟩, .answered _ _ => true
  | ⟨.settling _ _, ⟨_, true⟩⟩, .woken => true
  | ⟨.ended, _⟩, _ => false
  | _, .cancel => true
  | _, _ => false

/-- The most steps that a request has before it, where its client tries a
verification again `retries` times. -/
def ExchangePhase.rank (retries : ℕ) : ExchangePhase → ℕ
  | ⟨.arrived, _⟩ => 2 * retries + 4
  | ⟨.verifying _, call⟩ =>
      2 * (retries - call.attempt.toNat) + (if call.asleep then 2 else 3)
  | ⟨.handling _, _⟩ => 2
  | ⟨.settling _ _, _⟩ => 1
  | ⟨.ended, _⟩ => 0

section Step

variable {rt : Runtime} {cfg : PaymentConfig} {req : Request} {client : FacilitatorClient}
  {reader : AnswerReader}

theorem exchangeStep_of_not_awaits (world : GateWorld) (place : ExchangePhase) (now : Instant)
    {input : ExchangeInput} (hawaits : place.awaits input = false) :
    exchangeStep rt cfg req client reader world place now input = ((world, place), []) := by
  obtain ⟨phase, n, asleep⟩ := place
  cases phase with
  | arrived => cases input <;> first
      | contradiction
      | rfl
  | verifying attempt => cases asleep <;> cases input <;> first
      | contradiction
      | rfl
  | handling attempt => cases input <;> first
      | contradiction
      | rfl
  | settling attempt response => cases asleep <;> cases input <;> first
      | contradiction
      | rfl
  | ended => rfl

/-- A step of the gate leaves fewer before the request. -/
theorem GateTurns.rank_lt {phase next : GatePhase} {input : GateInput} {events : List GateEvent}
    (hturns : GateTurns phase input next events) (hawaits : phase.awaits input = true)
    {call : CallState} (hawake : ∀ result, input = .verified result → call.asleep = false)
    (retries : ℕ) :
    (ExchangePhase.mk next .start).rank retries < (ExchangePhase.mk phase call).rank retries := by
  cases hturns with
  | verifies _ attempt opening hopening =>
      simp [ExchangePhase.rank, CallState.start]
  | enters attempt next result =>
      simp only [ExchangePhase.rank, hawake result rfl, Bool.false_eq_true, if_false]
      omega
  | rejects attempt result closing hclosing =>
      simp only [ExchangePhase.rank]
      split <;> omega
  | settles attempt response => exact Nat.one_lt_two
  | concludes attempt response result elapsed closing hclosing => exact Nat.zero_lt_one
  | ends _ _ closing hclosing =>
      cases phase with
      | ended => cases input <;> contradiction
      | verifying attempt =>
          simp only [ExchangePhase.rank]
          split <;> omega
      | _ => simp [ExchangePhase.rank]

/-- A step that a request waits for leaves fewer before it. -/
theorem rank_exchangeStep (world : GateWorld) {place : ExchangePhase} (now : Instant)
    {input : ExchangeInput} {verifies settles : ℕ} (hposts : Posts client place verifies settles)
    (hawaits : place.awaits input = true) :
    (exchangeStep rt cfg req client reader world place now input).1.2.rank
        (client.maxRetries .verify).toNat <
      place.rank (client.maxRetries .verify).toNat := by
  have hgate : ∀ phase call input, phase.awaits input = true →
      (∀ result, input = .verified result → call.asleep = false) →
      (gateMove rt cfg req client world phase now input).1.2.rank
          (client.maxRetries .verify).toNat <
        (ExchangePhase.mk phase call).rank (client.maxRetries .verify).toNat :=
    fun phase call input hawaits hawake =>
      (gateStep_turns world now hawaits).rank_lt hawaits hawake _
  have hcancel := fun phase call (hawaits : GatePhase.awaits phase .cancel = true) =>
    hgate phase call .cancel hawaits (by simp)
  obtain ⟨phase, n, asleep⟩ := place
  cases phase with
  | arrived =>
      cases input with
      | poll wallClock reserveAt => exact hgate _ _ (.poll wallClock reserveAt) rfl (by simp)
      | cancel => exact hcancel _ _ rfl
      | _ => contradiction
  | verifying attempt =>
      obtain ⟨_, _, hretries⟩ := hposts
      cases asleep with
      | true =>
          cases input with
          | woken =>
              have hbelow : n.toNat + 1 ≤ (client.maxRetries .verify).toNat := hretries
              have hsucc : (n + 1).toNat = n.toNat + 1 :=
                toNat_succ_of_lt (UInt32.lt_iff_toNat_lt.mpr hbelow)
              simp only [exchangeStep, ExchangePhase.rank, hsucc, Bool.false_eq_true, if_false,
                if_true]
              omega
          | cancel => exact hcancel _ _ rfl
          | _ => contradiction
      | false =>
          cases input with
          | answered reply elapsed =>
              simp only [exchangeStep]
              cases hjudge : client.judge .verify n (reader.readVerify reply) with
              | retry backoff => simp [ExchangePhase.rank]
              | conclude result => exact hgate _ _ (.verified (tell result)) rfl (by simp)
          | cancel => exact hcancel _ _ rfl
          | _ => contradiction
  | handling attempt =>
      cases input with
      | handled response => exact hgate _ _ (.handled response) rfl (by simp)
      | cancel => exact hcancel _ _ rfl
      | _ => contradiction
  | settling attempt response =>
      obtain rfl : asleep = false := hposts.2.2
      cases input with
      | answered reply elapsed =>
          simp only [exchangeStep]
          cases hjudge : client.judge .settle n (reader.readSettle reply) with
          | retry backoff =>
              obtain ⟨hverify, _⟩ := judge_retry hjudge
              contradiction
          | conclude result => exact hgate _ _ (.settled (tell result) elapsed) rfl (by simp)
      | cancel => exact hcancel _ _ rfl
      | _ => contradiction
  | ended => contradiction

/-- Something other than being dropped moves a request on. -/
theorem exists_awaits {place : ExchangePhase} (hgate : place.gate ≠ .ended) :
    ∃ input, input ≠ .cancel ∧ place.awaits input = true := by
  obtain ⟨phase, n, asleep⟩ := place
  cases phase with
  | arrived => exact ⟨.poll none 0, by simp, rfl⟩
  | verifying attempt =>
      cases asleep with
      | true => exact ⟨.woken, by simp, rfl⟩
      | false => exact ⟨.answered (.error ⟨false, false, ""⟩) 0, by simp, rfl⟩
  | handling attempt => exact ⟨.handled ⟨200, [], []⟩, by simp, rfl⟩
  | settling attempt response =>
      cases asleep with
      | true => exact ⟨.woken, by simp, rfl⟩
      | false => exact ⟨.answered (.error ⟨false, false, ""⟩) 0, by simp, rfl⟩
  | ended => contradiction

end Step

theorem gate_eq_ended_of_rank {place : ExchangePhase} {retries : ℕ}
    (hrank : place.rank retries = 0) : place.gate = .ended := by
  obtain ⟨phase, n, asleep⟩ := place
  cases phase with
  | verifying attempt =>
      simp only [ExchangePhase.rank] at hrank
      split at hrank <;> omega
  | ended => rfl
  | _ => simp [ExchangePhase.rank] at hrank

/-- How a request may end: with a reply, dropped, or by a panic. -/
def GateEvent.isLast : GateEvent → Bool
  | .replied _ | .cancelled | .panicked => true
  | _ => false

/-- A request that is over has ended in one of these ways. -/
theorem GateHistory.last {rt : Runtime} {cfg : PaymentConfig} {req : Request}
    {trace : List GateEvent} (hhist : GateHistory rt cfg req .ended trace) :
    ∃ earlier last, trace = earlier ++ [last] ∧ last.isLast = true := by
  cases hhist with
  | unverified _ hends =>
      unfold EndsUnverified at hends
      split at hends
      · exact ⟨[], _, rfl, rfl⟩
      · exact ⟨[], _, rfl, rfl⟩
      · exact ⟨[], _, rfl, rfl⟩
      · exact ⟨[_], _, rfl, rfl⟩
      · contradiction
  | verifyCancelled | handlerCancelled | settleCancelled =>
      exact ⟨_, .cancelled, (List.append_assoc _ _ _).symm, rfl⟩
  | rejected attempt opening now result reply =>
      exact ⟨verifyTrace attempt opening ++
        (.verifyReturned result :: closing attempt.reservation false now),
        .replied reply, by simp, rfl⟩
  | failed attempt opening now verify response =>
      exact ⟨handlerTrace attempt opening verify ++
        (.handlerReturned response :: closing attempt.reservation false now),
        .replied response, by simp, rfl⟩
  | settled attempt opening now verify response result =>
      exact ⟨settleTrace attempt opening verify response ++
        (.settleReturned result :: closing attempt.reservation true now),
        .replied (settleReply rt cfg response result), by simp, rfl⟩

section Run

variable (sys : ExchangeSystem)

/-- The steps that a request waits for. -/
def stepsOf (i : ℕ) (state : ExchangeState) (action : ExchangeAction) : ℕ :=
  if action.request = i ∧ (state.places i).awaits action.input = true then 1 else 0

/-- Where a request stands after a run: its own steps are bounded by the retries
of its client; while it is not over something other than its caller moves it on,
and once it is over it has ended with its last event. -/
structure ExchangeLives (i : ℕ) (steps : ℕ) (place : ExchangePhase)
    (trace : List ExchangeEvent) : Prop where
  bounded : steps ≤ 2 * ((sys.clients i).maxRetries .verify).toNat + 4
  finished : steps = 2 * ((sys.clients i).maxRetries .verify).toNat + 4 → place.gate = .ended
  moves : place.gate ≠ .ended → ∃ input, input ≠ .cancel ∧ place.awaits input = true
  ends : place.gate = .ended → ∃ earlier last,
    trace.filterMap ExchangeEvent.gateEvent = earlier ++ [last] ∧ last.isLast = true

variable {sys}

theorem ExchangePhase.awaits_readAt (place : ExchangePhase) (input : ExchangeInput)
    (reading : Instant) : place.awaits (input.readAt reading) = place.awaits input := by
  obtain ⟨phase, n, asleep⟩ := place
  cases input with
  | poll wallClock reserveAt => cases phase <;> cases asleep <;> rfl
  | _ => rfl

/-- A step lowers the rank of a request that waits for it, and no other's. -/
theorem AllConversed.rank_step {state : ExchangeState} {records : List ExchangeRecord}
    (hall : AllConversed sys state records) (i : ℕ) (action : ExchangeAction) :
    ((sys.machine.step state action).1.places i).rank
        ((sys.clients i).maxRetries .verify).toNat + stepsOf i state action ≤
      (state.places i).rank ((sys.clients i).maxRetries .verify).toNat := by
  simp only [ExchangeSystem.machine, ExchangeSystem.move, stepsOf]
  by_cases hi : action.request = i
  · subst hi
    rw [Function.update_self]
    cases hawaits : (state.places action.request).awaits action.input with
    | true =>
        simp only [and_self, if_true]
        exact rank_exchangeStep state.world (state.clock + action.elapsed)
          (hall action.request).posts (hawaits ▸ (state.places action.request).awaits_readAt
            action.input (state.clock + action.elapsed - action.lag))
    | false =>
        rw [exchangeStep_of_not_awaits _ _ _
          (hawaits ▸ (state.places action.request).awaits_readAt action.input _)]
        simp
  · rw [Function.update_of_ne (Ne.symm hi), if_neg fun h => hi h.1]
    exact Nat.le_refl _

/-- The steps of a request and those that it has left. -/
theorem rank_run (sys : ExchangeSystem) (world : GateWorld) (clock : Instant)
    (actions : List ExchangeAction) (i : ℕ) :
    ((sys.machine.run (.start world clock) actions).1.places i).rank
        ((sys.clients i).maxRetries .verify).toNat +
      sys.machine.total (stepsOf i) (.start world clock) actions ≤
    2 * ((sys.clients i).maxRetries .verify).toNat + 4 := by
  have hstart : AllConversed sys (.start world clock) [] := fun i => .start
  exact sys.machine.run_rank
    (fun state => (state.places i).rank ((sys.clients i).maxRetries .verify).toNat)
    (stepsOf i) hstart
    (fun state records action hall => ⟨hall.step action, hall.rank_step i action⟩) actions

/-- Whatever the facilitator answers and however the steps interleave, no request
is tried without end and none is stuck. -/
theorem exchange_lives (sys : ExchangeSystem) (world : GateWorld) (clock : Instant)
    (actions : List ExchangeAction) (i : ℕ) :
    ExchangeLives sys i
      (sys.machine.total (stepsOf i) (.start world clock) actions)
      ((sys.machine.run (.start world clock) actions).1.places i)
      (conversation i (sys.machine.run (.start world clock) actions).2) := by
  have hrank := rank_run sys world clock actions i
  have hall := allConversed_run sys world clock actions
  refine ⟨by omega, fun hsteps => ?_, exists_awaits, fun hended => ?_⟩
  · have hover : ((sys.machine.run (.start world clock) actions).1.places i).rank
        ((sys.clients i).maxRetries .verify).toNat = 0 := by omega
    exact gate_eq_ended_of_rank hover
  · have hhist := (hall i).history
    rw [hended] at hhist
    exact hhist.last

end Run

end KiteX402
