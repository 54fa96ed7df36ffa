/-
What the bounds of a start come to in every run of the gate and its client: how
often the facilitator is asked, and how long a request sleeps.
-/
import KiteX402.GateExchangeLive
import KiteX402.StartupRefusals

namespace KiteX402

section Sleep

/-- The time that a request has slept between attempts. -/
def asleepFor : List ExchangeEvent → Duration
  | [] => 0
  | .slept backoff :: rest => backoff + asleepFor rest
  | _ :: rest => asleepFor rest

theorem asleepFor_append (first last : List ExchangeEvent) :
    asleepFor (first ++ last) = asleepFor first + asleepFor last := by
  induction first with
  | nil => exact (Nat.zero_add _).symm
  | cons event rest ih =>
      cases event with
      | slept backoff => simp only [List.cons_append, asleepFor, ih, Nat.add_assoc]
      | _ => simp only [List.cons_append, asleepFor, ih]

variable {rt : Runtime} {cfg : PaymentConfig} {req : Request} {client : FacilitatorClient}
  {reader : AnswerReader}

/-- The gate never sleeps. -/
theorem asleepFor_opened (events : List GateEvent) :
    asleepFor (events.flatMap (opened client)) = 0 := by
  induction events with
  | nil => rfl
  | cons event rest ih =>
      rw [List.flatMap_cons, asleepFor_append, ih]
      cases event <;> rfl

/-- How often a request has slept at most. -/
def ExchangePhase.sleeps (client : FacilitatorClient) : ExchangePhase → ℕ
  | ⟨.arrived, _⟩ => 0
  | ⟨.verifying _, call⟩ => call.attempt.toNat + if call.asleep then 1 else 0
  | _ => (client.maxRetries .verify).toNat

/-- No sleep has been longer than the longest. -/
def Rested (client : FacilitatorClient) (place : ExchangePhase) (trace : List ExchangeEvent) :
    Prop := asleepFor trace ≤ place.sleeps client * client.retryConfig.maxBackoff

theorem GateTurns.sleeps_le {phase next : GatePhase} {input : GateInput} {events : List GateEvent}
    (hturns : GateTurns phase input next events) {call : CallState} {verifies settles : ℕ}
    (hposts : Posts client ⟨phase, call⟩ verifies settles) :
    (ExchangePhase.mk phase call).sleeps client ≤ (ExchangePhase.mk next .start).sleeps client := by
  have hlimit : (ExchangePhase.mk phase call).sleeps client ≤
      (client.maxRetries .verify).toNat := by
    cases phase with
    | arrived => exact Nat.zero_le _
    | verifying attempt => exact hposts.2.2
    | _ => exact Nat.le_refl _
  cases hturns with
  | verifies => exact Nat.zero_le _
  | _ => exact hlimit

theorem backoff_le_of_judge {A : Type} {op : FacilitatorOp} {attempt : UInt32}
    {outcome : Except FacilitatorError A} {backoff : Duration}
    (h : client.judge op attempt outcome = .retry backoff) :
    backoff ≤ client.retryConfig.maxBackoff := by
  unfold FacilitatorClient.judge at h
  split at h
  · contradiction
  · split at h
    · rw [← Verdict.retry.inj h]
      exact min_le_right _ _
    · contradiction

theorem Rested.step {world world' : GateWorld} {now reading : Instant}
    {place place' : ExchangePhase} {trace events : List ExchangeEvent} {verifies settles : ℕ}
    (hrested : Rested client place trace) (hposts : Posts client place verifies settles)
    (hmoves : ExchangeMoves rt cfg req client reader world now reading place world' place'
      events) : Rested client place' (trace ++ events) := by
  unfold Rested at hrested ⊢
  rw [asleepFor_append]
  have hgate : ∀ {phase next input call world'} {events : List GateEvent},
      gateStep rt cfg req world phase now input = ((world', next), events) →
      phase.awaits input = true → Posts client ⟨phase, call⟩ verifies settles →
      asleepFor trace ≤ (ExchangePhase.mk phase call).sleeps client *
        client.retryConfig.maxBackoff →
      asleepFor trace + asleepFor (events.flatMap (opened client)) ≤
        (ExchangePhase.mk next .start).sleeps client * client.retryConfig.maxBackoff := by
    intro phase next input call world' events hstep hawaits hposts hrested
    have hturns : GateTurns phase input (gateStep rt cfg req world phase now input).1.2
        (gateStep rt cfg req world phase now input).2 := gateStep_turns world now hawaits
    rw [hstep] at hturns
    rw [asleepFor_opened, Nat.add_zero]
    exact hrested.trans (Nat.mul_le_mul_right _ (hturns.sleeps_le hposts))
  cases hmoves with
  | ignored => exact hrested
  | gate phase call input world' next events hawaits hinput hinput' hread hstep =>
      exact hgate hstep hawaits hposts hrested
  | retried attempt n reply backoff hjudge =>
      have hbackoff := backoff_le_of_judge hjudge
      simp only [ExchangePhase.sleeps, asleepFor, Bool.false_eq_true, if_false, if_true,
        Nat.add_zero, Nat.add_mul, Nat.one_mul] at hrested ⊢
      exact Nat.add_le_add hrested hbackoff
  | woken attempt n =>
      have hsucc : (n + 1).toNat = n.toNat + 1 :=
        toNat_succ_of_lt (UInt32.lt_iff_toNat_lt.mpr hposts.2.2)
      simpa only [ExchangePhase.sleeps, asleepFor, hsucc, Bool.false_eq_true, if_false, if_true,
        Nat.add_zero] using hrested
  | verified attempt n reply world' next events hstep => exact hgate hstep rfl hposts hrested
  | settled attempt response n reply elapsed world' next events hstep =>
      exact hgate hstep rfl hposts hrested

end Sleep

section Run

/-- A service that its environment has started. -/
structure Started (float : FloatText) (debug : String → String) where
  env : String → EnvValue
  cfg : ServiceConfig
  ran : (startup float debug).run env = .ok cfg

/-- Its requests with the facilitator; `describe` is the text of a parser's error. -/
def Started.exchange {float : FloatText} {debug : String → String}
    (started : Started float debug) (rt : Runtime) (describe : FacilitatorOp → String → String)
    (requests : ℕ → Request) : ExchangeSystem where
  rt := rt
  cfg _ := started.cfg.payment
  req := requests
  clients _ := started.cfg.facilitator
  describe := describe

theorem rested_run (sys : ExchangeSystem) (world : GateWorld) (clock : Instant)
    (actions : List ExchangeAction) (i : ℕ) :
    Rested (sys.clients i) ((sys.machine.run (.start world clock) actions).1.places i)
      (conversation i (sys.machine.run (.start world clock) actions).2) := by
  have hstart : AllConversed sys (.start world clock) [] ∧
      ∀ i, Rested (sys.clients i) ((ExchangeState.start world clock).places i)
        (conversation i []) := ⟨fun i => .start, fun i => Nat.zero_le _⟩
  have hrun := sys.machine.run_induction (P := fun state records =>
    AllConversed sys state records ∧
      ∀ i, Rested (sys.clients i) (state.places i) (conversation i records)) hstart
    (fun state records action ⟨hall, hrested⟩ => ⟨hall.step action, fun i => ?_⟩) actions
  · exact hrun.2 i
  · simp only [ExchangeSystem.machine, conversation_append]
    by_cases hi : i = action.request
    · subst hi
      rw [Function.update_self, conversation_stamp_self]
      exact (hrested action.request).step (hall action.request).posts (hall.moves action)
    · rw [Function.update_of_ne hi, conversation_stamp_of_ne (Ne.symm hi), List.append_nil]
      exact hrested i

theorem Rested.le {client : FacilitatorClient} {place : ExchangePhase}
    {trace : List ExchangeEvent} {verifies settles : ℕ} (hrested : Rested client place trace)
    (hposts : Posts client place verifies settles) :
    asleepFor trace ≤ (client.maxRetries .verify).toNat * client.retryConfig.maxBackoff := by
  refine hrested.trans (Nat.mul_le_mul_right _ ?_)
  obtain ⟨phase, call⟩ := place
  cases phase with
  | arrived => exact Nat.zero_le _
  | verifying attempt => exact hposts.2.2
  | _ => exact Nat.le_refl _

/-- How much a request of a started service asks of the facilitator at most. -/
structure AsksLittle (steps : ℕ) (trace : List ExchangeEvent) : Prop where
  steps : steps ≤ 14
  verifies : trace.countP (·.isPosted .verify) ≤ 6
  settles : trace.countP (·.isPosted .settle) ≤ 1
  asleep : asleepFor trace ≤ Duration.fromSecs 15

/-- Whatever the environment says, if the service starts, and whatever the
facilitator answers then. -/
theorem started_asks_little {float : FloatText} {debug : String → String}
    (started : Started float debug) (rt : Runtime) (describe : FacilitatorOp → String → String)
    (requests : ℕ → Request) (world : GateWorld) (clock : Instant)
    (actions : List ExchangeAction) (i : ℕ) :
    let sys := started.exchange rt describe requests
    AsksLittle (sys.machine.total (stepsOf i) (.start world clock) actions)
      (conversation i (sys.machine.run (.start world clock) actions).2) := by
  intro sys
  have hbounded := yields_startup float debug started.env started.cfg started.ran
  have hretries : ((sys.clients i).maxRetries .verify).toNat ≤ 5 :=
    UInt32.le_iff_toNat_le.mp hbounded.retries
  have hposts := (allConversed_run sys world clock actions i).posts
  have hrested := (rested_run sys world clock actions i).le hposts
  have hbackoff : (sys.clients i).retryConfig.maxBackoff = Duration.fromSecs 3 :=
    hbounded.maxBackoff
  have hrank := rank_run sys world clock actions i
  refine ⟨by omega, hposts.le.1.trans (by omega), hposts.le.2, ?_⟩
  calc asleepFor (conversation i (sys.machine.run (.start world clock) actions).2)
      ≤ ((sys.clients i).maxRetries .verify).toNat * (sys.clients i).retryConfig.maxBackoff :=
        hrested
    _ ≤ 5 * Duration.fromSecs 3 := by
        rw [hbackoff]
        exact Nat.mul_le_mul_right _ hretries
    _ = Duration.fromSecs 15 := by decide

example : Nonempty (Started StartupSample.zeroFloat id) := by
  have hsome :
      ((startup StartupSample.zeroFloat id).run StartupSample.env).toOption.isSome = true := by
    decide +kernel
  cases hrun : (startup StartupSample.zeroFloat id).run StartupSample.env with
  | ok cfg => exact ⟨⟨_, cfg, hrun⟩⟩
  | error text => simp [hrun, Except.toOption] at hsome

end Run

end KiteX402
