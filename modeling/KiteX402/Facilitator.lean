/-
Calls to the facilitator: which failures are tried again, how often, and after
how long.
-/
import KiteX402.Clock
import Mathlib.Order.Bounds.Basic

namespace KiteX402

/-- A policy of durations that the platform can represent. -/
structure RetryConfig where
  maxRetries : UInt32
  initialBackoff : Duration
  maxBackoff : Duration
  initialBackoff_le : initialBackoff ≤ Duration.maximum
  maxBackoff_le : maxBackoff ≤ Duration.maximum

/-- `2u32.saturating_pow(attempt)`. -/
def saturatingPowTwo (attempt : UInt32) : ℕ :=
  if 2 ^ attempt.toNat < 2 ^ 32 then 2 ^ attempt.toNat else 2 ^ 32 - 1

namespace RetryConfig

/-- `RetryConfig::default()`. -/
def default : RetryConfig where
  maxRetries := 0
  initialBackoff := 100 * 1000000
  maxBackoff := Duration.fromSecs 2
  initialBackoff_le := by decide
  maxBackoff_le := by decide

def calculateBackoff (config : RetryConfig) (attempt : UInt32) : Duration :=
  min (config.initialBackoff.saturatingMul (saturatingPowTwo attempt)) config.maxBackoff

end RetryConfig

/-- What the HTTP client tells of a request that failed. -/
structure RequestError where
  isConnect : Bool
  isTimeout : Bool
  text : String

inductive FacilitatorOp where
  | verify
  | settle
deriving DecidableEq

def FacilitatorOp.name : FacilitatorOp → String
  | .verify => "verify"
  | .settle => "settle"

inductive FacilitatorError where
  | request (error : RequestError)
  | badResponse (op : FacilitatorOp) (status : ℕ) (body : String)

namespace FacilitatorError

def message : FacilitatorError → String
  | .request error => s!"facilitator request failed: {error.text}"
  | .badResponse op status body => s!"facilitator {op.name} returned {status}: {body}"

def isTransient : FacilitatorError → Bool
  | .request error => error.isConnect || error.isTimeout
  | .badResponse _ status _ => 500 ≤ status && status < 600

end FacilitatorError

section Call

variable {A : Type*}

/-- One request.  `reply` is the status and the body of the answer, an empty
one where it could not be read, and `decode` fails with the text of its
error. -/
def sendSingle (op : FacilitatorOp) (decode : String → Except String A)
    (reply : Except RequestError (ℕ × String)) : Except FacilitatorError A :=
  match reply with
  | .error error => .error (.request error)
  | .ok (status, text) =>
      if ¬ (200 ≤ status ∧ status < 300) then .error (.badResponse op status text)
      else
        match decode text with
        | .ok response => .ok response
        | .error error => .error (.badResponse op status
            s!"could not parse facilitator {op.name} response: {error}")

inductive CallEvent where
  | sent
  | slept (backoff : Duration)
deriving DecidableEq

/-- The loop, from one attempt on.  `outcomes` are those of the requests that
it is still to send. -/
def callLoop (config : RetryConfig) (maxRetries attempt : UInt32)
    (outcomes : ℕ → Except FacilitatorError A) :
    List CallEvent × Except FacilitatorError A :=
  match outcomes 0 with
  | .ok response => ([.sent], .ok response)
  | .error error =>
      if attempt < maxRetries ∧ error.isTransient = true then
        let backoff := config.calculateBackoff attempt
        let rest := callLoop config maxRetries (attempt + 1) fun n => outcomes (n + 1)
        (.sent :: .slept backoff :: rest.1, rest.2)
      else ([.sent], .error error)
termination_by maxRetries.toNat - attempt.toNat
decreasing_by
  rename_i hretry
  have hlt := UInt32.lt_iff_toNat_lt.mp hretry.1
  have hbound := maxRetries.toNat_lt
  rw [UInt32.toNat_add, show (1 : UInt32).toNat = 1 from rfl, Nat.mod_eq_of_lt (by omega)]
  omega

/-- Only verification is retried. -/
def call (config : RetryConfig) (op : FacilitatorOp)
    (outcomes : ℕ → Except FacilitatorError A) :
    List CallEvent × Except FacilitatorError A :=
  let maxRetries := if op = .verify then config.maxRetries else 0
  callLoop config maxRetries 0 outcomes

end Call

section Backoff

theorem saturatingPowTwo_eq (attempt : UInt32) :
    saturatingPowTwo attempt = min (2 ^ attempt.toNat) (2 ^ 32 - 1) := by
  unfold saturatingPowTwo
  split
  next hfits => exact (min_eq_left (Nat.le_pred_of_lt hfits)).symm
  next hfull => exact (min_eq_right ((Nat.pred_le _).trans (not_lt.mp hfull))).symm

theorem saturatingPowTwo_mono {first second : UInt32} (hle : first ≤ second) :
    saturatingPowTwo first ≤ saturatingPowTwo second := by
  rw [saturatingPowTwo_eq, saturatingPowTwo_eq]
  exact min_le_min_right _ (Nat.pow_le_pow_right (by decide) (UInt32.le_iff_toNat_le.mp hle))

/-- Delays grow from attempt to attempt up to the bound of the policy, and
double until the factor saturates. -/
structure BackoffLaws (config : RetryConfig) : Prop where
  representable : ∀ attempt, config.calculateBackoff attempt ≤ Duration.maximum
  bounded : ∀ attempt, config.calculateBackoff attempt ≤ config.maxBackoff
  monotone : ∀ first second, first ≤ second →
    config.calculateBackoff first ≤ config.calculateBackoff second
  doubling : ∀ attempt, attempt < 32 → config.calculateBackoff attempt =
    min (min (config.initialBackoff * 2 ^ attempt.toNat) Duration.maximum) config.maxBackoff

theorem backoffLaws (config : RetryConfig) : BackoffLaws config where
  representable attempt := (min_le_right _ _).trans config.maxBackoff_le
  bounded attempt := min_le_right _ _
  monotone first second hle := by
    have hfactor := Nat.mul_le_mul_left config.initialBackoff (saturatingPowTwo_mono hle)
    rw [RetryConfig.calculateBackoff, RetryConfig.calculateBackoff, Duration.saturatingMul_eq,
      Duration.saturatingMul_eq]
    exact min_le_min_right _ (min_le_min_right _ hfactor)
  doubling attempt hlt := by
    have hsmall : 2 ^ attempt.toNat < 2 ^ 32 :=
      Nat.pow_lt_pow_right (by decide) (UInt32.lt_iff_toNat_lt.mp hlt)
    rw [RetryConfig.calculateBackoff, saturatingPowTwo, if_pos hsmall, Duration.saturatingMul_eq]

end Backoff

section Laws

variable {A : Type*}

/-- An outcome that is not to be tried again: a success, or an error that is no
lost connection, no timeout and no answer with a status from 500 to 599. -/
def Conclusive : Except FacilitatorError A → Prop
  | .ok _ => True
  | .error (.request error) => error.isConnect = false ∧ error.isTimeout = false
  | .error (.badResponse _ status _) => ¬ (500 ≤ status ∧ status < 600)

/-- What the loop takes for transient is what may be tried again. -/
theorem conclusive_error_iff (error : FacilitatorError) :
    Conclusive (.error error : Except FacilitatorError A) ↔ error.isTransient = false := by
  cases error with
  | request error => simp [Conclusive, FacilitatorError.isTransient]
  | badResponse op status body => simp [Conclusive, FacilitatorError.isTransient]

/-- An answer that is not to be tried for again; its text does not matter. -/
def ConclusiveReply : Except RequestError (ℕ × String) → Prop
  | .error error => error.isConnect = false ∧ error.isTimeout = false
  | .ok (status, _) => ¬ (500 ≤ status ∧ status < 600)

theorem conclusive_sendSingle_iff (op : FacilitatorOp) (decode : String → Except String A)
    (reply : Except RequestError (ℕ × String)) :
    Conclusive (sendSingle op decode reply) ↔ ConclusiveReply reply := by
  cases reply with
  | error error => rfl
  | ok answer =>
      obtain ⟨status, text⟩ := answer
      by_cases hsuccess : 200 ≤ status ∧ status < 300
      · have hstatus : ¬ (500 ≤ status ∧ status < 600) := by omega
        cases hdecode : decode text with
        | ok response =>
            simp [Conclusive, ConclusiveReply, sendSingle, hsuccess, hdecode, hstatus]
        | error error => simp [Conclusive, ConclusiveReply, sendSingle, hsuccess, hdecode]
      · simp [Conclusive, ConclusiveReply, sendSingle, hsuccess]

/-- The events of `retries + 1` requests, the first of them made at a given
attempt. -/
def requestEvents (config : RetryConfig) (attempt retries : ℕ) : List CallEvent :=
  .sent :: (List.range' attempt retries).flatMap fun i =>
    [.slept (config.calculateBackoff (UInt32.ofNat i)), .sent]

theorem requestEvents_succ (config : RetryConfig) (attempt : UInt32) (retries : ℕ) :
    requestEvents config attempt.toNat (retries + 1) =
      .sent :: .slept (config.calculateBackoff attempt) ::
        requestEvents config (attempt.toNat + 1) retries := by
  simp only [requestEvents, List.range'_succ, List.flatMap_cons, UInt32.ofNat_toNat,
    List.cons_append, List.nil_append]

/-- What the loop does from an attempt on: it stops at the first outcome that is
conclusive, or with its last retry. -/
structure LoopLaws (config : RetryConfig) (maxRetries attempt : ℕ)
    (outcomes : ℕ → Except FacilitatorError A) (retries : ℕ)
    (result : List CallEvent × Except FacilitatorError A) : Prop where
  least : IsLeast {n | Conclusive (outcomes n) ∨ attempt + n = maxRetries} retries
  outcome : result.2 = outcomes retries
  events : result.1 = requestEvents config attempt retries

theorem LoopLaws.stop {config : RetryConfig} {maxRetries attempt : ℕ}
    {outcomes : ℕ → Except FacilitatorError A}
    (hstop : Conclusive (outcomes 0) ∨ attempt = maxRetries) :
    LoopLaws config maxRetries attempt outcomes 0 ([.sent], outcomes 0) where
  least := ⟨hstop, fun _ _ => Nat.zero_le _⟩
  outcome := rfl
  events := rfl

theorem callLoop_laws (config : RetryConfig) (maxRetries attempt : UInt32)
    (outcomes : ℕ → Except FacilitatorError A) (hle : attempt ≤ maxRetries) :
    ∃ retries, LoopLaws config maxRetries.toNat attempt.toNat outcomes retries
      (callLoop config maxRetries attempt outcomes) := by
  fun_induction callLoop config maxRetries attempt outcomes with
  | case1 attempt outcomes response hresponse =>
      refine ⟨0, hresponse ▸ LoopLaws.stop (Or.inl ?_)⟩
      rw [hresponse]
      exact trivial
  | case2 attempt outcomes error herror hretry backoff rest ih =>
      obtain ⟨hlt, htransient⟩ := hretry
      have hbelow := UInt32.lt_iff_toNat_lt.mp hlt
      have hbound := maxRetries.toNat_lt
      have hsucc : (attempt + 1).toNat = attempt.toNat + 1 := by
        rw [UInt32.toNat_add, show (1 : UInt32).toNat = 1 from rfl, Nat.mod_eq_of_lt (by omega)]
      obtain ⟨retries, hlaws⟩ := ih (UInt32.le_iff_toNat_le.mpr (by omega))
      rw [hsucc] at hlaws
      refine ⟨retries + 1, ?_, hlaws.outcome, ?_⟩
      · refine ⟨hlaws.least.1.imp_right (by omega), ?_⟩
        intro n hn
        cases n with
        | zero =>
            cases hn with
            | inl hconclusive =>
                rw [herror, conclusive_error_iff, htransient] at hconclusive
                contradiction
            | inr heq => omega
        | succ n =>
            exact Nat.succ_le_succ (hlaws.least.2 (hn.imp_right (by omega)))
      · rw [requestEvents_succ, ← hlaws.events]
  | case3 attempt outcomes error herror hstop =>
      refine ⟨0, herror ▸ LoopLaws.stop ?_⟩
      by_cases htransient : error.isTransient = true
      · right
        have hnot : ¬ attempt < maxRetries := fun hlt => hstop ⟨hlt, htransient⟩
        exact congrArg UInt32.toNat (UInt32.le_antisymm hle (UInt32.not_lt.mp hnot))
      · left
        rw [herror, conclusive_error_iff]
        simpa using htransient

/-- How a call proceeds: `requests` requests go out, and the delays of the
policy lie between them. -/
structure CallLaws (config : RetryConfig) (op : FacilitatorOp)
    (outcomes : ℕ → Except FacilitatorError A) (requests : ℕ) : Prop where
  settled_once : op = .settle → requests = 1
  verified : op = .verify → IsLeast {k | 0 < k ∧
    (Conclusive (outcomes (k - 1)) ∨ k = config.maxRetries.toNat + 1)} requests
  outcome : (call config op outcomes).2 = outcomes (requests - 1)
  events : (call config op outcomes).1 =
    .sent :: (List.range (requests - 1)).flatMap fun i =>
      [.slept (config.calculateBackoff (UInt32.ofNat i)), .sent]

/-- Every call ends, with the outcome of its last request, and settlement is
never repeated; a verification is while a connection is lost, a timeout passes or
the server fails, and the delays between its requests are sane. -/
theorem call_laws (config : RetryConfig) (op : FacilitatorOp)
    (outcomes : ℕ → Except FacilitatorError A) :
    BackoffLaws config ∧
      (∀ decode reply, Conclusive (sendSingle (A := A) op decode reply) ↔
        ConclusiveReply reply) ∧
      ∃ requests, CallLaws config op outcomes requests := by
  refine ⟨backoffLaws config, conclusive_sendSingle_iff op, ?_⟩
  obtain ⟨retries, hlaws⟩ := callLoop_laws config
    (if op = .verify then config.maxRetries else 0) 0 outcomes (UInt32.zero_le)
  have hzero : (0 : UInt32).toNat = 0 := rfl
  rw [hzero] at hlaws
  refine ⟨retries + 1, ?_, ?_, hlaws.outcome, ?_⟩
  · rintro rfl
    have hbudget : retries ≤ 0 := hlaws.least.2 (Or.inr (Nat.add_zero 0))
    exact congrArg Nat.succ (Nat.le_zero.mp hbudget)
  · rintro rfl
    have hleast := hlaws.least
    simp only [if_true, Nat.zero_add] at hleast
    refine ⟨⟨Nat.succ_pos _, hleast.1.imp_right (congrArg Nat.succ)⟩, ?_⟩
    rintro k ⟨hpos, hstop⟩
    have hk : retries ≤ k - 1 := hleast.2 (hstop.imp_right (by omega))
    omega
  · rw [Nat.add_sub_cancel, List.range_eq_range']
    exact hlaws.events

end Laws

end KiteX402
