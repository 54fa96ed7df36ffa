/-
The quota from both sides: nobody is admitted beyond it, and nobody is turned
away within it.  A refusal can be blamed on the client's own admissions alone.
-/
import KiteX402.RateLimitQuota

namespace KiteX402

/-- The admission of a call at `now`, after `before`, keeps its client in every
interval that ends with it within its burst and the refills. -/
def Affordable (config : RateLimiterConfig) (before : List LimiterEvent)
    (call : LimiterCall) : Prop :=
  ∀ first ≤ call.now,
    (admissions (normalizeIp call.clientIp) first call.now before : ℚ) + 1 ≤
      config.burst + config.rps * Duration.asSecs (call.now - first)

/-- A call that is not turned away for lack of capacity is admitted just when
its client can afford it. -/
def ExactQuota (config : RateLimiterConfig) (events : List LimiterEvent) : Prop :=
  Justified (fun before event => event.result ≠ .error .capacity →
    (event.result.isOk = true ↔ Affordable config before event.call)) events

/-- The calls before one are no later than it. -/
def NoneLater (events : List LimiterEvent) (now : Instant) : Prop :=
  ∀ event ∈ events, event.call.now ≤ now

/-- Where a trace stops does not matter for the past. -/
theorem admissions_of_noneLater {client : IpAddr} {first final later : Instant}
    {events : List LimiterEvent} (hpast : NoneLater events final)
    (hlater : final ≤ later) :
    admissions client first later events = admissions client first final events := by
  unfold admissions
  apply List.countP_congr
  intro event hevent
  have hfinal := hpast event hevent
  rw [decide_eq_true_eq, decide_eq_true_eq]
  constructor
  · exact fun h => ⟨h.1, h.2.1, hfinal, h.2.2.2⟩
  · exact fun h => ⟨h.1, h.2.1, hfinal.trans hlater, h.2.2.2⟩

/-- An admission that an interval has room for was affordable. -/
theorem WithinQuota.affordable {config : RateLimiterConfig}
    {before after : List LimiterEvent} {event : LimiterEvent}
    (hquota : WithinQuota config (before ++ event :: after))
    (hok : event.result.isOk = true) : Affordable config before event.call := by
  intro first hfirst
  have hadmits : event.Admits (normalizeIp event.call.clientIp) first event.call.now :=
    ⟨rfl, hfirst, le_rfl, hok⟩
  have hcount : admissions (normalizeIp event.call.clientIp) first event.call.now before + 1 ≤
      admissions (normalizeIp event.call.clientIp) first event.call.now
        (before ++ event :: after) := by
    rw [List.append_cons, admissions_append, admissions_append, admissions_singleton,
      if_pos hadmits]
    omega
  have hbound := hquota (normalizeIp event.call.clientIp) first event.call.now hfirst
  have hcast : (admissions (normalizeIp event.call.clientIp) first event.call.now before : ℚ) +
      1 ≤ admissions (normalizeIp event.call.clientIp) first event.call.now
        (before ++ event :: after) := by
    exact_mod_cast hcount
  exact hcast.trans hbound

section Ideal

variable (config : RateLimiterConfig)

theorem isOk_idealAnswer_iff {bucket : TokenBucket ℚ} :
    (idealAnswer config bucket).isOk = true ↔ 1 ≤ bucket.tokens := by
  constructor
  · exact isOk_idealAnswer config
  · intro h
    rw [idealAnswer, if_pos h]
    rfl

/-- By `now`, the bucket of a client still has what its admissions did not take,
counted from some instant on. -/
structure Unspent (now : Instant) (events : List LimiterEvent)
    (ideal : IdealLimiter) : Prop where
  past : NoneLater events now
  kept : ∀ client bucket, ideal client = some bucket →
    bucket.last ≤ Duration.asSecs now ∧
      ∃ first ≤ now, bucket.Keeps config.rps config.burst (Duration.asSecs first)
        (admissions client first now events)

namespace Unspent

variable {config} {now : Instant} {events : List LimiterEvent} {ideal : IdealLimiter}
  {call : LimiterCall}

theorem initial : Unspent config now [] IdealLimiter.initial where
  past event h := by simp at h
  kept client bucket h := by simp [IdealLimiter.initial] at h

theorem later (hunspent : Unspent config now events ideal) {final : Instant}
    (hlater : now ≤ final) : Unspent config final events ideal where
  past event hevent := (hunspent.past event hevent).trans hlater
  kept client bucket hbucket := by
    obtain ⟨hlast, first, hfirst, hkeeps⟩ := hunspent.kept client bucket hbucket
    refine ⟨hlast.trans (Duration.asSecs_le hlater), first, hfirst.trans hlater, ?_⟩
    rw [admissions_of_noneLater hunspent.past hlater]
    exact hkeeps

/-- The bucket that a call finds, refilled. -/
theorem refill (hunspent : Unspent config call.now events ideal) :
    (idealBucket config ideal call).last = Duration.asSecs call.now ∧
      ∃ first ≤ call.now, (idealBucket config ideal call).Keeps config.rps config.burst
        (Duration.asSecs first)
        (admissions (normalizeIp call.clientIp) first call.now events) := by
  unfold idealBucket
  cases hideal : ideal (normalizeIp call.clientIp) with
  | none =>
      have hstart := TokenBucket.Keeps.start config.rps config.burst
        (Duration.asSecs call.now)
        (admissions (normalizeIp call.clientIp) call.now call.now events)
      rw [Option.getD_none]
      refine ⟨max_self _, call.now, le_rfl, ?_⟩
      rcases hstart.refill le_rfl with h | h
      · exact h
      · exact h _
  | some bucket =>
      obtain ⟨hlast, first, hfirst, hkeeps⟩ := hunspent.kept _ bucket hideal
      rw [Option.getD_some]
      refine ⟨max_eq_left hlast, ?_⟩
      rcases hkeeps.refill hlast with h | h
      · exact ⟨first, hfirst, h⟩
      · exact ⟨call.now, le_rfl, h _⟩

/-- A call that its client can afford is admitted. -/
theorem isOk_of_affordable (hunspent : Unspent config call.now events ideal)
    (haffordable : Affordable config events call) :
    (idealAnswer config (idealBucket config ideal call)).isOk = true := by
  obtain ⟨hlast, first, hfirst, hkeeps⟩ := hunspent.refill
  have htokens := hkeeps.tokens
  have hcost := haffordable first hfirst
  rw [Duration.asSecs_sub hfirst] at hcost
  rw [hlast] at htokens
  rw [isOk_idealAnswer_iff]
  linarith

theorem step (hunspent : Unspent config call.now events ideal) :
    Unspent config call.now (events ++ ((idealMachine config).step ideal call).2)
      ((idealMachine config).step ideal call).1 where
  past event hevent := by
    rcases List.mem_append.mp hevent with h | h
    · exact hunspent.past event h
    · rw [List.mem_singleton.mp h]
  kept client bucket hbucket := by
    simp only [idealMachine] at hbucket ⊢
    by_cases hclient : client = normalizeIp call.clientIp
    · subst hclient
      rw [Function.update_self, Option.some_inj] at hbucket
      subst hbucket
      obtain ⟨hlast, first, hfirst, hkeeps⟩ := hunspent.refill
      rw [TokenBucket.last_spend]
      refine ⟨hlast.le, first, hfirst, ?_⟩
      have hadmits : LimiterEvent.Admits (normalizeIp call.clientIp) first call.now
          ⟨call, idealAnswer config (idealBucket config ideal call)⟩ ↔
            1 ≤ (idealBucket config ideal call).tokens := by
        rw [← isOk_idealAnswer_iff config]
        exact ⟨fun h => h.2.2.2, fun h => ⟨rfl, hfirst, le_rfl, h⟩⟩
      rw [admissions_append, admissions_singleton]
      simp only [hadmits]
      exact hkeeps.spend
    · rw [Function.update_of_ne hclient] at hbucket
      obtain ⟨hlast, first, hfirst, hkeeps⟩ := hunspent.kept client bucket hbucket
      refine ⟨hlast, first, hfirst, ?_⟩
      have hnot : ¬LimiterEvent.Admits client first call.now
          ⟨call, idealAnswer config (idealBucket config ideal call)⟩ :=
        fun h => hclient h.1.symm
      rw [admissions_append, admissions_singleton, if_neg hnot]
      exact hkeeps

end Unspent

/-- No call that its client can afford is refused. -/
def RefusesNone (events : List LimiterEvent) : Prop :=
  Justified (fun before event => Affordable config before event.call →
    event.result.isOk = true) events

theorem refusesNone_run {now : Instant} {events : List LimiterEvent}
    {ideal : IdealLimiter} {calls : List LimiterCall}
    (hunspent : Unspent config now events ideal) (hevents : RefusesNone config events)
    (hcalls : ∀ call ∈ calls, now ≤ call.now)
    (hsorted : calls.Pairwise fun earlier later => earlier.now ≤ later.now) :
    RefusesNone config (events ++ ((idealMachine config).run ideal calls).2) := by
  induction calls generalizing now events ideal with
  | nil =>
      rw [Machine.run_nil, List.append_nil]
      exact hevents
  | cons call rest ih =>
      obtain ⟨hlater, hrest⟩ := List.pairwise_cons.mp hsorted
      have hnow := hunspent.later (hcalls call List.mem_cons_self)
      rw [Machine.run_cons, ← List.append_assoc]
      apply ih hnow.step _ hlater hrest
      exact hevents.concat fun haffordable => hnow.isOk_of_affordable haffordable

end Ideal

section Limiter

variable (config : RateLimiterConfig) (clock : MonotonicClock)

/-- The calls that were not served take nothing from anybody. -/
theorem Affordable.served {before : List LimiterEvent} {call : LimiterCall}
    (h : Affordable config before call) : Affordable config (served before) call := by
  intro first hfirst
  rw [admissions_served]
  exact h first hfirst

theorem served_calls_sublist (calls : List LimiterCall) :
    ((served ((limiterMachine config clock).run ∅ calls).2).map
      LimiterEvent.call).Sublist calls := by
  have hfilter : (served ((limiterMachine config clock).run ∅ calls).2).Sublist
      ((limiterMachine config clock).run ∅ calls).2 := List.filter_sublist
  have hmap := hfilter.map LimiterEvent.call
  rw [limiterMachine_run_calls] at hmap
  exact hmap

theorem refusesNone_of_refines {events : List LimiterEvent}
    (hrefines : RefinesIdeal config events)
    (hsorted : ((served events).map LimiterEvent.call).Pairwise
      fun earlier later => earlier.now ≤ later.now) :
    RefusesNone config (served events) := by
  have hinitial : Unspent config 0 [] IdealLimiter.initial := .initial
  have hrun := refusesNone_run config hinitial (justified_nil _)
    (fun call _ => Nat.zero_le call.now) hsorted
  rw [List.nil_append, hrefines] at hrun
  exact hrun

/-- With timestamps that never decrease, the bounded limiter turns a call away
only for lack of capacity or because its own client has had its quota. -/
theorem limiter_exact {calls : List LimiterCall}
    (hsorted : calls.Pairwise fun earlier later => earlier.now ≤ later.now) :
    ExactQuota config ((limiterMachine config clock).run ∅ calls).2 := by
  have hrefines := refinesIdeal_of_timely config clock
    (timely_of_sorted config clock hsorted)
  have hquota : WithinQuota config ((limiterMachine config clock).run ∅ calls).2 :=
    fun client first final hinterval =>
      admissions_le_of_refines config clock hrefines hinterval (hsorted.imp Or.inr)
  have hnone := refusesNone_of_refines config hrefines
    (hsorted.sublist (served_calls_sublist config clock calls))
  intro before event after hsplit hserved
  constructor
  · intro hok
    rw [hsplit] at hquota
    exact hquota.affordable hok
  · intro haffordable
    have hkept : served (before ++ event :: after) =
        served before ++ event :: served after := by
      simp [served, hserved]
    apply hnone (served before) event (served after) (hsplit ▸ hkept)
    exact haffordable.served

end Limiter

namespace ExactWitness

open RateLimitWitness

/-- Alice comes back before her next token is due, and after. -/
def hasty : List LimiterCall :=
  [⟨alice, 0⟩, ⟨bob, 0⟩, ⟨alice, 0⟩, ⟨alice, Duration.fromSecs 1⟩]

theorem hasty_exact : ExactQuota config ((limiterMachine config clock).run ∅ hasty).2 :=
  limiter_exact config clock (by decide)

end ExactWitness

end KiteX402
