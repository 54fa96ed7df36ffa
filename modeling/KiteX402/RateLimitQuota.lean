/-
How often a client is admitted: the quota of the ideal limiter, and what of it
carries over to the limiter that forgets clients.
-/
import KiteX402.RateLimitRefinement

namespace KiteX402

/-- `event` admits a call of `client` from `first` to `final`. -/
def LimiterEvent.Admits (client : IpAddr) (first final : Instant)
    (event : LimiterEvent) : Prop :=
  normalizeIp event.call.clientIp = client ∧ first ≤ event.call.now ∧
    event.call.now ≤ final ∧ event.result.isOk = true

instance (client : IpAddr) (first final : Instant) (event : LimiterEvent) :
    Decidable (event.Admits client first final) :=
  inferInstanceAs (Decidable (_ ∧ _ ∧ _ ∧ _))

def admissions (client : IpAddr) (first final : Instant)
    (events : List LimiterEvent) : ℕ :=
  events.countP fun event => event.Admits client first final

/-- No client is admitted more often, in any interval, than its burst and the
refills of the interval allow. -/
def WithinQuota (config : RateLimiterConfig) (events : List LimiterEvent) : Prop :=
  ∀ client first final, first ≤ final →
    (admissions client first final events : ℚ) ≤
      config.burst + config.rps * Duration.asSecs (final - first)

/-- Timestamps may go back only before `final`. -/
def OrderedPast (final : Instant) (calls : List LimiterCall) : Prop :=
  calls.Pairwise fun earlier later =>
    earlier.now ≤ final ∨ earlier.now ≤ later.now

theorem admissions_append (client : IpAddr) (first final : Instant)
    (events more : List LimiterEvent) :
    admissions client first final (events ++ more) =
      admissions client first final events + admissions client first final more :=
  List.countP_append

theorem admissions_singleton (client : IpAddr) (first final : Instant)
    (event : LimiterEvent) :
    admissions client first final [event] =
      if event.Admits client first final then 1 else 0 := by
  simp [admissions, List.countP_singleton]

/-- A call turned away is no admission. -/
theorem admissions_served (client : IpAddr) (first final : Instant)
    (events : List LimiterEvent) :
    admissions client first final (served events) =
      admissions client first final events := by
  unfold admissions served
  rw [List.countP_filter]
  apply List.countP_congr
  intro event _
  simp only [Bool.and_eq_true, decide_eq_true_eq]
  constructor
  · exact fun h => h.1
  · intro h
    refine ⟨h, fun hcapacity => ?_⟩
    have hok := h.2.2.2
    rw [hcapacity] at hok
    contradiction

section Ideal

variable (config : RateLimiterConfig)

theorem isOk_idealAnswer {bucket : TokenBucket ℚ}
    (h : (idealAnswer config bucket).isOk = true) : 1 ≤ bucket.tokens := by
  unfold idealAnswer at h
  split at h
  next hone => exact hone
  next => contradiction

/-- The admissions of `client` in the interval so far are accounted for. -/
structure Account (client : IpAddr) (first final : Instant)
    (ideal : IdealLimiter) (count : ℕ) : Prop where
  absent : ideal client = none → count = 0
  present : ∀ bucket, ideal client = some bucket →
    bucket.Bounded config.burst ∧
      bucket.Paid config.rps config.burst (Duration.asSecs first)
        (Duration.asSecs final) count

namespace Account

variable {config} {client : IpAddr} {first final : Instant}
  {ideal : IdealLimiter} {count : ℕ}

theorem initial : Account config client first final IdealLimiter.initial 0 where
  absent _ := rfl
  present bucket h := by simp [IdealLimiter.initial] at h

/-- The bucket a call finds, refilled. -/
theorem refill (haccount : Account config client first final ideal count)
    (hinterval : first ≤ final) {call : LimiterCall}
    (hclient : normalizeIp call.clientIp = client) :
    (idealBucket config ideal call).Bounded config.burst ∧
      (idealBucket config ideal call).Paid config.rps config.burst
        (Duration.asSecs first) (Duration.asSecs final) count := by
  have hrate := config.rps_pos.le
  have hburst : 0 ≤ config.burst := zero_le_one.trans config.one_le_burst
  have hsecs := Duration.asSecs_le hinterval
  unfold idealBucket
  rw [hclient]
  cases hideal : ideal client with
  | none =>
      rw [haccount.absent hideal, Option.getD_none]
      have hbounded := Bucket.bounded_fresh config call.now
      have hstart := TokenBucket.Paid.start hrate hburst hsecs
        (Duration.asSecs call.now)
      exact ⟨hbounded.refill hrate _, hstart.refill hbounded hrate hsecs _⟩
  | some bucket =>
      obtain ⟨hbounded, hpaid⟩ := haccount.present bucket hideal
      rw [Option.getD_some]
      exact ⟨hbounded.refill hrate _, hpaid.refill hbounded hrate hsecs _⟩

theorem step (haccount : Account config client first final ideal count)
    (hinterval : first ≤ final) {call : LimiterCall}
    (hlast : ∀ bucket, ideal client = some bucket →
      bucket.last ≤ Duration.asSecs final ∨
        bucket.last ≤ Duration.asSecs call.now) :
    Account config client first final ((idealMachine config).step ideal call).1
      (count +
        admissions client first final ((idealMachine config).step ideal call).2) := by
  simp only [idealMachine, admissions_singleton]
  by_cases hclient : normalizeIp call.clientIp = client
  · obtain ⟨hbounded, hpaid⟩ := haccount.refill hinterval hclient
    refine ⟨fun hnone => ?_, fun bucket hbucket => ?_⟩
    · rw [hclient, Function.update_self] at hnone
      contradiction
    · rw [hclient, Function.update_self, Option.some_inj] at hbucket
      subst hbucket
      refine ⟨hbounded.spend, ?_⟩
      apply hpaid.spend
      rintro ⟨_, hfirst, hfinal, hok⟩
      -- An admission in the interval finds the bucket still within it.
      have hnow : (idealBucket config ideal call).last =
          max (Duration.asSecs call.now) (((ideal client).getD
            ⟨config.burst, Duration.asSecs call.now⟩).last) := by
        rw [← hclient]
        rfl
      refine ⟨isOk_idealAnswer config hok, ?_, ?_⟩
      · rw [hnow]
        exact (Duration.asSecs_le hfirst).trans (le_max_left _ _)
      · rw [hnow]
        apply max_le (Duration.asSecs_le hfinal)
        cases hideal : ideal client with
        | none => exact Duration.asSecs_le hfinal
        | some bucket =>
            rcases hlast bucket hideal with h | h
            · exact h
            · exact h.trans (Duration.asSecs_le hfinal)
  · have hnot : ¬LimiterEvent.Admits client first final
        ⟨call, idealAnswer config (idealBucket config ideal call)⟩ :=
      fun h => hclient h.1
    have hkept : Function.update ideal (normalizeIp call.clientIp)
        (some (idealBucket config ideal call).spend) client = ideal client :=
      Function.update_of_ne (Ne.symm hclient) _ _
    rw [if_neg hnot, Nat.add_zero]
    exact ⟨fun hnone => haccount.absent (hkept ▸ hnone),
      fun bucket hbucket => haccount.present bucket (hkept ▸ hbucket)⟩

/-- A bucket's time is that of a call, or the one it had. -/
theorem last_step {call : LimiterCall} {bucket : TokenBucket ℚ}
    (h : ((idealMachine config).step ideal call).1 client = some bucket) :
    bucket.last = Duration.asSecs call.now ∨
      ∃ old, ideal client = some old ∧ bucket.last = old.last := by
  by_cases hclient : normalizeIp call.clientIp = client
  · have hbucket : (idealBucket config ideal call).spend = bucket := by
      simpa [idealMachine, hclient] using h
    have hlast : bucket.last = max (Duration.asSecs call.now)
        (((ideal client).getD
          ⟨config.burst, Duration.asSecs call.now⟩).last) := by
      rw [← hbucket, TokenBucket.last_spend, ← hclient]
      rfl
    cases hideal : ideal client with
    | none =>
        rw [hideal, Option.getD_none, max_self] at hlast
        exact Or.inl hlast
    | some old =>
        rw [hideal, Option.getD_some] at hlast
        rcases max_choice (Duration.asSecs call.now) old.last with h | h
        · exact Or.inl (hlast.trans h)
        · exact Or.inr ⟨old, rfl, hlast.trans h⟩
  · refine Or.inr ⟨bucket, ?_, rfl⟩
    rw [← h]
    exact (Function.update_of_ne (Ne.symm hclient) _ _).symm

theorem run (haccount : Account config client first final ideal count)
    (hinterval : first ≤ final) {calls : List LimiterCall}
    (hordered : OrderedPast final calls)
    (hlast : ∀ bucket, ideal client = some bucket → ∀ call ∈ calls,
      bucket.last ≤ Duration.asSecs final ∨
        bucket.last ≤ Duration.asSecs call.now) :
    Account config client first final ((idealMachine config).run ideal calls).1
      (count +
        admissions client first final ((idealMachine config).run ideal calls).2) := by
  induction calls generalizing ideal count with
  | nil => exact haccount
  | cons call rest ih =>
      obtain ⟨hcall, hrest⟩ := List.pairwise_cons.mp hordered
      have hhead : ∀ bucket, ideal client = some bucket →
          bucket.last ≤ Duration.asSecs final ∨
            bucket.last ≤ Duration.asSecs call.now :=
        fun bucket hbucket => hlast bucket hbucket call List.mem_cons_self
      rw [Machine.run_cons, admissions_append, ← Nat.add_assoc]
      apply ih (haccount.step hinterval hhead) hrest
      intro bucket hbucket later hlater
      rcases last_step hbucket with h | ⟨old, hold, h⟩
      · rw [h]
        exact (hcall later hlater).imp Duration.asSecs_le Duration.asSecs_le
      · rw [h]
        exact hlast old hold later (List.mem_cons_of_mem _ hlater)

theorem count_le (haccount : Account config client first final ideal count)
    (hinterval : first ≤ final) :
    (count : ℚ) ≤ config.burst + config.rps * Duration.asSecs (final - first) := by
  have hrate := config.rps_pos.le
  have hburst : 0 ≤ config.burst := zero_le_one.trans config.one_le_burst
  cases hideal : ideal client with
  | none =>
      rw [haccount.absent hideal, Nat.cast_zero]
      have hgain := mul_nonneg hrate (Duration.asSecs_nonneg (final - first))
      linarith
  | some bucket =>
      obtain ⟨hbounded, hpaid⟩ := haccount.present bucket hideal
      rw [Duration.asSecs_sub hinterval]
      exact hpaid.count_le hbounded hrate (Duration.asSecs_le hinterval)

end Account

theorem idealMachine_admissions_le {client : IpAddr} {first final : Instant}
    (hinterval : first ≤ final) {calls : List LimiterCall}
    (hordered : OrderedPast final calls) :
    (admissions client first final
      ((idealMachine config).run IdealLimiter.initial calls).2 : ℚ) ≤
      config.burst + config.rps * Duration.asSecs (final - first) := by
  have hstart : Account config client first final IdealLimiter.initial 0 :=
    Account.initial
  have hrun := hstart.run hinterval hordered fun bucket h => by
    simp [IdealLimiter.initial] at h
  rw [Nat.zero_add] at hrun
  exact hrun.count_le hinterval

end Ideal

section Limiter

variable (config : RateLimiterConfig) (clock : MonotonicClock)

theorem limiterMachine_run_calls (store : BucketStore)
    (calls : List LimiterCall) :
    ((limiterMachine config clock).run store calls).2.map LimiterEvent.call =
      calls := by
  induction calls generalizing store with
  | nil => rfl
  | cons call rest ih =>
      rw [Machine.run_cons, List.map_append, ih]
      rfl

/-- What the ideal limiter grants at most, a limiter that answers like it
grants at most. -/
theorem admissions_le_of_refines {calls : List LimiterCall}
    (hrefines : RefinesIdeal config ((limiterMachine config clock).run ∅ calls).2)
    {client : IpAddr} {first final : Instant} (hinterval : first ≤ final)
    (hordered : OrderedPast final calls) :
    (admissions client first final
      ((limiterMachine config clock).run ∅ calls).2 : ℚ) ≤
      config.burst + config.rps * Duration.asSecs (final - first) := by
  have hsublist : ((served ((limiterMachine config clock).run ∅ calls).2).map
      LimiterEvent.call).Sublist calls := by
    have hfilter : (served ((limiterMachine config clock).run ∅ calls).2).Sublist
        ((limiterMachine config clock).run ∅ calls).2 := List.filter_sublist
    have hmap := hfilter.map LimiterEvent.call
    rw [limiterMachine_run_calls] at hmap
    exact hmap
  rw [← admissions_served, ← hrefines]
  exact idealMachine_admissions_le config hinterval (hordered.sublist hsublist)

/-- The limiter with bounded storage refines the one that forgets nobody. -/
theorem limiter_refines_ideal {calls : List LimiterCall}
    (hsorted : calls.Pairwise fun earlier later => earlier.now ≤ later.now) :
    RefinesIdeal config ((limiterMachine config clock).run ∅ calls).2 ∧
      WithinQuota config ((limiterMachine config clock).run ∅ calls).2 := by
  have hrefines := refinesIdeal_of_timely config clock
    (timely_of_sorted config clock hsorted)
  refine ⟨hrefines, fun client first final hinterval => ?_⟩
  exact admissions_le_of_refines config clock hrefines hinterval
    (hsorted.imp fun h => Or.inr h)

/-- No client is admitted more often, in all the calls, than its burst and the
refills between the least and the greatest timestamp allow. -/
def NeverMints (calls : List LimiterCall) : Prop :=
  ∀ client earliest latest, earliest ≤ latest →
    (∀ call ∈ calls, earliest ≤ call.now ∧ call.now ≤ latest) →
    (admissions client earliest latest
      ((limiterMachine config clock).run ∅ calls).2 : ℚ) ≤
      config.burst + config.rps * Duration.asSecs (latest - earliest)

/-- Late timestamps mint no tokens where no bucket is made anew before the one
that was swept would have been full again. -/
theorem limiter_never_mints {calls : List LimiterCall}
    (htimely : Timely config clock calls) : NeverMints config clock calls := by
  intro client earliest latest hinterval hcalls
  apply admissions_le_of_refines config clock
    (refinesIdeal_of_timely config clock htimely) hinterval
  apply List.pairwise_of_forall_mem_list
  intro earlier hearlier later _
  exact Or.inl (hcalls earlier hearlier).2

end Limiter

namespace RateLimitWitness

/-- One token a second, and a bucket may go after one idle second. -/
def config : RateLimiterConfig where
  rps := 1
  burst := 1
  maxClients := 2
  idleTimeout := Duration.fromSecs 1
  rps_pos := by decide +kernel
  one_le_burst := by decide +kernel

def clock : MonotonicClock := ⟨Duration.fromSecs 1000⟩

def alice : IpAddr := .v4 1

def bob : IpAddr := .v4 2

/-- Bob's call sweeps the bucket of Alice, whose second call took its timestamp
before that but reaches the lock after it. -/
def overtaken : List LimiterCall :=
  [⟨alice, 0⟩, ⟨bob, Duration.fromSecs 1⟩, ⟨alice, 0⟩,
    ⟨alice, Duration.fromSecs 1⟩]

/-- Three admissions in one second, where two are allowed. -/
theorem overtaken_mints : ¬NeverMints config clock overtaken := by
  intro h
  have hle := h alice 0 (Duration.fromSecs 1) (by decide) (by decide)
  have hcount : admissions alice 0 (Duration.fromSecs 1)
      ((limiterMachine config clock).run ∅ overtaken).2 = 3 := by
    decide +kernel
  rw [hcount] at hle
  revert hle
  decide +kernel

/-- A bucket may go after ten idle seconds, nine after it is full again. -/
def idle : RateLimiterConfig := { config with idleTimeout := Duration.fromSecs 10 }

/-- Alice's bucket is full again at 3 s and swept at 12 s.  She comes back with
timestamps before its deadline, and with one before that of her last call. -/
def late : List LimiterCall :=
  [⟨alice, Duration.fromSecs 2⟩, ⟨bob, Duration.fromSecs 12⟩,
    ⟨alice, Duration.fromSecs 5⟩, ⟨alice, Duration.fromSecs 4⟩,
    ⟨bob, Duration.fromSecs 11⟩]

theorem late_never_mints : NeverMints idle clock late :=
  limiter_never_mints idle clock (by decide +kernel)

/-- Alice's bucket is swept and made anew. -/
def ordered : List LimiterCall :=
  [⟨alice, 0⟩, ⟨bob, Duration.fromSecs 1⟩, ⟨alice, Duration.fromSecs 2⟩]

theorem ordered_refines_ideal :
    RefinesIdeal config ((limiterMachine config clock).run ∅ ordered).2 ∧
      WithinQuota config ((limiterMachine config clock).run ∅ ordered).2 :=
  limiter_refines_ideal config clock (by decide)

end RateLimitWitness

end KiteX402
