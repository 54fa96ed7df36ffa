/-
The limiter against an ideal one that forgets no client.  The two answer alike
as long as no bucket is made anew before the one that was swept would have been
full; timestamps that never decrease see to that.
-/
import KiteX402.RateLimitInvariant
import Mathlib.Logic.Function.Basic

namespace KiteX402

/-- A token bucket for every client that has ever called. -/
abbrev IdealLimiter := IpAddr → Option (TokenBucket ℚ)

section Ideal

variable (config : RateLimiterConfig)

/-- The answer of a bucket that has just been refilled. -/
def idealAnswer (bucket : TokenBucket ℚ) : Except RateLimitRejection ℕ :=
  if 1 ≤ bucket.tokens then .ok (asU64 (bucket.tokens - 1))
  else .error (.quota (max (asU64 ⌈(1 - bucket.tokens) / config.rps⌉) 1))

/-- The bucket of a client at the time of a call. -/
def idealBucket (ideal : IdealLimiter) (call : LimiterCall) : TokenBucket ℚ :=
  ((ideal (normalizeIp call.clientIp)).getD
    ⟨config.burst, Duration.asSecs call.now⟩).refill config.rps config.burst
      (Duration.asSecs call.now)

/-- The limiter without expiry and without capacity. -/
def idealMachine : Machine IdealLimiter LimiterCall LimiterEvent where
  step ideal call :=
    (Function.update ideal (normalizeIp call.clientIp)
        (some (idealBucket config ideal call).spend),
      [⟨call, idealAnswer config (idealBucket config ideal call)⟩])

def IdealLimiter.initial : IdealLimiter := fun _ => none

theorem serve_eq_idealAnswer (clock : MonotonicClock) (bucket : Bucket)
    (now : Instant) :
    (bucket.serve config clock now).1 =
      idealAnswer config (bucket.toTokenBucket.refill config.rps config.burst
        (Duration.asSecs now)) := by
  rw [← Bucket.toTokenBucket_refill]
  simp only [Bucket.serve, Bucket.take, idealAnswer, Bucket.toTokenBucket]
  by_cases h : 1 ≤ (bucket.refill config now).tokens
  · simp [h]
  · simp [h]

end Ideal

section Simulation

variable (config : RateLimiterConfig) (clock : MonotonicClock)

/-- `call` finds no bucket of its client and room for a new one. -/
def Creates (store : BucketStore) (call : LimiterCall) : Prop :=
  normalizeIp call.clientIp ∉ (store.sweep call.now 64).entries ∧
    (store.sweep call.now 64).size < config.maxClients

/-- The bucket of each client that was swept last. -/
abbrev SweptBuckets := IpAddr → Option Bucket

def SweptBuckets.sweep (gone : SweptBuckets) (store : BucketStore) (now : Instant) :
    SweptBuckets := fun ip =>
  if ∃ pair ∈ store.swept now 64, (ofLex pair).2 = ip then store.entries.lookup ip
  else gone ip

/-- Where `gone` has been swept so far, `call` makes no bucket before the last one
of its client would have been full again. -/
def TimelyCall (store : BucketStore) (gone : SweptBuckets) (call : LimiterCall) : Prop :=
  Creates config store call →
    ∀ bucket ∈ gone.sweep store call.now (normalizeIp call.clientIp),
      bucket.toTokenBucket.FullBy config.rps config.burst (Duration.asSecs call.now)

/-- Every call of the run is timely. -/
def TimelyFrom : BucketStore → SweptBuckets → List LimiterCall → Prop
  | _, _, [] => True
  | store, gone, call :: rest =>
      TimelyCall config store gone call ∧
        TimelyFrom ((limiterMachine config clock).step store call).1
          (gone.sweep store call.now) rest

def Timely (calls : List LimiterCall) : Prop := TimelyFrom config clock ∅ (fun _ => none) calls

instance (store : BucketStore) (call : LimiterCall) :
    Decidable (Creates config store call) :=
  inferInstanceAs (Decidable (_ ∧ _))

instance (store : BucketStore) (gone : SweptBuckets) (call : LimiterCall) :
    Decidable (TimelyCall config store gone call) :=
  inferInstanceAs (Decidable (_ → ∀ bucket ∈ _, _))

instance TimelyFrom.decidable : ∀ store gone calls,
    Decidable (TimelyFrom config clock store gone calls)
  | _, _, [] => isTrue trivial
  | store, gone, call :: rest =>
      have := TimelyFrom.decidable
        ((limiterMachine config clock).step store call).1
        (gone.sweep store call.now) rest
      inferInstanceAs (Decidable (_ ∧ _))

instance (calls : List LimiterCall) : Decidable (Timely config clock calls) :=
  TimelyFrom.decidable config clock ∅ (fun _ => none) calls

/-- What the ideal limiter knows is in the buckets kept and in those swept. -/
structure Simulates (gone : SweptBuckets) (store : BucketStore) (ideal : IdealLimiter) :
    Prop where
  present : ∀ ip bucket, store.entries.lookup ip = some bucket →
    ideal ip = some bucket.toTokenBucket
  absent : ∀ ip, store.entries.lookup ip = none →
    ideal ip = (gone ip).map Bucket.toTokenBucket ∨ ideal ip = none

namespace Simulates

variable {config clock} {gone : SweptBuckets} {store : BucketStore} {ideal : IdealLimiter}

theorem initial : Simulates (fun _ => none) ∅ IdealLimiter.initial where
  present ip bucket h := by simp at h
  absent ip _ := Or.inr rfl

/-- The sweep takes buckets as they were. -/
theorem sweep (hsim : Simulates gone store ideal)
    (hinv : LimiterInvariant config clock store) (now : Instant) :
    Simulates (gone.sweep store now) (store.sweep now 64) ideal where
  present ip bucket h :=
    hsim.present ip bucket (ExpiryStore.lookup_of_lookup_sweep h)
  absent ip hnone := by
    unfold SweptBuckets.sweep
    by_cases hswept : ∃ pair ∈ store.swept now 64, (ofLex pair).2 = ip
    · rw [if_pos hswept]
      obtain ⟨pair, hpair, rfl⟩ := hswept
      have hmem := ExpiryStore.swept_subset now 64 store hpair
      obtain ⟨old, hold, -⟩ := (hinv.indexed (ofLex pair).1 (ofLex pair).2).mp hmem
      rw [hold]
      exact Or.inl (hsim.present _ _ hold)
    · rw [if_neg hswept]
      have hkept := ExpiryStore.lookup_sweep_of_notMem_swept
        fun pair hpair hkey => hswept ⟨pair, hpair, hkey⟩
      rw [hnone] at hkept
      exact hsim.absent ip hkept.symm

theorem put (hsim : Simulates gone store ideal) (ip : IpAddr)
    (bucket : Bucket) (previous next : Option Instant) :
    Simulates gone (store.put ip bucket previous next)
      (Function.update ideal ip (some bucket.toTokenBucket)) where
  present other bucket' h := by
    by_cases hother : other = ip
    · subst hother
      rw [ExpiryStore.lookup_put_self, Option.some_inj] at h
      rw [Function.update_self, h]
    · rw [ExpiryStore.lookup_put_of_ne hother] at h
      rw [Function.update_of_ne hother]
      exact hsim.present other bucket' h
  absent other hnone := by
    by_cases hother : other = ip
    · subst hother
      rw [ExpiryStore.lookup_put_self] at hnone
      contradiction
    · rw [ExpiryStore.lookup_put_of_ne hother] at hnone
      rw [Function.update_of_ne hother]
      exact hsim.absent other hnone

/-- The bucket a timely call serves, whether kept or new, refills to the same
as the ideal one. -/
theorem refill_eq (hsim : Simulates gone store ideal)
    {call : LimiterCall}
    (htimely : store.entries.lookup (normalizeIp call.clientIp) = none →
      ∀ bucket ∈ gone (normalizeIp call.clientIp),
        bucket.toTokenBucket.FullBy config.rps config.burst (Duration.asSecs call.now)) :
    (((store.entries.lookup (normalizeIp call.clientIp)).getD
      (Bucket.fresh config call.now)).toTokenBucket.refill config.rps config.burst
        (Duration.asSecs call.now)) = idealBucket config ideal call := by
  unfold idealBucket
  cases hlookup : store.entries.lookup (normalizeIp call.clientIp) with
  | some bucket => rw [hsim.present _ _ hlookup, Option.getD_some, Option.getD_some]
  | none =>
      rw [Option.getD_none, Bucket.toTokenBucket_fresh]
      rcases hsim.absent _ hlookup with hgone | hnone
      · rw [hgone]
        cases hbucket : gone (normalizeIp call.clientIp) with
        | none => rfl
        | some bucket =>
            rw [Option.map_some, Option.getD_some, (htimely hlookup bucket hbucket).refill_eq]
      · rw [hnone, Option.getD_none]

end Simulates

/-- Serving a bucket that refills as the ideal one does. -/
theorem Simulates.serve {gone : SweptBuckets} {store : BucketStore}
    {ideal : IdealLimiter} (hsim : Simulates gone store ideal)
    {call : LimiterCall} {bucket : Bucket}
    (hrefill : bucket.toTokenBucket.refill config.rps config.burst
      (Duration.asSecs call.now) = idealBucket config ideal call)
    (previous : Option Instant) :
    (bucket.serve config clock call.now).1 =
        idealAnswer config (idealBucket config ideal call) ∧
      Simulates gone
        (store.put (normalizeIp call.clientIp)
          (bucket.serve config clock call.now).2 previous
          (bucket.serve config clock call.now).2.expiresAt)
        ((idealMachine config).step ideal call).1 := by
  refine ⟨by rw [serve_eq_idealAnswer, hrefill], ?_⟩
  have hput := hsim.put (normalizeIp call.clientIp)
    (bucket.serve config clock call.now).2 previous
    (bucket.serve config clock call.now).2.expiresAt
  rw [Bucket.toTokenBucket_serve, hrefill] at hput
  exact hput

theorem idealAnswer_ne_capacity (bucket : TokenBucket ℚ) :
    idealAnswer config bucket ≠ .error .capacity := by
  unfold idealAnswer
  split <;> simp

/-- One call: answered for lack of capacity, or answered as the ideal limiter
answers it. -/
theorem simulates_step {gone : SweptBuckets} {store : BucketStore}
    {ideal : IdealLimiter} (hinv : LimiterInvariant config clock store)
    (hsim : Simulates gone store ideal) {call : LimiterCall}
    (htimely : TimelyCall config store gone call) :
    ((acquire config clock store call.clientIp call.now).1 = .error .capacity ∧
      Simulates (gone.sweep store call.now)
        (acquire config clock store call.clientIp call.now).2 ideal) ∨
    ((acquire config clock store call.clientIp call.now).1 =
        idealAnswer config (idealBucket config ideal call) ∧
      Simulates (gone.sweep store call.now)
        (acquire config clock store call.clientIp call.now).2
        ((idealMachine config).step ideal call).1) := by
  have hswept := hsim.sweep hinv call.now
  rcases acquire_cases config clock store call.clientIp call.now with
    ⟨_, _, heq⟩ | ⟨hnot, hroom, heq⟩ | ⟨bucket, hbucket, heq⟩ <;> rw [heq]
  · exact Or.inl ⟨rfl, hswept⟩
  · have hrefill := hswept.refill_eq fun _ => htimely ⟨hnot, hroom⟩
    rw [Finmap.lookup_eq_none.mpr hnot, Option.getD_none] at hrefill
    exact Or.inr (hswept.serve config clock hrefill none)
  · have hrefill := @Simulates.refill_eq config _ _ _ hswept call fun hnone => by
      rw [hbucket] at hnone
      contradiction
    rw [hbucket, Option.getD_some] at hrefill
    exact Or.inr (hswept.serve config clock hrefill bucket.expiresAt)

/-- The events of the calls that were not turned away for lack of capacity. -/
def served (events : List LimiterEvent) : List LimiterEvent :=
  events.filter fun event => event.result ≠ .error .capacity

/-- The ideal limiter, fed the calls that were served, answers them alike. -/
def RefinesIdeal (events : List LimiterEvent) : Prop :=
  ((idealMachine config).run IdealLimiter.initial
    ((served events).map LimiterEvent.call)).2 = served events

theorem refines_from (calls : List LimiterCall) {store : BucketStore}
    {gone : SweptBuckets} {ideal : IdealLimiter}
    (hinv : LimiterInvariant config clock store)
    (hsim : Simulates gone store ideal)
    (htimely : TimelyFrom config clock store gone calls) :
    ((idealMachine config).run ideal
        ((served ((limiterMachine config clock).run store calls).2).map
          LimiterEvent.call)).2 =
      served ((limiterMachine config clock).run store calls).2 := by
  induction calls generalizing store gone ideal with
  | nil => rfl
  | cons call rest ih =>
      obtain ⟨hcall, hrest⟩ := htimely
      have hinv' := hinv.acquire call.clientIp call.now
      rcases simulates_step config clock hinv hsim hcall with
        ⟨hcapacity, hsim'⟩ | ⟨hresult, hsim'⟩
      · have hskip : served
            ((limiterMachine config clock).run store (call :: rest)).2 =
            served ((limiterMachine config clock).run
              (acquire config clock store call.clientIp call.now).2 rest).2 := by
          simp [Machine.run_cons, limiterMachine, served, hcapacity]
        rw [hskip]
        exact ih hinv' hsim' hrest
      · have hkeep : served
            ((limiterMachine config clock).run store (call :: rest)).2 =
            ⟨call, idealAnswer config (idealBucket config ideal call)⟩ ::
              served ((limiterMachine config clock).run
                (acquire config clock store call.clientIp call.now).2 rest).2 := by
          simp [Machine.run_cons, limiterMachine, served, hresult,
            idealAnswer_ne_capacity]
        rw [hkeep, List.map_cons, Machine.run_cons, ih hinv' hsim' hrest]
        rfl

theorem refinesIdeal_of_timely {calls : List LimiterCall}
    (htimely : Timely config clock calls) :
    RefinesIdeal config ((limiterMachine config clock).run ∅ calls).2 :=
  refines_from config clock calls LimiterInvariant.initial Simulates.initial
    htimely

/-- A bucket that the sweep takes is full by then. -/
theorem fullBy_sweep {store : BucketStore} {gone : SweptBuckets}
    (hinv : LimiterInvariant config clock store) {now : Instant} {ip : IpAddr} {bucket : Bucket}
    (hgone : bucket ∈ gone ip →
      bucket.toTokenBucket.FullBy config.rps config.burst (Duration.asSecs now))
    (hbucket : bucket ∈ gone.sweep store now ip) :
    bucket.toTokenBucket.FullBy config.rps config.burst (Duration.asSecs now) := by
  unfold SweptBuckets.sweep at hbucket
  split at hbucket
  next hswept =>
    obtain ⟨pair, hpair, rfl⟩ := hswept
    have hmem := ExpiryStore.swept_subset now 64 store hpair
    obtain ⟨old, hold, hdue⟩ := (hinv.indexed (ofLex pair).1 (ofLex pair).2).mp hmem
    obtain rfl : old = bucket := Option.some.inj (hold.symm.trans hbucket)
    rw [(hinv.wellFormed _ _ hold).deadline] at hdue
    exact (Bucket.fullBy_of_deadline config clock hdue).mono config.rps_pos.le
      (Duration.asSecs_le (ExpiryStore.due_of_mem_swept pair hpair))
  next => exact hgone hbucket

/-- With timestamps that never decrease, every call is timely: what has been
swept was full before. -/
theorem timelyFrom_of_sorted {calls : List LimiterCall} {store : BucketStore}
    {gone : SweptBuckets} (hinv : LimiterInvariant config clock store)
    (hgone : ∀ call ∈ calls, ∀ ip, ∀ bucket ∈ gone ip,
      bucket.toTokenBucket.FullBy config.rps config.burst (Duration.asSecs call.now))
    (hsorted : calls.Pairwise fun earlier later => earlier.now ≤ later.now) :
    TimelyFrom config clock store gone calls := by
  induction calls generalizing store gone with
  | nil => trivial
  | cons call rest ih =>
      rw [List.pairwise_cons] at hsorted
      have hfull : ∀ ip, ∀ bucket ∈ gone.sweep store call.now ip,
          bucket.toTokenBucket.FullBy config.rps config.burst (Duration.asSecs call.now) :=
        fun ip bucket hbucket => fullBy_sweep config clock hinv
          (hgone call List.mem_cons_self ip bucket) hbucket
      refine ⟨fun _ => hfull _, ih (hinv.acquire call.clientIp call.now) ?_ hsorted.2⟩
      intro later hlater ip bucket hbucket
      exact (hfull ip bucket hbucket).mono config.rps_pos.le
        (Duration.asSecs_le (hsorted.1 later hlater))

theorem timely_of_sorted {calls : List LimiterCall}
    (hsorted : calls.Pairwise fun earlier later => earlier.now ≤ later.now) :
    Timely config clock calls :=
  timelyFrom_of_sorted config clock LimiterInvariant.initial
    (fun _ _ _ _ hbucket => absurd hbucket (Option.not_mem_none _)) hsorted

end Simulation

end KiteX402
