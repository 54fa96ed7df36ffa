/-
What a client that was refused for its quota has to wait: the fewest whole
seconds after which it is served.
-/
import KiteX402.RateLimitRefinement

namespace KiteX402

section Retry

variable (config : RateLimiterConfig) (clock : MonotonicClock)

/-- What a client is answered after the calls of a run. -/
def answerAfter (calls : List LimiterCall) (client : IpAddr) (now : Instant) :
    Except RateLimitRejection ℕ :=
  (acquire config clock ((limiterMachine config clock).run ∅ calls).1 client now).1

/-- The seconds until a bucket holds a token again, as `ceil` yields them. -/
def Bucket.waitSecs (bucket : Bucket) : ℤ := ⌈(1 - bucket.tokens) / config.rps⌉

/-- The wait of a client's bucket fits into the 64 bits that hold it. -/
def WaitFits (store : BucketStore) (client : IpAddr) : Prop :=
  ∀ bucket, store.entries.lookup (normalizeIp client) = some bucket →
    bucket.waitSecs config < 2 ^ 64

/-- Calls by timestamps that never decrease. -/
def OrderedCalls (calls : List LimiterCall) : Prop :=
  calls.Pairwise fun earlier later => earlier.now ≤ later.now

theorem Bucket.serve_lastRefill (bucket : Bucket) (now : Instant) :
    (bucket.serve config clock now).2.lastRefill = max now bucket.lastRefill := by
  by_cases hone : 1 ≤ (bucket.refill config now).tokens
  · simp only [serve, take, hone, if_true]
    rfl
  · simp only [serve, take, hone, if_false]
    rfl

variable {config clock}

/-- No bucket is newer than a time. -/
def RefilledBy (store : BucketStore) (now : Instant) : Prop :=
  ∀ ip bucket, store.entries.lookup ip = some bucket → bucket.lastRefill ≤ now

theorem RefilledBy.acquire {store : BucketStore} {final now : Instant}
    (hrefilled : RefilledBy store final) (hnow : now ≤ final) (client : IpAddr) :
    RefilledBy (acquire config clock store client now).2 final := by
  have hswept : RefilledBy (store.sweep now 64) final := fun ip bucket hbucket =>
    hrefilled ip bucket (ExpiryStore.lookup_of_lookup_sweep hbucket)
  have hput : ∀ (old : Bucket) (previous : Option Instant), old.lastRefill ≤ final →
      RefilledBy ((store.sweep now 64).put (normalizeIp client)
        (old.serve config clock now).2 previous
        (old.serve config clock now).2.expiresAt) final := by
    intro old previous hold ip bucket hbucket
    by_cases hip : ip = normalizeIp client
    · rw [hip, ExpiryStore.lookup_put_self] at hbucket
      rw [← Option.some.inj hbucket, Bucket.serve_lastRefill]
      exact max_le hnow hold
    · rw [ExpiryStore.lookup_put_of_ne hip] at hbucket
      exact hswept ip bucket hbucket
  rcases acquire_cases config clock store client now with
    ⟨_, _, heq⟩ | ⟨_, _, heq⟩ | ⟨bucket, hbucket, heq⟩ <;> rw [heq]
  · exact hswept
  · exact hput _ none hnow
  · exact hput bucket _ (hswept _ _ hbucket)

theorem refilledBy_run {store : BucketStore} {final : Instant} {calls : List LimiterCall}
    (hrefilled : RefilledBy store final) (hcalls : ∀ call ∈ calls, call.now ≤ final) :
    RefilledBy ((limiterMachine config clock).run store calls).1 final := by
  induction calls generalizing store with
  | nil => exact hrefilled
  | cons call rest ih =>
      obtain ⟨hcall, hrest⟩ := List.forall_mem_cons.mp hcalls
      rw [Machine.run_cons]
      exact ih (hrefilled.acquire hcall call.clientIp) hrest

/-- The bucket of a client between two of its calls: untouched, or swept at its
deadline. -/
inductive KeptUntil (store : BucketStore) (client : IpAddr) (bucket : Bucket)
    (final : Instant) : Prop where
  | kept (hbucket : store.entries.lookup client = some bucket)
  | swept (hnone : store.entries.lookup client = none) (due : Instant)
      (hdue : bucket.expiresAt = some due) (hle : due ≤ final)

namespace KeptUntil

variable {store : BucketStore} {client : IpAddr} {bucket : Bucket} {final now : Instant}

theorem sweep (hkept : KeptUntil store client bucket final)
    (hinv : LimiterInvariant config clock store) (hnow : now ≤ final) :
    KeptUntil (store.sweep now 64) client bucket final := by
  cases hkept with
  | kept hbucket =>
      by_cases hswept : ∃ pair ∈ store.swept now 64, (ofLex pair).2 = client
      · obtain ⟨pair, hpair, rfl⟩ := hswept
        have hmem := ExpiryStore.swept_subset now 64 store hpair
        obtain ⟨indexed, hindexed, hdue⟩ :=
          (hinv.indexed (ofLex pair).1 (ofLex pair).2).mp hmem
        rw [hbucket, Option.some_inj] at hindexed
        subst hindexed
        exact .swept (ExpiryStore.lookup_sweep_of_mem_swept pair hpair) _ hdue
          ((ExpiryStore.due_of_mem_swept pair hpair).trans hnow)
      · refine .kept ?_
        rw [ExpiryStore.lookup_sweep_of_notMem_swept fun pair hpair hkey =>
          hswept ⟨pair, hpair, hkey⟩]
        exact hbucket
  | swept hnone due hdue hle =>
      exact .swept (ExpiryStore.lookup_sweep_eq_none hnone) due hdue hle

theorem run {calls : List LimiterCall} (hkept : KeptUntil store client bucket final)
    (hinv : LimiterInvariant config clock store) (hcalls : ∀ call ∈ calls, call.now ≤ final)
    (hothers : ∀ call ∈ calls, normalizeIp call.clientIp ≠ client) :
    KeptUntil ((limiterMachine config clock).run store calls).1 client bucket final := by
  induction calls generalizing store with
  | nil => exact hkept
  | cons call rest ih =>
      obtain ⟨hcall, hrest⟩ := List.forall_mem_cons.mp hcalls
      obtain ⟨hother, hothers⟩ := List.forall_mem_cons.mp hothers
      have hframe := lookup_acquire_of_ne config clock store (Ne.symm hother) call.now
      have hstep : KeptUntil (acquire config clock store call.clientIp call.now).2 client bucket
          final := by
        cases hkept.sweep hinv hcall with
        | kept hbucket => exact .kept (hframe.trans hbucket)
        | swept hnone due hdue hle => exact .swept (hframe.trans hnone) due hdue hle
      rw [Machine.run_cons]
      exact ih hstep (hinv.acquire call.clientIp call.now) hrest hothers

end KeptUntil

/-- A bucket refuses a call exactly as long as it has not earned a token. -/
theorem Bucket.serve_quota_iff {bucket : Bucket} {now : Instant}
    (hnow : bucket.lastRefill ≤ now) :
    (∃ waitSecs, (bucket.serve config clock now).1 = .error (.quota waitSecs)) ↔
      Duration.asSecs now - Duration.asSecs bucket.lastRefill <
        (1 - bucket.tokens) / config.rps := by
  have hone : 1 ≤ (bucket.toTokenBucket.refill config.rps config.burst
      (Duration.asSecs now)).tokens ↔
      (1 - bucket.tokens) / config.rps ≤
        Duration.asSecs now - Duration.asSecs bucket.lastRefill :=
    TokenBucket.one_le_refill_iff config.rps_pos config.one_le_burst (Duration.asSecs_le hnow)
  rw [← not_le, ← hone, serve_eq_idealAnswer, idealAnswer]
  by_cases htoken : 1 ≤
      (bucket.toTokenBucket.refill config.rps config.burst (Duration.asSecs now)).tokens
  · simp [htoken]
  · simp [htoken]

/-- A bucket that refuses a call is left without a token, and tells its wait. -/
theorem Bucket.of_serve_quota {bucket : Bucket} {now : Instant} {waitSecs : ℕ}
    (hserved : (bucket.serve config clock now).1 = .error (.quota waitSecs)) :
    (bucket.serve config clock now).2.tokens < 1 ∧
      waitSecs = max (asU64 ((bucket.serve config clock now).2.waitSecs config)) 1 := by
  by_cases htoken : 1 ≤ (bucket.refill config now).tokens
  · simp [serve, take, htoken] at hserved
  · simp only [serve, take, htoken, if_false, Except.error.injEq,
      RateLimitRejection.quota.injEq] at hserved ⊢
    exact ⟨not_le.mp htoken, hserved.symm⟩

/-- Only a bucket that the sweep leaves refuses a call. -/
theorem acquire_quota {store : BucketStore} {client : IpAddr} {now : Instant} {waitSecs : ℕ}
    (hquota : (acquire config clock store client now).1 = .error (.quota waitSecs)) :
    ∃ bucket, (store.sweep now 64).entries.lookup (normalizeIp client) = some bucket ∧
      (bucket.serve config clock now).1 = .error (.quota waitSecs) ∧
      (acquire config clock store client now).2.entries.lookup (normalizeIp client) =
        some (bucket.serve config clock now).2 := by
  rcases acquire_cases config clock store client now with
    ⟨_, _, heq⟩ | ⟨_, _, heq⟩ | ⟨bucket, hbucket, heq⟩
  · rw [heq] at hquota
    simp at hquota
  · have hserved : ((Bucket.fresh config now).serve config clock now).1 =
        .error (.quota waitSecs) := by
      rw [heq] at hquota
      exact hquota
    have hfresh : (Bucket.fresh config now).lastRefill ≤ now := le_rfl
    have hrefused := (Bucket.serve_quota_iff hfresh).mp ⟨waitSecs, hserved⟩
    rw [Bucket.fresh, sub_self, lt_div_iff₀ config.rps_pos, zero_mul, sub_pos] at hrefused
    exact absurd config.one_le_burst (not_le.mpr hrefused)
  · rw [heq] at hquota ⊢
    exact ⟨bucket, hbucket, hquota, ExpiryStore.lookup_put_self _ _ _ _ _⟩

theorem acquire_of_lookup {store : BucketStore} {client : IpAddr} {now : Instant}
    {bucket : Bucket}
    (hbucket : (store.sweep now 64).entries.lookup (normalizeIp client) = some bucket) :
    (acquire config clock store client now).1 = (bucket.serve config clock now).1 := by
  rcases acquire_cases config clock store client now with
    ⟨hnot, _, _⟩ | ⟨hnot, _, _⟩ | ⟨other, hother, heq⟩
  · exact absurd (Finmap.mem_of_lookup_eq_some hbucket) hnot
  · exact absurd (Finmap.mem_of_lookup_eq_some hbucket) hnot
  · rw [heq, Option.some.inj (hbucket.symm.trans hother)]

/-- What is left of a client whose call was refused: a bucket without a token,
whose wait is what the client was told. -/
structure Refused (config : RateLimiterConfig) (clock : MonotonicClock) (store : BucketStore)
    (client : IpAddr) (now : Instant) (waitSecs : ℕ) (bucket : Bucket) : Prop where
  lookup : store.entries.lookup (normalizeIp client) = some bucket
  wellFormed : bucket.WellFormed config clock
  lastRefill : bucket.lastRefill = now
  tokens : bucket.tokens < 1
  wait : waitSecs = max (asU64 (bucket.waitSecs config)) 1

theorem refused_of_quota {store : BucketStore} {client : IpAddr} {now : Instant} {waitSecs : ℕ}
    (hinv : LimiterInvariant config clock store) (hrefilled : RefilledBy store now)
    (hquota : (acquire config clock store client now).1 = .error (.quota waitSecs)) :
    ∃ bucket, Refused config clock (acquire config clock store client now).2 client now waitSecs
      bucket := by
  obtain ⟨bucket, hbucket, hserved, hlookup⟩ := acquire_quota hquota
  have hlast : bucket.lastRefill ≤ now :=
    hrefilled _ _ (ExpiryStore.lookup_of_lookup_sweep hbucket)
  obtain ⟨htokens, hwait⟩ := Bucket.of_serve_quota hserved
  refine ⟨_, hlookup, (hinv.acquire client now).wellFormed _ _ hlookup, ?_, htokens, hwait⟩
  rw [Bucket.serve_lastRefill, max_eq_left hlast]

namespace Refused

variable {store : BucketStore} {client : IpAddr} {now : Instant} {waitSecs : ℕ}
  {bucket : Bucket}

/-- The wait told is the exact one, unless that does not fit. -/
theorem wait_eq (hrefused : Refused config clock store client now waitSecs bucket)
    (hfits : WaitFits config store client) : (waitSecs : ℤ) = bucket.waitSecs config := by
  have hbound := hfits bucket hrefused.lookup
  have hpos : 0 < bucket.waitSecs config :=
    Int.ceil_pos.mpr (div_pos (sub_pos.mpr hrefused.tokens) config.rps_pos)
  rw [hrefused.wait, asU64, Int.floor_intCast]
  omega

/-- At a time that is `waitSecs` seconds away or more the bucket serves. -/
theorem earned (hrefused : Refused config clock store client now waitSecs bucket)
    (hfits : WaitFits config store client) {later : Instant}
    (hlater : now + Duration.fromSecs waitSecs ≤ later) :
    (1 - bucket.tokens) / config.rps ≤
      Duration.asSecs later - Duration.asSecs bucket.lastRefill := by
  have hceil : (1 - bucket.tokens) / config.rps ≤ (waitSecs : ℚ) := by
    have hle : (1 - bucket.tokens) / config.rps ≤ (bucket.waitSecs config : ℚ) := Int.le_ceil _
    rw [← hrefused.wait_eq hfits] at hle
    exact hle
  have hsecs := Duration.asSecs_le hlater
  rw [Duration.asSecs_add, Duration.asSecs_fromSecs] at hsecs
  rw [hrefused.lastRefill]
  linarith

/-- A second earlier it does not. -/
theorem not_earned (hrefused : Refused config clock store client now waitSecs bucket)
    (hfits : WaitFits config store client) {later : Instant}
    (hlater : later ≤ now + Duration.fromSecs (waitSecs - 1)) :
    Duration.asSecs later - Duration.asSecs bucket.lastRefill <
      (1 - bucket.tokens) / config.rps := by
  have hone : 1 ≤ waitSecs := hrefused.wait ▸ le_max_right _ _
  have hceil : ((waitSecs - 1 : ℕ) : ℚ) < (1 - bucket.tokens) / config.rps := by
    have hlt : ((waitSecs - 1 : ℕ) : ℤ) < ⌈(1 - bucket.tokens) / config.rps⌉ := by
      have hwait := hrefused.wait_eq hfits
      rw [Bucket.waitSecs] at hwait
      omega
    exact_mod_cast Int.lt_ceil.mp hlt
  have hsecs := Duration.asSecs_le hlater
  rw [Duration.asSecs_add, Duration.asSecs_fromSecs] at hsecs
  rw [hrefused.lastRefill]
  linarith

/-- The bucket is not swept before it serves again. -/
theorem earned_of_due (hrefused : Refused config clock store client now waitSecs bucket)
    {due : Instant} (hdue : bucket.expiresAt = some due) :
    (1 - bucket.tokens) / config.rps ≤
      Duration.asSecs due - Duration.asSecs bucket.lastRefill := by
  rw [hrefused.wellFormed.deadline] at hdue
  exact (Bucket.fullBy_of_deadline config clock hdue).wait_le config.rps_pos config.one_le_burst

end Refused

/-- The wait is the least whole number of seconds after which the client is not
refused for its quota, whatever other clients do in the meantime. -/
structure LeastWait (config : RateLimiterConfig) (clock : MonotonicClock)
    (calls : List LimiterCall) (client : IpAddr) (now : Instant) (waitSecs : ℕ) : Prop where
  sufficient : ∀ others later,
    OrderedCalls (calls ++ ⟨client, now⟩ :: others ++ [⟨client, later⟩]) →
    (∀ call ∈ others, normalizeIp call.clientIp ≠ normalizeIp client) →
    now + Duration.fromSecs waitSecs ≤ later → ∀ again,
      answerAfter config clock (calls ++ ⟨client, now⟩ :: others) client later ≠
        .error (.quota again)
  least : ∀ others later,
    OrderedCalls (calls ++ ⟨client, now⟩ :: others ++ [⟨client, later⟩]) →
    (∀ call ∈ others, normalizeIp call.clientIp ≠ normalizeIp client) →
    later ≤ now + Duration.fromSecs (waitSecs - 1) → ∃ again,
      answerAfter config clock (calls ++ ⟨client, now⟩ :: others) client later =
        .error (.quota again)

/-- Between its refusal and its next call a client's bucket stays, or is swept
no earlier than it serves again. -/
theorem keptUntil_of_quota {calls others : List LimiterCall} {client : IpAddr}
    {now later : Instant} {waitSecs : ℕ}
    (hquota : answerAfter config clock calls client now = .error (.quota waitSecs))
    (hordered : OrderedCalls (calls ++ ⟨client, now⟩ :: others ++ [⟨client, later⟩]))
    (hothers : ∀ call ∈ others, normalizeIp call.clientIp ≠ normalizeIp client) :
    now ≤ later ∧ ∃ bucket,
      Refused config clock ((limiterMachine config clock).run ∅ (calls ++ [⟨client, now⟩])).1
        client now waitSecs bucket ∧
      KeptUntil (((limiterMachine config clock).run ∅
        (calls ++ ⟨client, now⟩ :: others)).1.sweep later 64) (normalizeIp client) bucket
          later := by
  obtain ⟨hbefore, _, hlast⟩ := List.pairwise_append.mp hordered
  have hle : ∀ call ∈ calls ++ ⟨client, now⟩ :: others, call.now ≤ later :=
    fun call hmem => hlast call hmem _ (List.mem_singleton_self _)
  obtain ⟨_, _, hcalls⟩ := List.pairwise_append.mp hbefore
  have hpast : ∀ call ∈ calls, call.now ≤ now :=
    fun call hmem => hcalls call hmem _ List.mem_cons_self
  have hinv := limiterMachine_run_invariant config clock calls
  have hempty : RefilledBy (∅ : BucketStore) now := by
    intro ip bucket hbucket
    simp at hbucket
  obtain ⟨bucket, hrefused⟩ := refused_of_quota hinv (refilledBy_run hempty hpast) hquota
  have hinv' := limiterMachine_run_invariant config clock (calls ++ [⟨client, now⟩])
  have hrun : ((limiterMachine config clock).run ∅ (calls ++ [⟨client, now⟩])).1 =
      (acquire config clock ((limiterMachine config clock).run ∅ calls).1 client now).2 := by
    rw [Machine.run_concat]
    rfl
  have hkept : KeptUntil ((limiterMachine config clock).run ∅ (calls ++ [⟨client, now⟩])).1
      (normalizeIp client) bucket later := .kept (hrun ▸ hrefused.lookup)
  have hafter := hkept.run hinv' (fun call hmem => hle call (by simp [hmem])) hothers
  have hstate : calls ++ ⟨client, now⟩ :: others = calls ++ [⟨client, now⟩] ++ others := by simp
  refine ⟨hle ⟨client, now⟩ (by simp), bucket, hrun ▸ hrefused, ?_⟩
  rw [hstate, Machine.run_append]
  have hinv'' := limiterMachine_run_invariant config clock (calls ++ [⟨client, now⟩] ++ others)
  rw [Machine.run_append] at hinv''
  exact hafter.sweep hinv'' le_rfl

/-- `Retry-After` is the least sufficient whole number of seconds, as long as it
fits into its 64 bits. -/
theorem retryAfter_least {calls : List LimiterCall} {client : IpAddr} {now : Instant}
    {waitSecs : ℕ}
    (hquota : answerAfter config clock calls client now = .error (.quota waitSecs))
    (hfits : WaitFits config
      ((limiterMachine config clock).run ∅ (calls ++ [⟨client, now⟩])).1 client) :
    LeastWait config clock calls client now waitSecs where
  sufficient others later hordered hothers hlater again hagain := by
    obtain ⟨hle, bucket, hrefused, hkept⟩ := keptUntil_of_quota hquota hordered hothers
    obtain ⟨other, hother, hserved, _⟩ := acquire_quota hagain
    cases hkept with
    | kept hbucket =>
        obtain rfl := Option.some.inj (hbucket.symm.trans hother)
        have hlast : bucket.lastRefill ≤ later := hrefused.lastRefill ▸ hle
        have hnot := (Bucket.serve_quota_iff hlast).mp ⟨again, hserved⟩
        exact absurd (hrefused.earned hfits hlater) (not_le.mpr hnot)
    | swept hnone due hdue hdueLe =>
        rw [hnone] at hother
        contradiction
  least others later hordered hothers hlater := by
    obtain ⟨hle, bucket, hrefused, hkept⟩ := keptUntil_of_quota hquota hordered hothers
    have hnot := hrefused.not_earned hfits hlater
    cases hkept with
    | kept hbucket =>
        have hlast : bucket.lastRefill ≤ later := hrefused.lastRefill ▸ hle
        obtain ⟨again, hagain⟩ := (Bucket.serve_quota_iff hlast).mpr hnot
        exact ⟨again, (acquire_of_lookup hbucket).trans hagain⟩
    | swept hnone due hdue hdueLe =>
        have hearned := hrefused.earned_of_due hdue
        have hsecs := Duration.asSecs_le hdueLe
        linarith

end Retry

namespace RetryWitness

theorem one_le_token : (1 : ℚ) ≤ 1 := le_rfl

/-- One token in three seconds. -/
def config : RateLimiterConfig where
  rps := 1 / 3
  burst := 1
  maxClients := 2
  idleTimeout := Duration.fromSecs 1
  rps_pos := by decide +kernel
  one_le_burst := one_le_token

def clock : MonotonicClock := ⟨Duration.fromSecs 1000⟩

def alice : IpAddr := .v4 1

/-- Alice spends her only token and calls again half a second later. -/
theorem alice_leastWait : LeastWait config clock [⟨alice, 0⟩] alice 500000000 3 := by
  refine retryAfter_least (by decide +kernel) ?_
  intro bucket hbucket
  have hlookup : ((limiterMachine config clock).run ∅
      ([⟨alice, 0⟩] ++ [⟨alice, 500000000⟩])).1.entries.lookup (normalizeIp alice) =
        some ⟨1 / 6, 500000000, some 3500000000⟩ := by
    decide +kernel
  obtain rfl := Option.some.inj (hlookup.symm.trans hbucket)
  decide +kernel

end RetryWitness

end KiteX402
