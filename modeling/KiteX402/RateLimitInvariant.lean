/-
The limiter's storage after any sequence of calls: bounded, indexed exactly by
the deadlines of its buckets, and touched outside the caller's bucket only by
the sweep.
-/
import KiteX402.RateLimit
import KiteX402.TokenBucket

namespace KiteX402

namespace Bucket

/-- The bucket with its time in seconds. -/
def toTokenBucket (bucket : Bucket) : TokenBucket ℚ :=
  ⟨bucket.tokens, Duration.asSecs bucket.lastRefill⟩

theorem toTokenBucket_fresh (config : RateLimiterConfig) (now : Instant) :
    (fresh config now).toTokenBucket = ⟨config.burst, Duration.asSecs now⟩ := rfl

variable (config : RateLimiterConfig) (clock : MonotonicClock)

theorem toTokenBucket_refill (bucket : Bucket) (now : Instant) :
    (bucket.refill config now).toTokenBucket =
      bucket.toTokenBucket.refill config.rps config.burst (Duration.asSecs now) := by
  have hle : bucket.lastRefill ≤ max now bucket.lastRefill := le_max_right _ _
  simp only [refill, toTokenBucket, TokenBucket.refill,
    Duration.asSecs_sub hle, Duration.asSecs_max]

theorem toTokenBucket_take (bucket : Bucket) :
    (bucket.take config).2.toTokenBucket = bucket.toTokenBucket.spend := by
  unfold take TokenBucket.spend
  by_cases h : 1 ≤ bucket.tokens
  · simp [h, toTokenBucket]
  · simp [h, toTokenBucket]

theorem toTokenBucket_serve (bucket : Bucket) (now : Instant) :
    (bucket.serve config clock now).2.toTokenBucket =
      (bucket.toTokenBucket.refill config.rps config.burst (Duration.asSecs now)).spend := by
  rw [← toTokenBucket_refill, ← toTokenBucket_take]
  rfl

theorem serve_expiresAt (bucket : Bucket) (now : Instant) :
    (bucket.serve config clock now).2.expiresAt =
      (bucket.serve config clock now).2.deadline config clock := by
  simp only [serve, deadline]

/-- A deadline is never earlier than the natural refill. -/
theorem fullBy_of_deadline {bucket : Bucket} {due : Instant}
    (hdue : bucket.deadline config clock = some due) :
    bucket.toTokenBucket.FullBy config.rps config.burst
      (Duration.asSecs due) := by
  obtain ⟨refill, hrefill, hadd⟩ := Option.bind_eq_some_iff.mp hdue
  have hsum := MonotonicClock.checkedAdd_eq_some hadd
  have hlast : bucket.lastRefill ≤ due := by
    rw [hsum]
    exact Nat.le_add_right _ _
  have hwait : refill ≤ due - bucket.lastRefill := by
    rw [hsum, Nat.add_sub_cancel_left]
    exact le_max_left _ _
  refine ⟨Duration.asSecs_le hlast, ?_⟩
  have hsecs : (config.burst - bucket.tokens) / config.rps ≤ Duration.asSecs refill := by
    rw [Duration.asSecs_tryFromSecs hrefill]
    exact Int.le_ceil _
  have helapsed : Duration.asSecs refill ≤
      Duration.asSecs due - Duration.asSecs bucket.lastRefill := by
    rw [← Duration.asSecs_sub hlast]
    exact Duration.asSecs_le hwait
  have hgain := (div_le_iff₀ config.rps_pos).mp (hsecs.trans helapsed)
  simp only [toTokenBucket]
  linarith

/-- The tokens stay within the burst, and the deadline is the bucket's own. -/
structure WellFormed (bucket : Bucket) : Prop where
  bounded : bucket.toTokenBucket.Bounded config.burst
  deadline : bucket.expiresAt = bucket.deadline config clock

theorem bounded_fresh (now : Instant) :
    (fresh config now).toTokenBucket.Bounded config.burst where
  nonneg := zero_le_one.trans config.one_le_burst
  le_burst := le_refl _

theorem wellFormed_serve {bucket : Bucket}
    (hbounded : bucket.toTokenBucket.Bounded config.burst) (now : Instant) :
    (bucket.serve config clock now).2.WellFormed config clock where
  bounded := by
    rw [toTokenBucket_serve]
    exact (hbounded.refill config.rps_pos.le _).spend
  deadline := serve_expiresAt config clock bucket now

end Bucket

section Invariant

variable (config : RateLimiterConfig) (clock : MonotonicClock)

structure LimiterInvariant (store : BucketStore) : Prop where
  size_le : store.size ≤ config.maxClients
  indexed : store.IndexedBy Bucket.expiresAt
  wellFormed : ∀ ip bucket, store.entries.lookup ip = some bucket →
    bucket.WellFormed config clock

namespace LimiterInvariant

variable {config clock} {store : BucketStore}

theorem initial : LimiterInvariant config clock ∅ where
  size_le := by simp [ExpiryStore.size]
  indexed := ExpiryStore.IndexedBy.empty _
  wellFormed ip bucket h := by simp at h

theorem sweep (hinv : LimiterInvariant config clock store) (now : Instant) :
    LimiterInvariant config clock (store.sweep now 64) where
  size_le := (ExpiryStore.size_sweep_le now 64 store).trans hinv.size_le
  indexed := hinv.indexed.sweep now 64
  wellFormed ip bucket h :=
    hinv.wellFormed ip bucket (ExpiryStore.lookup_of_lookup_sweep h)

theorem put (hinv : LimiterInvariant config clock store) {ip : IpAddr}
    {bucket : Bucket} {previous : Option Instant}
    (hroom : ip ∈ store.entries ∨ store.size < config.maxClients)
    (hprevious : previous = (store.entries.lookup ip).bind Bucket.expiresAt)
    (hbucket : bucket.WellFormed config clock) :
    LimiterInvariant config clock
      (store.put ip bucket previous bucket.expiresAt) where
  size_le := by
    rw [ExpiryStore.size, ExpiryStore.keys_put]
    rcases hroom with hmem | hroom
    · rw [Finset.insert_eq_of_mem (Finmap.mem_keys.mpr hmem)]
      exact hinv.size_le
    · exact (Finset.card_insert_le _ _).trans hroom
  indexed := hinv.indexed.put hprevious bucket
  wellFormed other bucket' h := by
    by_cases hother : other = ip
    · subst hother
      rw [ExpiryStore.lookup_put_self, Option.some_inj] at h
      exact h ▸ hbucket
    · rw [ExpiryStore.lookup_put_of_ne hother] at h
      exact hinv.wellFormed other bucket' h

theorem acquire (hinv : LimiterInvariant config clock store) (clientIp : IpAddr)
    (now : Instant) :
    LimiterInvariant config clock
      (KiteX402.acquire config clock store clientIp now).2 := by
  have hswept := hinv.sweep now
  rcases acquire_cases config clock store clientIp now with
    ⟨_, _, heq⟩ | ⟨hnot, hroom, heq⟩ | ⟨bucket, hbucket, heq⟩ <;> rw [heq]
  · exact hswept
  · have hserved := Bucket.wellFormed_serve config clock
      (Bucket.bounded_fresh config now) now
    have hnone : none = ((store.sweep now 64).entries.lookup
        (normalizeIp clientIp)).bind Bucket.expiresAt := by
      rw [Finmap.lookup_eq_none.mpr hnot]
      rfl
    exact hswept.put (Or.inr hroom) hnone hserved
  · have hserved := Bucket.wellFormed_serve config clock
      (hswept.wellFormed _ _ hbucket).bounded now
    refine hswept.put (Or.inl (Finmap.mem_of_lookup_eq_some hbucket)) ?_ hserved
    rw [hbucket]
    rfl

end LimiterInvariant

theorem limiterMachine_run_invariant (calls : List LimiterCall) :
    LimiterInvariant config clock
      ((limiterMachine config clock).run ∅ calls).1 :=
  (limiterMachine config clock).run_invariant LimiterInvariant.initial
    (fun _ call hinv => hinv.acquire call.clientIp call.now) calls

/-- A call touches no bucket but the caller's, except that its sweep removes
buckets whose deadline has come. -/
theorem lookup_acquire_of_ne (store : BucketStore) {clientIp other : IpAddr}
    (hother : other ≠ normalizeIp clientIp) (now : Instant) :
    (acquire config clock store clientIp now).2.entries.lookup other =
      (store.sweep now 64).entries.lookup other := by
  rcases acquire_cases config clock store clientIp now with
    ⟨_, _, heq⟩ | ⟨_, _, heq⟩ | ⟨_, _, heq⟩ <;> rw [heq]
  · exact ExpiryStore.lookup_put_of_ne hother _ _ _
  · exact ExpiryStore.lookup_put_of_ne hother _ _ _

/-- What one call does to the buckets of the clients it is not about: at most
64 of them, all due, are gone, and the others are as they were. -/
def SweepsOnly (store : BucketStore) (call : LimiterCall) : Prop :=
  ∃ removed : Finset IpAddr, removed.card ≤ 64 ∧
    ∀ other ≠ normalizeIp call.clientIp,
      if other ∈ removed then
        (∃ bucket due, store.entries.lookup other = some bucket ∧
          bucket.expiresAt = some due ∧ due ≤ call.now) ∧
        ((limiterMachine config clock).step store call).1.entries.lookup other =
          none
      else
        ((limiterMachine config clock).step store call).1.entries.lookup other =
          store.entries.lookup other

theorem sweepsOnly {store : BucketStore}
    (hinv : LimiterInvariant config clock store) (call : LimiterCall) :
    SweepsOnly config clock store call := by
  have hcard : ((store.swept call.now 64).image fun pair => (ofLex pair).2).card
      ≤ 64 :=
    Finset.card_image_le.trans (ExpiryStore.card_swept_le call.now 64 store)
  refine ⟨_, hcard, fun other hother => ?_⟩
  have hframe := lookup_acquire_of_ne config clock store hother call.now
  split
  next hremoved =>
    obtain ⟨pair, hpair, rfl⟩ := Finset.mem_image.mp hremoved
    have hmem := ExpiryStore.swept_subset call.now 64 store hpair
    obtain ⟨bucket, hbucket, hdue⟩ := (hinv.indexed _ _).mp hmem
    refine ⟨⟨bucket, (ofLex pair).1, hbucket, hdue,
      ExpiryStore.due_of_mem_swept pair hpair⟩, ?_⟩
    exact hframe.trans (ExpiryStore.lookup_sweep_of_mem_swept pair hpair)
  next hkept =>
    refine hframe.trans (ExpiryStore.lookup_sweep_of_notMem_swept ?_)
    intro pair hpair hkey
    exact hkept (Finset.mem_image.mpr ⟨pair, hpair, hkey⟩)

/-- The limiter's promise about its storage. -/
structure LimiterConsistent (store : BucketStore) : Prop where
  size_le : store.size ≤ config.maxClients
  indexed : ∀ due ip, toLex (due, ip) ∈ store.expirations ↔
    ∃ bucket, store.entries.lookup ip = some bucket ∧ bucket.expiresAt = some due
  record_unique : ∀ first second ip, toLex (first, ip) ∈ store.expirations →
    toLex (second, ip) ∈ store.expirations → first = second
  tokens : ∀ ip bucket, store.entries.lookup ip = some bucket →
    0 ≤ bucket.tokens ∧ bucket.tokens ≤ config.burst
  frame : ∀ call, SweepsOnly config clock store call

/-- After any sequence of calls, with any timestamps, the storage of the
limiter is consistent. -/
theorem limiterMachine_consistent (calls : List LimiterCall) :
    LimiterConsistent config clock
      ((limiterMachine config clock).run ∅ calls).1 := by
  have hinv := limiterMachine_run_invariant config clock calls
  exact {
    size_le := hinv.size_le
    indexed := hinv.indexed
    record_unique := fun _ _ _ hfirst hsecond =>
      hinv.indexed.unique hfirst hsecond
    tokens := fun ip bucket hbucket =>
      have hbounded := (hinv.wellFormed ip bucket hbucket).bounded
      ⟨hbounded.nonneg, hbounded.le_burst⟩
    frame := sweepsOnly config clock hinv }

end Invariant

end KiteX402
