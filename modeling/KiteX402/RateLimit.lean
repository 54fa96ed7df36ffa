/-
The per-client token buckets of the service, with `f64` read as exact rational
arithmetic.
-/
import KiteX402.Clock
import KiteX402.ExpiryStore
import KiteX402.Machine
import Mathlib.Control.Monad.Basic
import Mathlib.Data.Rat.Floor

namespace KiteX402

inductive IpAddr where
  | v4 (bits : BitVec 32)
  | v6 (bits : BitVec 128)
deriving Repr

namespace IpAddr

/-- The derived order: IPv4 before IPv6, each by its octets. -/
def rank : IpAddr → ℕ ×ₗ ℕ
  | .v4 bits => toLex (0, bits.toNat)
  | .v6 bits => toLex (1, bits.toNat)

theorem rank_injective : Function.Injective rank := by
  intro first second h
  cases first <;> cases second <;>
    simp only [rank, toLex_inj, Prod.mk.injEq] at h
  · rw [BitVec.eq_of_toNat_eq h.2]
  · omega
  · omega
  · rw [BitVec.eq_of_toNat_eq h.2]

instance : LinearOrder IpAddr := LinearOrder.lift' rank rank_injective

/-- `to_ipv4_mapped`: the addresses `::ffff:a.b.c.d`. -/
def toIpv4Mapped (bits : BitVec 128) : Option (BitVec 32) :=
  if bits.extractLsb' 32 96 = 0xffff#96 then some (bits.extractLsb' 0 32)
  else none

end IpAddr

def normalizeIp : IpAddr → IpAddr
  | .v6 bits => ((IpAddr.toIpv4Mapped bits).map .v4).getD (.v6 bits)
  | .v4 bits => .v4 bits

/-- A service without a positive rate runs no limiter, and it raises the burst
to one. -/
structure RateLimiterConfig where
  rps : ℚ
  burst : ℚ
  maxClients : ℕ
  idleTimeout : Duration
  rps_pos : 0 < rps
  one_le_burst : 1 ≤ burst

structure Bucket where
  tokens : ℚ
  lastRefill : Instant
  expiresAt : Option Instant
deriving DecidableEq

/-- `clients` is `entries`. -/
abbrev BucketStore := ExpiryStore Instant IpAddr Bucket

inductive RateLimitRejection where
  | quota (waitSecs : ℕ)
  | capacity
deriving Repr, DecidableEq

/-- The saturating cast of an `f64` to `u64`. -/
def asU64 (value : ℚ) : ℕ := min ⌊value⌋.toNat (2 ^ 64 - 1)

namespace Bucket

variable (config : RateLimiterConfig) (clock : MonotonicClock)

/-- The bucket of a client that has none. -/
def fresh (now : Instant) : Bucket := ⟨config.burst, now, none⟩

def refill (bucket : Bucket) (now : Instant) : Bucket :=
  let now := max now bucket.lastRefill
  let elapsed := Duration.asSecs (now - bucket.lastRefill)
  { bucket with
    tokens := min (elapsed * config.rps + bucket.tokens) config.burst
    lastRefill := now }

def take (bucket : Bucket) : Except RateLimitRejection ℕ × Bucket :=
  if 1 ≤ bucket.tokens then
    let tokens := bucket.tokens - 1
    (.ok (asU64 tokens), { bucket with tokens := tokens })
  else
    let needed := 1 - bucket.tokens
    let waitSecs := asU64 ⌈needed / config.rps⌉
    (.error (.quota (max waitSecs 1)), bucket)

/-- When the bucket may be forgotten: not before it is full again, nor before
the idle timeout.  `none` is a deadline that is not representable. -/
def deadline (bucket : Bucket) : Option Instant :=
  (Duration.tryFromSecs ⌈(config.burst - bucket.tokens) / config.rps⌉).bind
    fun refill => clock.checkedAdd bucket.lastRefill (max refill config.idleTimeout)

/-- One call on a bucket: refill, take, and a new deadline. -/
def serve (bucket : Bucket) (now : Instant) :
    Except RateLimitRejection ℕ × Bucket :=
  let (result, served) := (bucket.refill config now).take config
  (result, { served with expiresAt := served.deadline config clock })

end Bucket

section Acquire

variable (config : RateLimiterConfig) (clock : MonotonicClock)

def acquire (store : BucketStore) (clientIp : IpAddr) (now : Instant) :
    Except RateLimitRejection ℕ × BucketStore :=
  let clientIp := normalizeIp clientIp
  let store := store.sweep now 64
  if clientIp ∉ store.entries ∧ config.maxClients ≤ store.size then
    (.error .capacity, store)
  else
    let bucket := (store.entries.lookup clientIp).getD (Bucket.fresh config now)
    let (result, served) := bucket.serve config clock now
    (result, store.put clientIp served bucket.expiresAt served.expiresAt)

/-- What a call can do after its sweep: find no room, serve a new bucket, or
serve the bucket the client has. -/
theorem acquire_cases (store : BucketStore) (clientIp : IpAddr) (now : Instant) :
    (normalizeIp clientIp ∉ (store.sweep now 64).entries ∧
      config.maxClients ≤ (store.sweep now 64).size ∧
      acquire config clock store clientIp now =
        (.error .capacity, store.sweep now 64)) ∨
    (normalizeIp clientIp ∉ (store.sweep now 64).entries ∧
      (store.sweep now 64).size < config.maxClients ∧
      acquire config clock store clientIp now =
        (((Bucket.fresh config now).serve config clock now).1,
          (store.sweep now 64).put (normalizeIp clientIp)
            ((Bucket.fresh config now).serve config clock now).2 none
            ((Bucket.fresh config now).serve config clock now).2.expiresAt)) ∨
    (∃ bucket, (store.sweep now 64).entries.lookup (normalizeIp clientIp) =
        some bucket ∧
      acquire config clock store clientIp now =
        ((bucket.serve config clock now).1,
          (store.sweep now 64).put (normalizeIp clientIp)
            (bucket.serve config clock now).2 bucket.expiresAt
            (bucket.serve config clock now).2.expiresAt)) := by
  cases hlookup : (store.sweep now 64).entries.lookup (normalizeIp clientIp) with
  | none =>
      have hnot : normalizeIp clientIp ∉ (store.sweep now 64).entries :=
        Finmap.lookup_eq_none.mp hlookup
      by_cases hfull : config.maxClients ≤ (store.sweep now 64).size
      · exact Or.inl ⟨hnot, hfull, by simp [acquire, hnot, hfull]⟩
      · exact Or.inr (Or.inl ⟨hnot, not_le.mp hfull, by
          simp [acquire, hfull, hlookup, Bucket.fresh]⟩)
  | some bucket =>
      have hmem : normalizeIp clientIp ∈ (store.sweep now 64).entries :=
        Finmap.mem_of_lookup_eq_some hlookup
      exact Or.inr (Or.inr ⟨bucket, rfl, by simp [acquire, hmem, hlookup]⟩)

end Acquire

/-- One call of `acquire`, at the timestamp taken before the lock. -/
structure LimiterCall where
  clientIp : IpAddr
  now : Instant
deriving DecidableEq

structure LimiterEvent where
  call : LimiterCall
  result : Except RateLimitRejection ℕ
deriving DecidableEq

/-- The limiter under calls in lock order. -/
def limiterMachine (config : RateLimiterConfig) (clock : MonotonicClock) :
    Machine BucketStore LimiterCall LimiterEvent where
  step store call :=
    let acquired := acquire config clock store call.clientIp call.now
    (acquired.2, [⟨call, acquired.1⟩])

end KiteX402
