/-
What the environment decides about a start: a service within its bounds, or one
variable that is to blame.
-/
import KiteX402.Startup

namespace KiteX402

open EnvSetting Setting

section Refusals

variable {A S : Type} {R : S → (String → EnvValue) → Prop} {key : String}

theorem Mentions.append {text : String} (h : Mentions text key) (rest : String) :
    Mentions (text ++ rest) key := by
  obtain ⟨before, after, rfl⟩ := h
  exact ⟨before, after ++ rest, by simp [String.append_assoc]⟩

theorem accepts_var (key : String) : Accepts (var key) := fun _ _ h => by contradiction

theorem accepts_envOr (key fallback : String) : Accepts (envOr key fallback) :=
  fun _ _ h => by contradiction

theorem reads_envOr (key fallback : String) : Reads key (envOr key fallback) := by
  intro env env' hsame
  simp [envOr, ReaderT.run, hsame]

/-- A variable is set, or its default counts. -/
theorem envOr_cases (key : String) (env : String → EnvValue) :
    (∃ value, ∀ fallback, (envOr key fallback).run env = .ok value) ∨
      ∀ fallback, (envOr key fallback).run env = .ok fallback := by
  cases hvalue : env key with
  | text value =>
      by_cases hblank : trim value.toList = []
      · exact Or.inr fun fallback => by simp [envOr, ReaderT.run, hvalue, hblank]
      · exact Or.inl ⟨String.ofList (trim value.toList), fun fallback => by
          simp [envOr, ReaderT.run, hvalue, hblank]⟩
  | _ => exact Or.inr fun fallback => by simp [envOr, ReaderT.run, hvalue]

theorem reads_refuse (text : String) : Reads key (refuse text : EnvSetting A) := fun _ _ _ => rfl

theorem tells_refuse {text : String} (h : Mentions text key) :
    Tells Mentions key (refuse text : EnvSetting A) := by
  intro env text' h'
  rwa [← Except.error.inj h']

theorem reads_expect (reason : String) (result : Except String A) :
    Reads key (expect reason result) := by
  cases result with
  | ok value => exact .pure value
  | error debug => exact reads_refuse _

theorem tells_expect {reason : String} (h : Mentions reason key) (result : Except String A) :
    Tells Mentions key (expect reason result) := by
  cases result with
  | ok value => exact (Accepts.pure value).tells
  | error debug => exact tells_refuse ((h.append ": ").append debug)

theorem reads_expectVar (key reason : String) : Reads key (expectVar key reason) := by
  intro env env' hsame
  simp only [expectVar, ReaderT.run, hsame]

theorem tells_expectVar {reason : String} (h : Mentions reason key) :
    Tells Mentions key (expectVar key reason) := by
  intro env text herror
  simp only [expectVar, ReaderT.run] at herror
  split at herror
  · contradiction
  · rw [← Except.error.inj herror]
    exact h.append ": NotPresent"
  next debug _ =>
    rw [← Except.error.inj herror]
    exact ((h.append ": NotUnicode(").append debug).append ")"

namespace NumberVar

variable (number : NumberVar)

theorem reads_parse : Reads number.name number.parse :=
  (reads_envOr _ _).bind fun _ => reads_expect _ _

theorem tells_parse : Tells Mentions number.name number.parse :=
  (accepts_envOr _ _).tells.bind fun _ => tells_expect number.unread_mentions _

theorem blames_parse : Blames R Mentions fun _ : S => number.parse :=
  number.reads_parse.blames number.tells_parse

end NumberVar

namespace BoundedVar

variable (number : BoundedVar)

theorem reads_check (value : ℕ) : Reads key (number.check value) := by
  unfold check
  split
  · exact .pure _
  · exact reads_refuse _

theorem tells_check (value : ℕ) : Tells Mentions number.name (number.check value) := by
  unfold check
  split
  · exact (Accepts.pure _).tells
  · exact tells_refuse number.unfit_mentions

theorem blames_read : Blames R Mentions fun _ : S => number.read :=
  Reads.blames (number.reads_parse.bind number.reads_check)
    (number.tells_parse.bind number.tells_check)

end BoundedVar

section Rates

variable (float : FloatText)

theorem reads_rateOf (name text : String) : Reads key (rateOf float name text) := by
  unfold rateOf
  split
  · split
    · exact .pure _
    · exact reads_refuse _
  · exact reads_refuse _
  · exact reads_refuse _

theorem tells_rateOf (name text : String) : Tells Mentions name (rateOf float name text) := by
  have hunfit : Mentions s!"{name} must be a finite non-negative number" name :=
    ⟨"", " must be a finite non-negative number", by simp [toString]⟩
  unfold rateOf
  split
  · split
    · exact (Accepts.pure _).tells
    · exact tells_refuse hunfit
  · exact tells_refuse hunfit
  next debug _ =>
    exact tells_refuse ⟨"", " must be a number: " ++ debug, by simp [toString, String.append_assoc]⟩

theorem blames_readRate (name fallback : String) :
    Blames R Mentions fun _ : S => readRate float name fallback :=
  Reads.blames ((reads_envOr _ _).bind fun _ => reads_rateOf float name _)
    ((accepts_envOr _ _).tells.bind fun _ => tells_rateOf float name _)

theorem rateOf_print (name : String) (rate : Rate float) (env : String → EnvValue) :
    ∃ other, (rateOf float name (float.print rate.value)).run env = .ok other := by
  unfold rateOf
  split
  next value hvalue =>
    have hsame : rate.value = value :=
      F64.finite.inj (Except.ok.inj (rate.parse_print.symm.trans hvalue))
    rw [dif_pos (hsame ▸ rate.nonneg)]
    exact ⟨_, rfl⟩
  next other hother hvalue =>
    rw [rate.parse_print] at hvalue
    exact absurd (Except.ok.inj hvalue).symm (hother rate.value)
  next debug hvalue =>
    rw [rate.parse_print] at hvalue
    contradiction

/-- A rate as its own default is never to blame: where it is refused it has been
set. -/
theorem blames_readBurst (name : String) (earlier : S → Rate float) :
    Blames R Mentions fun s => readRate float name (float.print (earlier s).value) := by
  intro s env text _ herror
  rcases bind_eq_error.mp herror with hfirst | ⟨word, hword, hlast⟩
  · exact absurd hfirst (accepts_envOr name _ env text)
  · have hset : ∀ rate : Rate float, (envOr name (float.print rate.value)).run env = .ok word := by
      intro rate
      rcases envOr_cases name env with ⟨value, hvalue⟩ | hblank
      · rw [hvalue, ← hvalue (float.print (earlier s).value), hword]
      · rw [hblank] at hword
        obtain ⟨other, hother⟩ := rateOf_print float name (earlier s) env
        rw [Except.ok.inj hword, hlast] at hother
        contradiction
    refine ⟨name, tells_rateOf float name word env text hlast, fun s' env' _ hsame rate hok => ?_⟩
    obtain ⟨word', hword', hrate⟩ := bind_eq_ok.mp hok
    rw [reads_envOr name _ env env' hsame, hset (earlier s')] at hword'
    have hrun : (rateOf float name word').run env' = (rateOf float name word').run env :=
      (reads_rateOf float name word' : Reads name _) env env' hsame
    rw [hrun, ← Except.ok.inj hword', hlast] at hrate
    contradiction

end Rates

theorem mentions_proxies {value text : String} (h : TrustedProxies.parse value = .error text) :
    Mentions text "RATE_LIMIT_TRUSTED_PROXIES" := by
  unfold TrustedProxies.parse at h
  split at h
  · contradiction
  · split at h
    · contradiction
    · rw [← Except.error.inj h]
      exact ⟨"", " must contain comma-separated IP addresses or CIDRs", rfl⟩

theorem blames_readProxies : Blames R Mentions fun _ : S => readLimiter.readProxies := by
  refine Reads.blames ((reads_envOr _ _).bind fun text => ?_)
    ((accepts_envOr _ _).tells.bind fun text => ?_)
  · split
    · exact .pure _
    · exact reads_refuse _
  · split
    · exact (Accepts.pure _).tells
    next message hmessage => exact tells_refuse (mentions_proxies hmessage)

theorem blames_readLimiter (float : FloatText) :
    Blames R Mentions fun _ : S => readLimiter float := by
  refine .bind (blames_readRate float _ _) ?_
  refine .bind (blames_readBurst float _ Prod.snd) ?_
  refine .bind blames_readProxies ?_
  refine .bind maxClientsVar.blames_read ?_
  refine .bind idleTimeoutSecsVar.blames_read ?_
  exact Accepts.blames fun _ => .pure _

theorem blames_readChain (debug : String → String) :
    Blames R Mentions fun _ : S => readChain debug := by
  refine Reads.blames ((reads_envOr _ _).bind fun name => ?_)
    ((accepts_envOr _ _).tells.bind fun name => ?_)
  · split
    · exact .pure _
    · exact reads_refuse _
  · split
    · exact (Accepts.pure _).tells
    next other _ =>
      have hname : Mentions "invalid KITE_NETWORK=" "KITE_NETWORK" := ⟨"invalid ", "=", rfl⟩
      exact tells_refuse (((hname.append _).append _).append _)

theorem blames_readRetries : Blames R Mentions fun _ : S => readRetries := by
  refine .bind settleRetriesVar.blames_parse ?_
  refine .bind verifyBackoffMsVar.blames_read ?_
  refine .bind ?_ ?_
  · refine settleRetriesVar.reads_parse.blames_again refuseSettleRetries (fun retries => ?_)
      (fun retries => ?_) (fun s : (S × ℕ) × verifyBackoffMsVar.Value => s.1.2)
      fun s env hs => hs.1.2
    · unfold refuseSettleRetries
      split
      · exact .pure _
      · exact reads_refuse _
    · unfold refuseSettleRetries
      split
      · exact (Accepts.pure _).tells
      · have hname : Mentions
            "assertion `left == right` failed: FACILITATOR_SETTLE_RETRIES must be 0; "
            settleRetriesVar.name := ⟨"assertion `left == right` failed: ", " must be 0; ", rfl⟩
        exact tells_refuse ((hname.append _).append _)
  refine .bind verifyRetriesVar.blames_read ?_
  exact Accepts.blames fun _ => .pure _

theorem blames_readExpirationGuard : Blames R Mentions fun _ : S => readExpirationGuard :=
  Accepts.blames fun _ => (accepts_var _).bind fun _ => .pure _

theorem blames_readSecurity : Blames R Mentions fun _ : S => readSecurity :=
  Accepts.blames fun _ => (accepts_var _).bind fun _ => (accepts_envOr _ _).bind fun _ =>
    (accepts_envOr _ _).bind fun _ => .pure _

theorem blames_readNonceGuard : Blames R Mentions fun _ : S => readNonceGuard := by
  have hreads : Reads replayCacheSizeVar.name readNonceGuard.readText := by
    intro env env' hsame
    simp only [readNonceGuard.readText, ReaderT.run, hsame]
  have htells : Tells Mentions replayCacheSizeVar.name readNonceGuard.readText := by
    intro env text herror
    simp only [readNonceGuard.readText, ReaderT.run] at herror
    split at herror
    · contradiction
    · rw [← Except.error.inj herror]
      exact replayCacheSizeVar.unfit_mentions
    · contradiction
  refine Reads.blames (hreads.bind fun text => ?_) (htells.bind fun text => ?_)
  · cases text with
    | none => exact .pure _
    | some text =>
        exact (reads_expect _ _).bind fun value =>
          (replayCacheSizeVar.reads_check value).bind fun capacity => .pure _
  · cases text with
    | none => exact (Accepts.pure _).tells
    | some text =>
        exact (tells_expect replayCacheSizeVar.unread_mentions _).bind fun value =>
          (replayCacheSizeVar.tells_check value).bind fun capacity => (Accepts.pure _).tells

theorem blames_startup (float : FloatText) (debug : String → String) :
    Blames R Mentions fun _ : S => startup float debug := by
  refine .bind portVar.blames_parse ?_
  refine .bind ((reads_expectVar _ _).blames (tells_expectVar
    ⟨"", " is required (the wallet that receives payment)", rfl⟩)) ?_
  refine .bind ((reads_expectVar _ _).blames (tells_expectVar
    ⟨"", " is required (the API being wrapped)", rfl⟩)) ?_
  refine .bind (Accepts.blames fun _ => accepts_envOr _ _) ?_
  refine .bind (blames_readChain debug) ?_
  refine .bind (Accepts.blames fun _ => accepts_envOr _ _) ?_
  refine .bind (Accepts.blames fun _ => accepts_envOr _ _) ?_
  refine .bind (Accepts.blames fun _ => accepts_envOr _ _) ?_
  refine .bind (Accepts.blames fun _ => accepts_envOr _ _) ?_
  refine .bind (blames_readLimiter float) ?_
  refine .bind upstreamTimeoutMsVar.blames_read ?_
  refine .bind facilitatorTimeoutMsVar.blames_read ?_
  refine .bind maxConcurrentVar.blames_read ?_
  refine .bind blames_readRetries ?_
  refine .bind (Accepts.blames fun _ => accepts_envOr _ _) ?_
  refine .bind blames_readExpirationGuard ?_
  refine .bind blames_readNonceGuard ?_
  refine .bind blames_readSecurity ?_
  exact Accepts.blames fun _ => .pure _

end Refusals

section Bounds

theorem yields_readLimiter (float : FloatText) :
    Yields (fun limiter => ∀ layer, limiter = some layer →
      1 ≤ layer.config.maxClients ∧ layer.config.maxClients ≤ 1000000 ∧
      Duration.fromSecs 1 ≤ layer.config.idleTimeout ∧
      layer.config.idleTimeout ≤ Duration.fromSecs 86400) (readLimiter float) := by
  refine (Yields.true _).bind fun rps _ => (Yields.true _).bind fun burst _ =>
    (Yields.true _).bind fun proxies _ => (Yields.true _).bind fun maxClients _ =>
      (Yields.true _).bind fun idle _ => .pure fun layer hlayer => ?_
  split at hlayer
  · rw [← Option.some.inj hlayer]
    exact ⟨maxClients.property.1, maxClients.property.2,
      Nat.mul_le_mul_right _ idle.property.1, Nat.mul_le_mul_right _ idle.property.2⟩
  · contradiction

theorem yields_readRetries :
    Yields (fun config => config.maxRetries ≤ 5 ∧ 1000000 ≤ config.initialBackoff ∧
      config.initialBackoff ≤ Duration.fromSecs 3 ∧
      config.maxBackoff = Duration.fromSecs 3) readRetries := by
  refine (Yields.true _).bind fun settle _ => (Yields.true _).bind fun backoff _ =>
    (Yields.true _).bind fun _ _ => (Yields.true _).bind fun retries _ => .pure ?_
  have hretries : retries.val ≤ 5 := retries.property.2
  have hlow : 1 ≤ backoff.val := backoff.property.1
  have hhigh : backoff.val ≤ 3000 := backoff.property.2
  refine ⟨?_, Nat.mul_le_mul_right 1000000 hlow, ?_, rfl⟩
  · rw [UInt32.le_iff_toNat_le]
    have htoNat : (UInt32.ofNat retries.val).toNat = retries.val :=
      UInt32.toNat_ofNat_of_lt' (hretries.trans_lt (by decide))
    exact htoNat.trans_le hretries
  · exact (Nat.mul_le_mul_right 1000000 hhigh).trans (by decide)

theorem yields_readNonceGuard :
    Yields (fun guard => ∀ replay, guard = some replay → replay.maxCapacity ≤ 1000000 ∧
      replay.ttl = Duration.fromSecs 3600) readNonceGuard := by
  refine (Yields.true _).bind fun text _ => ?_
  cases text with
  | none => exact .pure fun replay hreplay => by contradiction
  | some text =>
      refine (Yields.true _).bind fun value _ => (Yields.true _).bind fun capacity _ =>
        .pure fun replay hreplay => ?_
      rw [← Option.some.inj hreplay]
      exact ⟨max_le capacity.property.2 (by decide), rfl⟩

/-- The bounds of a service that has started, as far as its values do not already
carry them. -/
structure ServiceConfig.Bounded (cfg : ServiceConfig) : Prop where
  limiter : ∀ layer, cfg.limiter = some layer →
    1 ≤ layer.config.maxClients ∧ layer.config.maxClients ≤ 1000000 ∧
    Duration.fromSecs 1 ≤ layer.config.idleTimeout ∧
    layer.config.idleTimeout ≤ Duration.fromSecs 86400
  retries : cfg.facilitator.retryConfig.maxRetries ≤ 5
  initialBackoff : 1000000 ≤ cfg.facilitator.retryConfig.initialBackoff ∧
    cfg.facilitator.retryConfig.initialBackoff ≤ Duration.fromSecs 3
  maxBackoff : cfg.facilitator.retryConfig.maxBackoff = Duration.fromSecs 3
  nonceGuard : ∀ replay, cfg.payment.nonceGuard = some replay →
    replay.maxCapacity ≤ 1000000 ∧ replay.ttl = Duration.fromSecs 3600

theorem yields_startup (float : FloatText) (debug : String → String) :
    Yields ServiceConfig.Bounded (startup float debug) := by
  refine (Yields.true _).bind fun port _ => (Yields.true _).bind fun payTo _ =>
    (Yields.true _).bind fun upstreamUrl _ => (Yields.true _).bind fun priceUsd _ =>
    (Yields.true _).bind fun chain _ => (Yields.true _).bind fun facilitatorUrl _ =>
    (Yields.true _).bind fun description _ => (Yields.true _).bind fun authHeader _ =>
    (Yields.true _).bind fun authValue _ =>
    (yields_readLimiter float).bind fun limiter hlimiter =>
    (Yields.true _).bind fun upstreamTimeoutMs _ =>
    (Yields.true _).bind fun facilitatorTimeoutMs _ =>
    (Yields.true _).bind fun maxConcurrent _ =>
    yields_readRetries.bind fun retryConfig hretries => (Yields.true _).bind fun corsOrigin _ =>
    (Yields.true _).bind fun expirationGuard _ =>
    yields_readNonceGuard.bind fun nonceGuard hguard => (Yields.true _).bind fun security _ =>
    .pure ?_
  obtain ⟨hmax, hlow, hhigh, hbackoff⟩ := hretries
  exact ⟨hlimiter, hmax, ⟨hlow, hhigh⟩, hbackoff, hguard⟩

end Bounds

/-- A start either gives a service within its bounds or is refused with a text that
names a variable, and then no other value of any other variable avoids it. -/
theorem startup_decided (float : FloatText) (debug : String → String)
    (env : String → EnvValue) :
    (∃ cfg, (startup float debug).run env = .ok cfg ∧ cfg.Bounded) ∨
    ∃ text name, (startup float debug).run env = .error text ∧ Mentions text name ∧
      ∀ env', env' name = env name → ∀ cfg, (startup float debug).run env' ≠ .ok cfg := by
  cases hrun : (startup float debug).run env with
  | ok cfg => exact Or.inl ⟨cfg, rfl, yields_startup float debug env cfg hrun⟩
  | error text =>
      have hblames : Blames (fun _ _ => True) Mentions fun _ : Unit => startup float debug :=
        blames_startup float debug
      obtain ⟨name, hname, hblame⟩ := hblames () env text trivial hrun
      exact Or.inr ⟨text, name, rfl, hname, fun env' hsame => hblame () env' trivial hsame⟩

end KiteX402
