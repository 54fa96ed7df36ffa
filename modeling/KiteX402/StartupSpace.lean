/-
White space in the environment makes no difference to a start.
-/
import KiteX402.Startup

namespace KiteX402

open EnvSetting Setting

variable {A : Type}

theorem trim_trim (text : List Char) : trim (trim text) = trim text := by
  have hprefix : trim text <+: text.dropWhile isWhitespace := List.rdropWhile_prefix _ _
  have hleft : (trim text).dropWhile isWhitespace = trim text := by
    rw [List.dropWhile_eq_self_iff]
    intro hpos hwhite
    have hhead := List.head?_dropWhile_not isWhitespace text
    obtain ⟨rest, hrest⟩ := hprefix
    rw [← hrest] at hhead
    cases htrim : trim text with
    | nil => simp [htrim] at hpos
    | cons c tail => simp_all
  rw [trim, hleft]
  exact List.rdropWhile_idempotent _ _

/-- A value without the white space around it; without anything else it is unset. -/
def EnvValue.normalize : EnvValue → EnvValue
  | .text value =>
      if trim value.toList = [] then .unset else .text (String.ofList (trim value.toList))
  | value => value

/-- All values but the address that is paid and the upstream. -/
def normalizeEnv (env : String → EnvValue) (key : String) : EnvValue :=
  if key = "PAY_TO" ∨ key = "UPSTREAM_URL" then env key else (env key).normalize

theorem normalizeEnv_of_ne {key : String} (hkey : key ≠ "PAY_TO" ∧ key ≠ "UPSTREAM_URL")
    (env : String → EnvValue) : normalizeEnv env key = (env key).normalize :=
  if_neg (not_or.mpr hkey)

theorem ignores_refuse (text : String) : Ignores normalizeEnv (refuse text : EnvSetting A) :=
  fun _ => rfl

theorem ignores_expect (reason : String) (result : Except String A) :
    Ignores normalizeEnv (expect reason result) := by
  cases result with
  | ok value => exact .pure value
  | error debug => exact ignores_refuse _

theorem ignores_expectVar {key : String} (reason : String)
    (hkey : key = "PAY_TO" ∨ key = "UPSTREAM_URL") :
    Ignores normalizeEnv (expectVar key reason) := by
  intro env
  simp only [expectVar, ReaderT.run, normalizeEnv, if_pos hkey]

theorem ignores_envOr {key : String} (fallback : String)
    (hkey : key ≠ "PAY_TO" ∧ key ≠ "UPSTREAM_URL") :
    Ignores normalizeEnv (envOr key fallback) := by
  intro env
  simp only [envOr, ReaderT.run, normalizeEnv_of_ne hkey]
  cases env key with
  | text value =>
      by_cases hblank : trim value.toList = []
      · simp [EnvValue.normalize, hblank]
      · simp [EnvValue.normalize, hblank, trim_trim]
  | _ => rfl

theorem ignores_rateOf (float : FloatText) (name text : String) :
    Ignores normalizeEnv (rateOf float name text) := by
  unfold rateOf
  split
  · split
    · exact .pure _
    · exact ignores_refuse _
  · exact ignores_refuse _
  · exact ignores_refuse _

theorem NumberVar.ignores_parse (number : NumberVar)
    (hkey : number.name ≠ "PAY_TO" ∧ number.name ≠ "UPSTREAM_URL") :
    Ignores normalizeEnv number.parse :=
  (ignores_envOr _ hkey).bind fun _ => ignores_expect _ _

theorem BoundedVar.ignores_check (number : BoundedVar) (value : ℕ) :
    Ignores normalizeEnv (number.check value) := by
  unfold check
  split
  · exact .pure _
  · exact ignores_refuse _

theorem BoundedVar.ignores_read (number : BoundedVar)
    (hkey : number.name ≠ "PAY_TO" ∧ number.name ≠ "UPSTREAM_URL") :
    Ignores normalizeEnv number.read :=
  (number.ignores_parse hkey).bind number.ignores_check

theorem ignores_readLimiter (float : FloatText) :
    Ignores normalizeEnv (readLimiter float) := by
  refine .bind ((ignores_envOr _ (by decide)).bind fun _ => ignores_rateOf float _ _) fun rps => ?_
  refine .bind ((ignores_envOr _ (by decide)).bind fun _ => ignores_rateOf float _ _)
    fun burst => ?_
  refine .bind ((ignores_envOr _ (by decide)).bind fun text => ?_) fun proxies => ?_
  · split
    · exact .pure _
    · exact ignores_refuse _
  refine .bind (maxClientsVar.ignores_read (by decide)) fun maxClients => ?_
  refine .bind (idleTimeoutSecsVar.ignores_read (by decide)) fun idle => ?_
  exact .pure _

theorem ignores_readChain (debug : String → String) : Ignores normalizeEnv (readChain debug) := by
  refine .bind (ignores_envOr _ (by decide)) fun name => ?_
  split
  · exact .pure _
  · exact ignores_refuse _

theorem ignores_readRetries : Ignores normalizeEnv readRetries := by
  refine .bind (settleRetriesVar.ignores_parse (by decide)) fun retries => ?_
  refine .bind (verifyBackoffMsVar.ignores_read (by decide)) fun backoff => ?_
  refine .bind ?_ fun _ => ?_
  · unfold refuseSettleRetries
    split
    · exact .pure _
    · exact ignores_refuse _
  refine .bind (verifyRetriesVar.ignores_read (by decide)) fun retries => ?_
  exact .pure _

/-- A variable whose white space is taken away, and whose absence counts as a blank
value. -/
theorem ignores_var {key : String} (hkey : key ≠ "PAY_TO" ∧ key ≠ "UPSTREAM_URL")
    {next : Option String → EnvSetting A} (hnext : ∀ value, Ignores normalizeEnv (next value))
    (hblank : ∀ value, trim value.toList = [] → next (some value) = next none)
    (htrim : ∀ value, next (some (String.ofList (trim value.toList))) = next (some value)) :
    Ignores normalizeEnv (var key >>= next) := by
  intro env
  have hrun : ∀ env' : String → EnvValue, (var key >>= next).run env' =
      (next (match env' key with
        | .text value => some value
        | _ => none)).run env' := fun _ => rfl
  rw [hrun, hrun, hnext, normalizeEnv_of_ne hkey]
  cases env key with
  | text value =>
      by_cases hempty : trim value.toList = []
      · simp [EnvValue.normalize, hempty, hblank value hempty]
      · simp [EnvValue.normalize, hempty, htrim value]
  | _ => rfl

theorem ignores_readExpirationGuard : Ignores normalizeEnv readExpirationGuard := by
  refine ignores_var (by decide) (fun _ => .pure _) (fun value hblank => ?_) fun value => ?_
  · simp [hblank, parseU64]
  · simp [trim_trim]

theorem ignores_readSecurity : Ignores normalizeEnv readSecurity := by
  refine ignores_var (by decide) (fun flag => ?_) (fun value hblank => ?_) fun value => ?_
  · exact (ignores_envOr _ (by decide)).bind fun _ => (ignores_envOr _ (by decide)).bind
      fun _ => .pure _
  · have hempty : toAsciiLowercase (String.ofList []) ≠ "false" := by decide +kernel
    simp [hblank, hempty]
  · simp [trim_trim]

theorem ignores_readNonceGuard : Ignores normalizeEnv readNonceGuard := by
  refine .bind (fun env => ?_) fun text => ?_
  · have hkey : normalizeEnv env replayCacheSizeVar.name =
        (env replayCacheSizeVar.name).normalize := normalizeEnv_of_ne (by decide) env
    simp only [readNonceGuard.readText, ReaderT.run, hkey]
    cases env replayCacheSizeVar.name with
    | text value =>
        by_cases hblank : trim value.toList = []
        · simp [EnvValue.normalize, hblank]
        · simp [EnvValue.normalize, hblank, trim_trim]
    | _ => rfl
  · cases text with
    | none => exact .pure _
    | some text =>
        exact (ignores_expect _ _).bind fun _ => (replayCacheSizeVar.ignores_check _).bind
          fun _ => .pure _

/-- White space around a value changes nothing about a start, nor does a blank value
in place of none, but for the address that is paid and the upstream. -/
theorem startup_ignores_space (float : FloatText) (debug : String → String)
    (env : String → EnvValue) :
    (startup float debug).run (normalizeEnv env) = (startup float debug).run env := by
  have hignores : Ignores normalizeEnv (startup float debug) := by
    refine .bind (portVar.ignores_parse (by decide)) fun port => ?_
    refine .bind (ignores_expectVar _ (Or.inl rfl)) fun payTo => ?_
    refine .bind (ignores_expectVar _ (Or.inr rfl)) fun upstreamUrl => ?_
    refine .bind (ignores_envOr _ (by decide)) fun priceUsd => ?_
    refine .bind (ignores_readChain debug) fun chain => ?_
    refine .bind (ignores_envOr _ (by decide)) fun facilitatorUrl => ?_
    refine .bind (ignores_envOr _ (by decide)) fun description => ?_
    refine .bind (ignores_envOr _ (by decide)) fun authHeader => ?_
    refine .bind (ignores_envOr _ (by decide)) fun authValue => ?_
    refine .bind (ignores_readLimiter float) fun limiter => ?_
    refine .bind (upstreamTimeoutMsVar.ignores_read (by decide)) fun upstreamTimeoutMs => ?_
    refine .bind (facilitatorTimeoutMsVar.ignores_read (by decide)) fun timeoutMs => ?_
    refine .bind (maxConcurrentVar.ignores_read (by decide)) fun maxConcurrent => ?_
    refine .bind ignores_readRetries fun retryConfig => ?_
    refine .bind (ignores_envOr _ (by decide)) fun corsOrigin => ?_
    refine .bind ignores_readExpirationGuard fun expirationGuard => ?_
    refine .bind ignores_readNonceGuard fun nonceGuard => ?_
    refine .bind ignores_readSecurity fun security => ?_
    exact .pure _
  exact hignores env

end KiteX402
