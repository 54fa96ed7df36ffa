/-
The IP firewall while rules are added to it: its verdicts are those of the policy
that the rules so far make.
-/
import KiteX402.AccessPolicy
import KiteX402.Firewall
import KiteX402.Machine

namespace KiteX402

inductive IpFilterAction where
  | allow
  | deny
deriving DecidableEq

structure IpFirewallConfig where
  defaultAction : IpFilterAction
  allowRules : List FirewallRule
  denyRules : List FirewallRule

namespace FirewallRule

/-- The prefix is one that `subnet_v4` makes. -/
def Fits : FirewallRule → Prop
  | .exact _ => True
  | .subnet _ prefixLen => prefixLen ≤ 32

def addresses (rule : FirewallRule) : Set IpAddr := {ip | rule.matchesIp ip = some true}

theorem fits_subnetV4 (network : BitVec 32) (prefixLen : ℕ) : (subnetV4 network prefixLen).Fits :=
  min_le_right _ _

theorem Fits.matchesIp_ne_none {rule : FirewallRule} (hfits : rule.Fits) (ip : IpAddr) :
    rule.matchesIp ip ≠ none := by
  cases rule with
  | exact own => exact Option.some_ne_none _
  | subnet network prefixLen =>
      have hle : prefixLen ≤ 32 := hfits
      cases ip with
      | v4 client =>
          simp only [matchesIp, if_pos hle]
          split <;> exact Option.some_ne_none _
      | v6 client => exact Option.some_ne_none _

/-- A loop over rules ends at the first one that matches; `none` is an overflow on
the way there. -/
def anyMatches (ip : IpAddr) : List FirewallRule → Option Bool
  | [] => some false
  | rule :: rest =>
      match rule.matchesIp ip with
      | none => none
      | some true => some true
      | some false => anyMatches ip rest

theorem mem_of_anyMatches {ip : IpAddr} {rules : List FirewallRule} {found : Bool}
    (h : anyMatches ip rules = some found) :
    found = true ↔ ∃ rule ∈ rules, ip ∈ rule.addresses := by
  induction rules with
  | nil =>
      obtain rfl : false = found := Option.some.inj h
      simp
  | cons rule rest ih =>
      simp only [List.mem_cons, exists_eq_or_imp]
      unfold anyMatches at h
      cases hrule : rule.matchesIp ip with
      | none =>
          rw [hrule] at h
          contradiction
      | some own =>
          rw [hrule] at h
          cases own with
          | true =>
              obtain rfl : true = found := Option.some.inj h
              exact iff_of_true rfl (Or.inl hrule)
          | false =>
              have hnot : ip ∉ rule.addresses := by simp [addresses, hrule]
              rw [ih h]
              simp only [hnot, false_or]

theorem anyMatches_ne_none {rules : List FirewallRule} (hfits : ∀ rule ∈ rules, rule.Fits)
    (ip : IpAddr) : anyMatches ip rules ≠ none := by
  induction rules with
  | nil => exact Option.some_ne_none _
  | cons rule rest ih =>
      obtain ⟨hrule, hrest⟩ := List.forall_mem_cons.mp hfits
      unfold anyMatches
      split
      next hnone => exact absurd hnone (hrule.matchesIp_ne_none ip)
      · exact Option.some_ne_none _
      · exact ih hrest

end FirewallRule

namespace IpFirewallConfig

/-- `IpFirewallConfig::default()`. -/
def default : IpFirewallConfig := ⟨.allow, [], []⟩

variable (config : IpFirewallConfig)

/-- `IpFirewall::evaluate`; deny rules come first, also where there are allow rules. -/
def evaluate (ip : IpAddr) : Option IpFilterAction :=
  match FirewallRule.anyMatches ip config.denyRules with
  | none => none
  | some true => some .deny
  | some false =>
      match config.allowRules with
      | [] => some config.defaultAction
      | rules => (FirewallRule.anyMatches ip rules).map fun found =>
          if found then .allow else .deny

/-- `IpFirewall::is_allowed`. -/
def isAllowed (ip : IpAddr) : Option Bool := (config.evaluate ip).map (· = .allow)

def deny (rule : FirewallRule) : IpFirewallConfig :=
  { config with denyRules := config.denyRules ++ [rule] }

def allow (rule : FirewallRule) : IpFirewallConfig :=
  { config with allowRules := config.allowRules ++ [rule] }

/-- What the rules make of the addresses. -/
def policy : AccessPolicy IpAddr where
  denied := {ip | ∃ rule ∈ config.denyRules, ip ∈ rule.addresses}
  admitted := match config.allowRules with
    | [] => none
    | rules => some {ip | ∃ rule ∈ rules, ip ∈ rule.addresses}
  byDefault := config.defaultAction = .allow

def Fits : Prop := ∀ rule, rule ∈ config.denyRules ∨ rule ∈ config.allowRules → rule.Fits

theorem policy_deny (rule : FirewallRule) :
    (config.deny rule).policy = config.policy.change (.deny rule.addresses) := by
  have hdenied : (config.deny rule).policy.denied = config.policy.denied ∪ rule.addresses := by
    ext ip
    simp [policy, deny, or_and_right, exists_or]
  rw [AccessPolicy.change, ← hdenied]
  rfl

theorem policy_allow (rule : FirewallRule) :
    (config.allow rule).policy = config.policy.change (.letIn rule.addresses) := by
  have hadmitted : (config.allow rule).policy.admitted =
      some (config.policy.admitted.getD ∅ ∪ rule.addresses) := by
    cases hrules : config.allowRules with
    | nil => simp [policy, allow, hrules]
    | cons first rest =>
        simp only [policy, allow, hrules, List.cons_append, Option.getD_some, Option.some_inj]
        ext ip
        simp only [Set.mem_ofPred_eq, Set.mem_union, ← List.cons_append, List.mem_append,
          List.mem_singleton, or_and_right, exists_or, exists_eq_left]
  rw [AccessPolicy.change, ← hadmitted]
  rfl

/-- A verdict is that of the policy. -/
theorem evaluate_eq_some {ip : IpAddr} {action : IpFilterAction}
    (h : config.evaluate ip = some action) : action = .allow ↔ config.policy.Allows ip := by
  unfold evaluate at h
  cases hdeny : FirewallRule.anyMatches ip config.denyRules with
  | none =>
      rw [hdeny] at h
      contradiction
  | some found =>
      have hdenied : found = true ↔ ip ∈ config.policy.denied :=
        FirewallRule.mem_of_anyMatches hdeny
      rw [hdeny] at h
      cases found with
      | true =>
          obtain rfl : IpFilterAction.deny = action := Option.some.inj h
          exact iff_of_false (by decide) fun hallows => hallows.1 (hdenied.mp rfl)
      | false =>
          have hout : ip ∉ config.policy.denied := fun hin => Bool.false_ne_true (hdenied.mpr hin)
          simp only [AccessPolicy.Allows, hout, not_false_eq_true, true_and]
          cases hrules : config.allowRules with
          | nil =>
              rw [hrules] at h
              obtain rfl : config.defaultAction = action := Option.some.inj h
              simp only [policy, hrules]
          | cons first rest =>
              rw [hrules] at h
              obtain ⟨matched, hmatched, hverdict⟩ := Option.map_eq_some_iff.mp h
              simp only [policy, hrules]
              rw [← hverdict, Set.mem_ofPred_eq, ← FirewallRule.mem_of_anyMatches hmatched]
              cases matched <;> simp

theorem Fits.deny {config : IpFirewallConfig} (hfits : config.Fits) {rule : FirewallRule}
    (hrule : rule.Fits) : (config.deny rule).Fits := by
  intro own hown
  rcases hown with hown | hown
  · rcases List.mem_append.mp hown with hown | hown
    · exact hfits own (Or.inl hown)
    · exact List.mem_singleton.mp hown ▸ hrule
  · exact hfits own (Or.inr hown)

theorem Fits.allow {config : IpFirewallConfig} (hfits : config.Fits) {rule : FirewallRule}
    (hrule : rule.Fits) : (config.allow rule).Fits := by
  intro own hown
  rcases hown with hown | hown
  · exact hfits own (Or.inl hown)
  · rcases List.mem_append.mp hown with hown | hown
    · exact hfits own (Or.inr hown)
    · exact List.mem_singleton.mp hown ▸ hrule

/-- Rules that all fit give every address a verdict. -/
theorem Fits.evaluate_ne_none {config : IpFirewallConfig} (hfits : config.Fits) (ip : IpAddr) :
    config.evaluate ip ≠ none := by
  have hdeny := FirewallRule.anyMatches_ne_none (fun rule hrule => hfits rule (Or.inl hrule)) ip
  have hallow := FirewallRule.anyMatches_ne_none (fun rule hrule => hfits rule (Or.inr hrule)) ip
  unfold evaluate
  split
  next hnone => exact absurd hnone hdeny
  · exact Option.some_ne_none _
  · split
    · exact Option.some_ne_none _
    · rw [ne_eq, Option.map_eq_none_iff]
      exact hallow

end IpFirewallConfig

section Runs

inductive FirewallCall where
  | deny (rule : FirewallRule)
  | allow (rule : FirewallRule)
  | evaluate (ip : IpAddr)

/-- What a call did; an answer is missing where the arithmetic overflows. -/
inductive FirewallEvent where
  | denied (rule : FirewallRule)
  | allowed (rule : FirewallRule)
  | answered (ip : IpAddr) (verdict : Option IpFilterAction)

namespace FirewallEvent

def change : FirewallEvent → Option (AccessChange IpAddr)
  | .denied rule => some (.deny rule.addresses)
  | .allowed rule => some (.letIn rule.addresses)
  | .answered _ _ => none

def Fits : FirewallEvent → Prop
  | .denied rule | .allowed rule => rule.Fits
  | .answered _ _ => True

end FirewallEvent

/-- The firewall behind its lock. -/
def firewallMachine : Machine IpFirewallConfig FirewallCall FirewallEvent where
  step config call := match call with
    | .deny rule => (config.deny rule, [.denied rule])
    | .allow rule => (config.allow rule, [.allowed rule])
    | .evaluate ip => (config, [.answered ip (config.evaluate ip)])

/-- The policy that a history makes of the first one. -/
def policyAfter (config : IpFirewallConfig) (events : List FirewallEvent) : AccessPolicy IpAddr :=
  config.policy.changeAll (events.filterMap FirewallEvent.change)

theorem policyAfter_concat (config : IpFirewallConfig) (events : List FirewallEvent)
    (event : FirewallEvent) :
    policyAfter config (events ++ [event]) =
      match event.change with
      | none => policyAfter config events
      | some change => (policyAfter config events).change change := by
  rw [policyAfter, List.filterMap_append, AccessPolicy.changeAll_append, ← policyAfter]
  cases event <;> rfl

/-- An answer that agrees with the rules that were added before it. -/
def FollowsPolicy (config : IpFirewallConfig) (before : List FirewallEvent)
    (event : FirewallEvent) : Prop :=
  ∀ ip action, event = .answered ip (some action) →
    (action = .allow ↔ (policyAfter config before).Allows ip)

/-- What holds of the firewall after any calls. -/
structure FirewallInvariant (config state : IpFirewallConfig) (events : List FirewallEvent) :
    Prop where
  policy : state.policy = policyAfter config events
  verdicts : Justified (FollowsPolicy config) events
  fits : config.Fits → (∀ event ∈ events, event.Fits) →
    state.Fits ∧ ∀ ip, .answered ip none ∉ events

namespace FirewallInvariant

variable {config state : IpFirewallConfig} {events : List FirewallEvent}

theorem start (config : IpFirewallConfig) : FirewallInvariant config config [] where
  policy := rfl
  verdicts := justified_nil _
  fits hconfig _ := ⟨hconfig, fun _ => List.not_mem_nil⟩

/-- What one more event has to keep. -/
theorem grown (hinv : FirewallInvariant config state events) {next : IpFirewallConfig}
    {event : FirewallEvent} (hpolicy : next.policy = policyAfter config (events ++ [event]))
    (hfollows : FollowsPolicy config events event)
    (hfits : state.Fits → event.Fits → next.Fits ∧ ∀ ip, event ≠ .answered ip none) :
    FirewallInvariant config next (events ++ [event]) where
  policy := hpolicy
  verdicts := hinv.verdicts.concat hfollows
  fits hconfig hall := by
    obtain ⟨hstate, hanswered⟩ :=
      hinv.fits hconfig fun earlier hearlier => hall earlier (List.mem_append_left _ hearlier)
    obtain ⟨hnext, hlast⟩ := hfits hstate (hall event List.mem_concat_self)
    refine ⟨hnext, fun ip hmem => ?_⟩
    rcases List.mem_append.mp hmem with hmem | hmem
    · exact hanswered ip hmem
    · exact hlast ip (List.mem_singleton.mp hmem).symm

theorem denied (hinv : FirewallInvariant config state events) (rule : FirewallRule) :
    FirewallInvariant config (state.deny rule) (events ++ [.denied rule]) := by
  refine hinv.grown ?_ (fun ip action hevent => by contradiction)
    fun hstate hrule => ⟨hstate.deny hrule, fun ip hevent => by contradiction⟩
  rw [state.policy_deny, policyAfter_concat, hinv.policy]
  rfl

theorem allowed (hinv : FirewallInvariant config state events) (rule : FirewallRule) :
    FirewallInvariant config (state.allow rule) (events ++ [.allowed rule]) := by
  refine hinv.grown ?_ (fun ip action hevent => by contradiction)
    fun hstate hrule => ⟨hstate.allow hrule, fun ip hevent => by contradiction⟩
  rw [state.policy_allow, policyAfter_concat, hinv.policy]
  rfl

theorem answered (hinv : FirewallInvariant config state events) (ip : IpAddr) :
    FirewallInvariant config state (events ++ [.answered ip (state.evaluate ip)]) := by
  refine hinv.grown ?_ (fun other action hevent => ?_)
    fun hstate _ => ⟨hstate, fun other hevent => ?_⟩
  · rw [policyAfter_concat]
    exact hinv.policy
  · obtain ⟨rfl, hverdict⟩ := FirewallEvent.answered.inj hevent
    rw [← hinv.policy]
    exact state.evaluate_eq_some hverdict
  · exact hstate.evaluate_ne_none ip (FirewallEvent.answered.inj hevent).2

theorem run (config : IpFirewallConfig) (calls : List FirewallCall) :
    FirewallInvariant config (firewallMachine.run config calls).1
      (firewallMachine.run config calls).2 := by
  refine firewallMachine.run_induction (P := FirewallInvariant config) (.start config) ?_ calls
  intro state events call hinv
  cases call with
  | deny rule => exact hinv.denied rule
  | allow rule => exact hinv.allowed rule
  | evaluate ip => exact hinv.answered ip

end FirewallInvariant

/-- What a firewall promises about its answers. -/
structure FirewallExact (config state : IpFirewallConfig) (events : List FirewallEvent) :
    Prop where
  verdicts : Justified (FollowsPolicy config) events
  /-- Who has been shut out is never let in again. -/
  shut : Justified (fun before event => ∀ rule ip, .denied rule ∈ before →
    ip ∈ rule.addresses → event ≠ .answered ip (some .allow)) events
  /-- Rules that `subnet_v4` makes never overflow. -/
  answered : config.Fits → (∀ event ∈ events, event.Fits) → ∀ ip, .answered ip none ∉ events
  /-- The same rules in another order, with any questions between, give the same answers. -/
  orderless : ∀ calls, ((firewallMachine.run config calls).2.filterMap FirewallEvent.change).Perm
      (events.filterMap FirewallEvent.change) →
    ∀ ip first second, state.evaluate ip = some first →
      (firewallMachine.run config calls).1.evaluate ip = some second → first = second
  allowed : ∀ ip found, state.isAllowed ip = some found →
    (found = true ↔ (policyAfter config events).Allows ip)

/-- Whatever rules are added, and whatever is asked between. -/
theorem firewall_exact (config : IpFirewallConfig) (calls : List FirewallCall) :
    FirewallExact config (firewallMachine.run config calls).1
      (firewallMachine.run config calls).2 := by
  have hinv := FirewallInvariant.run config calls
  generalize firewallMachine.run config calls = reached at hinv
  refine ⟨hinv.verdicts, hinv.verdicts.mono fun before event hfollows => ?_,
    fun hconfig hall => (hinv.fits hconfig hall).2, ?_, fun ip found hfound => ?_⟩
  · intro rule ip hdenied hip hevent
    have hchange : .deny rule.addresses ∈ before.filterMap FirewallEvent.change :=
      List.mem_filterMap.mpr ⟨_, hdenied, rfl⟩
    exact AccessPolicy.not_allows_of_deny _ hchange hip ((hfollows ip .allow hevent).mp rfl)
  · intro calls' hperm ip first second hfirst hsecond
    have hpolicy : (firewallMachine.run config calls').1.policy = reached.1.policy := by
      rw [(FirewallInvariant.run config calls').policy, hinv.policy]
      exact config.policy.changeAll_perm hperm
    have hallow : first = .allow ↔ second = .allow := by
      rw [reached.1.evaluate_eq_some hfirst, IpFirewallConfig.evaluate_eq_some _ hsecond, hpolicy]
    cases first with
    | allow => exact (hallow.mp rfl).symm
    | deny =>
        cases second with
        | allow => exact hallow.mpr rfl
        | deny => rfl
  · obtain ⟨action, haction, rfl⟩ := Option.map_eq_some_iff.mp hfound
    rw [decide_eq_true_iff, reached.1.evaluate_eq_some haction, hinv.policy]

end Runs

end KiteX402
