/-
What the rate limiter of the service promises about the facilitator: how many
requests of one client get as far as `/verify`.
-/
import KiteX402.RateLimitQuota
import KiteX402.ServiceGate
import KiteX402.WireAgreement

namespace KiteX402

/-- The address of a client depends on the forwarding headers only. -/
theorem clientIp_congr {headers headers' : HeaderMap}
    (hforwarded : headers'.getAll "x-forwarded-for" = headers.getAll "x-forwarded-for")
    (hreal : headers'.getAll "x-real-ip" = headers.getAll "x-real-ip") (peer : IpAddr)
    (proxies : TrustedProxies) :
    clientIp headers' peer proxies = clientIp headers peer proxies := by
  have hcontains : headers'.containsKey "x-forwarded-for" =
      headers.containsKey "x-forwarded-for" := by
    rw [Bool.eq_iff_iff, HeaderMap.containsKey_iff, HeaderMap.containsKey_iff, hforwarded]
  have hget : headers'.get "x-real-ip" = headers.get "x-real-ip" := by
    rw [HeaderMap.get_eq_head?_getAll, HeaderMap.get_eq_head?_getAll, hreal]
  simp only [clientIp, hcontains, hforwarded, hget, hreal]

namespace Wrapper

namespace RateLimitLayer

variable (layer : RateLimitLayer)

/-- Whose quota a request counts against. -/
def client (headers : HeaderMap) (peer : Option IpAddr) : Option IpAddr :=
  peer.bind fun peer => clientIp headers peer layer.trustedProxies

theorem client_tagged (arrival : Arrival) (id : String) :
    layer.client (arrival.tagged id).headers arrival.peer =
      layer.client arrival.request.headers arrival.peer := by
  have hsame : ∀ peer, clientIp (arrival.tagged id).headers peer layer.trustedProxies =
      clientIp arrival.request.headers peer layer.trustedProxies :=
    fun peer => clientIp_congr (getAll_tagRequest_of_ne (by decide) id _)
      (getAll_tagRequest_of_ne (by decide) id _) peer _
  simp only [client, hsame]

/-- The limiter is not asked, and the request refused, or asked about the client. -/
theorem check_cases {codec : Codec} {clock : MonotonicClock} {headers : HeaderMap}
    {peer : Option IpAddr} {buckets buckets' : BucketStore} {now : Instant}
    {result : Except Response ℕ} {calls : List LimiterEvent}
    (hcheck : layer.check codec clock headers peer buckets now = ((result, buckets'), calls)) :
    (calls = [] ∧ buckets' = buckets ∧ result.isOk = false) ∨
      ∃ ip answer, layer.client headers peer = some ip ∧
        acquire layer.config clock buckets ip now = (answer, buckets') ∧
        calls = [⟨⟨ip, now⟩, answer⟩] ∧ result.isOk = answer.isOk := by
  unfold check at hcheck
  cases peer with
  | none =>
      obtain ⟨h, rfl⟩ := Prod.mk.inj hcheck
      obtain ⟨rfl, rfl⟩ := Prod.mk.inj h
      exact Or.inl ⟨rfl, rfl, rfl⟩
  | some peer =>
      dsimp only at hcheck
      split at hcheck
      next hip =>
        obtain ⟨h, rfl⟩ := Prod.mk.inj hcheck
        obtain ⟨rfl, rfl⟩ := Prod.mk.inj h
        exact Or.inl ⟨rfl, rfl, rfl⟩
      next ip hip =>
        right
        split at hcheck
        all_goals
          next hacquire =>
            obtain ⟨h, rfl⟩ := Prod.mk.inj hcheck
            obtain ⟨rfl, rfl⟩ := Prod.mk.inj h
            exact ⟨ip, _, hip, hacquire, rfl, rfl⟩

end RateLimitLayer

section Quota

variable {cfg : Config} {arrivals : ℕ → Arrival}

section Projection

def Event.limiterEvent : Event → Option LimiterEvent
  | .limiter event => some event
  | _ => none

/-- The limiter's part of what happened. -/
def limiterRecords (records : List Record) : List LimiterEvent :=
  records.filterMap fun record => record.event.limiterEvent

theorem limiterRecords_append_stamp (records : List Record) (i : ℕ) (now : Instant)
    (events : List Event) :
    limiterRecords (records ++ stamp i now events) =
      limiterRecords records ++ events.filterMap Event.limiterEvent := by
  rw [limiterRecords, List.filterMap_append, stamp, List.filterMap_map]
  rfl

variable {arrival : Arrival} {world world' : World} {now reading : Instant}
  {phase phase' : Phase} {events : List Event}

/-- A move is a call of the limiter, or the limiter does not see it. -/
theorem Moves.limiter_cases {layer : RateLimitLayer} (hlimiter : cfg.limiter = some layer)
    (hmoves : Moves cfg arrival world now reading phase world' phase' events) :
    (events.filterMap Event.limiterEvent = [] ∧ world'.buckets = world.buckets) ∨
      ∃ call, (limiterMachine layer.config cfg.rt.clock).step world.buckets call =
        (world'.buckets, events.filterMap Event.limiterEvent) := by
  have hgate : ∀ events : List GateEvent,
      (events.map Event.gate).filterMap Event.limiterEvent = [] := by
    intro events
    rw [List.filterMap_map, List.filterMap_eq_nil_iff]
    exact fun event _ => rfl
  have hcalls : ∀ calls : List LimiterEvent,
      (calls.map Event.limiter).filterMap Event.limiterEvent = calls := by
    intro calls
    rw [List.filterMap_map]
    exact List.filterMap_some
  have hasked : ∀ {own : RateLimitLayer} {id result buckets calls},
      cfg.limiter = some own → own.check cfg.rt.codec cfg.rt.clock (arrival.tagged id).headers
        arrival.peer world.buckets reading = ((result, buckets), calls) →
      (calls = [] ∧ buckets = world.buckets) ∨
        ∃ call, (limiterMachine layer.config cfg.rt.clock).step world.buckets call =
          (buckets, calls) := by
    intro own id result buckets calls hown hcheck
    obtain rfl := Option.some.inj (hown.symm.trans hlimiter)
    rcases own.check_cases hcheck with ⟨hnone, hsame, -⟩ | ⟨ip, answer, -, hacquire, hone, -⟩
    · exact Or.inl ⟨hnone, hsame⟩
    · refine Or.inr ⟨⟨ip, reading⟩, ?_⟩
      simp only [limiterMachine, hacquire, hone]
  cases hmoves with
  | admitted id own remaining buckets calls hown hcheck =>
      rw [hcalls]
      exact hasked hown hcheck
  | refused id own response buckets calls hown hcheck =>
      rw [hcalls]
      exact hasked hown hcheck
  | gated | through => exact Or.inl ⟨hgate _, rfl⟩
  | _ => exact Or.inl ⟨rfl, rfl⟩

/-- What the limiter of a service does is a run of the limiter alone. -/
theorem limiter_run {layer : RateLimitLayer} (hlimiter : cfg.limiter = some layer)
    (arrivals : ℕ → Arrival) (clock : Instant) (actions : List Action) :
    ∃ calls, (limiterMachine layer.config cfg.rt.clock).run ∅ calls =
      ((run cfg arrivals clock actions).1.world.buckets,
        limiterRecords (run cfg arrivals clock actions).2) := by
  refine run_induction (P := fun state records =>
    ∃ calls, (limiterMachine layer.config cfg.rt.clock).run ∅ calls =
      (state.world.buckets, limiterRecords records)) cfg arrivals ⟨[], rfl⟩ ?_ actions
  rintro state records i now reading world phase events ⟨calls, hrun⟩ _ _ hmoves
  rcases hmoves.limiter_cases hlimiter with ⟨hnone, hbuckets⟩ | ⟨call, hstep⟩
  · refine ⟨calls, ?_⟩
    rw [limiterRecords_append_stamp, hnone, List.append_nil, hbuckets]
    exact hrun
  · refine ⟨calls ++ [call], ?_⟩
    rw [Machine.run_concat, hrun, hstep, limiterRecords_append_stamp]

end Projection

section Admission

/-- The limiter has admitted request `i` on behalf of its client. -/
def Admitted (layer : RateLimitLayer) (arrival : Arrival) (i : ℕ)
    (records : List Record) : Prop :=
  ∃ time ip reading remaining, layer.client arrival.request.headers arrival.peer = some ip ∧
    ⟨i, time, .limiter ⟨⟨ip, reading⟩, .ok remaining⟩⟩ ∈ records

def Phase.isGated : Phase → Bool
  | .gated _ _ _ => true
  | _ => false

variable {arrival : Arrival} {world world' : World} {now reading : Instant}
  {phase phase' : Phase} {events : List Event}

/-- Only an admission leads to the gate. -/
theorem Moves.admits {layer : RateLimitLayer} (hlimiter : cfg.limiter = some layer) {i : ℕ}
    (hmoves : Moves cfg arrival world now reading phase world' phase' events)
    (hgated : phase'.isGated = true) :
    phase.isGated = true ∨ ∀ records, Admitted layer arrival i (records ++ stamp i now events) := by
  cases hmoves with
  | stayed => exact Or.inl hgated
  | gated => exact Or.inl rfl
  | unlimited id hnone =>
      rw [hlimiter] at hnone
      contradiction
  | admitted id own remaining buckets calls hown hcheck =>
      obtain rfl := Option.some.inj (hown.symm.trans hlimiter)
      rcases own.check_cases hcheck with ⟨-, -, hrefused⟩ | ⟨ip, answer, hip, -, hone, hok⟩
      · contradiction
      · cases answer with
        | error => contradiction
        | ok left =>
            refine Or.inr fun records => ⟨now, ip, reading, left, ?_, ?_⟩
            · rw [← hip, own.client_tagged]
            · rw [hone]
              exact mem_append_stamp.mpr (Or.inr ⟨_, List.mem_singleton_self _, rfl⟩)
  | _ => contradiction

theorem Admitted.mono {layer : RateLimitLayer} {i : ℕ} {records more : List Record}
    (hadmitted : Admitted layer arrival i records)
    (hsub : ∀ record ∈ records, record ∈ more) : Admitted layer arrival i more := by
  obtain ⟨time, ip, reading, remaining, hip, hmem⟩ := hadmitted
  exact ⟨time, ip, reading, remaining, hip, hsub _ hmem⟩

/-- The gate sees nothing of a request before the limiter has admitted it. -/
theorem admitted_run {layer : RateLimitLayer} (hlimiter : cfg.limiter = some layer)
    (arrivals : ℕ → Arrival) (clock : Instant) (actions : List Action) (i : ℕ)
    (hseen : traceOf i (gateRecords (run cfg arrivals clock actions).2) ≠ []) :
    Admitted layer (arrivals i) i (run cfg arrivals clock actions).2 := by
  suffices hrun : ∀ j, ((run cfg arrivals clock actions).1.phases j).isGated = true ∨
      traceOf j (gateRecords (run cfg arrivals clock actions).2) ≠ [] →
        Admitted layer (arrivals j) j (run cfg arrivals clock actions).2 from
    hrun i (Or.inr hseen)
  refine run_induction (P := fun state records => ∀ j,
    (state.phases j).isGated = true ∨ traceOf j (gateRecords records) ≠ [] →
      Admitted layer (arrivals j) j records) cfg arrivals ?_ ?_ actions
  · intro j hj
    simp [State.start, Phase.isGated, gateRecords, traceOf] at hj
  · intro state records k now reading world phase events hadmitted _ _ hmoves j hj
    have hold : Admitted layer (arrivals j) j records →
        Admitted layer (arrivals j) j (records ++ stamp k now events) :=
      fun h => h.mono fun record hrecord => List.mem_append_left _ hrecord
    dsimp only at hj
    by_cases hjk : j = k
    · subst hjk
      rw [Function.update_self, traceOf_append_stamp_self] at hj
      have hbefore : (state.phases j).isGated = true →
          Admitted layer (arrivals j) j (records ++ stamp j now events) :=
        fun h => hold (hadmitted j (Or.inl h))
      rcases hj with hgated | hne
      · exact (hmoves.admits hlimiter hgated).elim hbefore fun h => h records
      · rcases hmoves.gate_cases with hunseen | ⟨_, _, _, _, _, hphase, _⟩
        · rw [hunseen.events, List.append_nil] at hne
          exact hold (hadmitted j (Or.inr hne))
        · exact hbefore (by rw [hphase]; rfl)
    · rw [Function.update_of_ne hjk, traceOf_append_stamp_of_ne (Ne.symm hjk)] at hj
      exact hold (hadmitted j hj)

end Admission

/-- Where the limiter reads the clock in the order of its lock, no more requests of
a client get to the gate than its burst and the refills of the interval allow. -/
structure QuotaKept (layer : RateLimitLayer) (arrivals : ℕ → Arrival)
    (records : List Record) : Prop where
  admitted : ∀ i, traceOf i (gateRecords records) ≠ [] → Admitted layer (arrivals i) i records
  bounded : ((limiterRecords records).map LimiterEvent.call).Pairwise
      (fun earlier later => earlier.now ≤ later.now) →
    ∀ client first final, first ≤ final → ∀ requests : Finset ℕ,
      (∀ i ∈ requests, traceOf i (gateRecords records) ≠ [] ∧
        (layer.client (arrivals i).request.headers (arrivals i).peer).map normalizeIp =
          some client ∧
        ∀ time call, ⟨i, time, .limiter call⟩ ∈ records →
          first ≤ call.call.now ∧ call.call.now ≤ final) →
      (requests.card : ℚ) ≤
        layer.config.burst + layer.config.rps * Duration.asSecs (final - first)

/-- Requests that were each admitted are no more than the admissions. -/
theorem card_le_admissions {records : List Record} {client : IpAddr} {first final : Instant}
    {requests : Finset ℕ}
    (hadmits : ∀ i ∈ requests, ∃ time call, ⟨i, time, .limiter call⟩ ∈ records ∧
      call.Admits client first final) :
    requests.card ≤ admissions client first final (limiterRecords records) := by
  let admits : Record → Bool := fun record =>
    (record.event.limiterEvent.map fun call => decide (call.Admits client first final)).getD false
  have hsub : requests ⊆ ((records.filter admits).map Record.request).toFinset := by
    intro i hi
    obtain ⟨time, call, hmem, hadmit⟩ := hadmits i hi
    rw [List.mem_toFinset, List.mem_map]
    exact ⟨_, List.mem_filter.mpr ⟨hmem, decide_eq_true hadmit⟩, rfl⟩
  have hcount : admissions client first final (limiterRecords records) =
      (records.filter admits).length := by
    rw [admissions, limiterRecords, List.countP_filterMap, List.countP_eq_length_filter]
  have hcard := (Finset.card_le_card hsub).trans (List.toFinset_card_le _)
  rw [List.length_map] at hcard
  omega

/-- Every request that the gate has seen was admitted on behalf of its own client,
so the limiter, its numbers read as exact rationals, bounds what the facilitator and
the upstream are asked. -/
theorem gate_within_quota {cfg : Config} {layer : RateLimitLayer}
    (hlimiter : cfg.limiter = some layer) (arrivals : ℕ → Arrival) (clock : Instant)
    (actions : List Action) : QuotaKept layer arrivals (run cfg arrivals clock actions).2 := by
  have hadmitted := admitted_run hlimiter arrivals clock actions
  obtain ⟨calls, hrun⟩ := limiter_run hlimiter arrivals clock actions
  generalize (run cfg arrivals clock actions).2 = records at hadmitted hrun
  refine ⟨hadmitted, fun hordered client first final hinterval requests hrequests => ?_⟩
  have hrecords : ((limiterMachine layer.config cfg.rt.clock).run ∅ calls).2 =
      limiterRecords records := by
    rw [hrun]
  have hcalls : (limiterRecords records).map LimiterEvent.call = calls := by
    rw [← hrecords, limiterMachine_run_calls]
  have hadmits : ∀ i ∈ requests, ∃ time call, ⟨i, time, .limiter call⟩ ∈ records ∧
      call.Admits client first final := by
    intro i hi
    obtain ⟨hseen, hclient, hasked⟩ := hrequests i hi
    obtain ⟨time, ip, reading, remaining, hip, hmem⟩ := hadmitted i hseen
    obtain ⟨hfirst, hfinal⟩ := hasked time _ hmem
    rw [hip] at hclient
    exact ⟨time, _, hmem, Option.some.inj hclient, hfirst, hfinal, rfl⟩
  rw [hcalls] at hordered
  have hrefines := refinesIdeal_of_timely layer.config cfg.rt.clock
    (timely_of_sorted layer.config cfg.rt.clock hordered)
  calc (requests.card : ℚ)
      ≤ admissions client first final (limiterRecords records) :=
        Nat.cast_le.mpr (card_le_admissions hadmits)
    _ ≤ layer.config.burst + layer.config.rps * Duration.asSecs (final - first) := by
        rw [← hrecords]
        exact admissions_le_of_refines layer.config cfg.rt.clock hrefines hinterval
          (hordered.imp fun h => Or.inr h)

end Quota

namespace QuotaWitness

def layer : RateLimitLayer := ⟨RateLimitWitness.config, [], "1"⟩

def config : Config where
  rt := WireWitness.runtime
  payment := WireWitness.route
  limiter := some layer
  maxConcurrent := 2
  security := .default
  cors := .disabled

/-- The same client, again and again. -/
def arrivals (_ : ℕ) : Arrival where
  method := "GET"
  request := ⟨"/v1/forecast", none, []⟩
  peer := some RateLimitWitness.alice
  metered := true

/-- Request `i` gets as far as its challenge. -/
def challenge (i : ℕ) : List Action :=
  [⟨i, 0, 0, .enter 0⟩, ⟨i, 0, 0, .proceed⟩, ⟨i, 0, 0, .proceed⟩,
    ⟨i, 0, 0, .gate (.poll none 0)⟩]

def actions : List Action :=
  challenge 0 ++ ⟨2, Duration.fromSecs 1, 0, .proceed⟩ :: challenge 1

/-- The second request is admitted with what one second has refilled. -/
theorem actions_within_quota :
    QuotaKept layer arrivals (run config arrivals 0 actions).2 ∧
      ((limiterRecords (run config arrivals 0 actions).2).map LimiterEvent.call).Pairwise
        (fun earlier later => earlier.now ≤ later.now) :=
  ⟨gate_within_quota rfl arrivals 0 actions, by decide +kernel⟩

end QuotaWitness

end Wrapper

end KiteX402
