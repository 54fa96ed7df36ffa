/-
No authorization is charged twice: what requests with one key may do at the
same time, and after one of them was charged.
-/
import KiteX402.GateSystem

namespace KiteX402

/-- The steps that need a reservation: the calls of the facilitator and the
handler. -/
def GateEvent.isProtected : GateEvent → Bool
  | .verifyCalled _ _ | .handlerEntered | .settleCalled _ _ => true
  | _ => false

def GateEvent.isDropped : GateEvent → Bool
  | .guard (.dropped _ _) => true
  | _ => false

/-- The request has attempted to settle, or was dropped after it had entered
the handler. -/
def Charged (trace : List GateEvent) : Prop :=
  (∃ payload requirements, .settleCalled payload requirements ∈ trace) ∨
    (.handlerEntered ∈ trace ∧ .cancelled ∈ trace)

theorem Charged.mono {trace longer : List GateEvent} (hcharged : Charged trace)
    (hsub : trace ⊆ longer) : Charged longer := by
  rcases hcharged with ⟨payload, requirements, hmem⟩ | ⟨hentered, hcancelled⟩
  · exact Or.inl ⟨payload, requirements, hsub hmem⟩
  · exact Or.inr ⟨hsub hentered, hsub hcancelled⟩

section Requests

/-- The place of the guard in the trace of a request with the key `key`. -/
def GuardOrdered (key : Option String) (before : List GateEvent) : GateEvent → Prop
  | .verifyCalled _ _ | .handlerEntered | .settleCalled _ _ =>
      (∃ own reading generation, key = some own ∧
        .guard (.reserved own reading generation) ∈ before) ∧
      ∀ event ∈ before, event.isDropped = false
  | .guard (.dropped handle _) =>
      (∃ own reading, key = some own ∧
        .guard (.reserved own reading handle.generation) ∈ before) ∧
      ∀ event ∈ before, event.isDropped = false
  | _ => True

variable {rt : Runtime} {cfg : PaymentConfig} {req : Request}
  {guard : PaymentNonceReplayGuard} {phase : GatePhase} {trace : List GateEvent}

/-- A trace that ends before verification has let go of nothing. -/
theorem EndsUnverified.dropped_notMem (hends : EndsUnverified trace)
    (handle : PaymentNonceReservation) (now : Instant) :
    .guard (.dropped handle now) ∉ trace := by
  unfold EndsUnverified at hends
  split at hends
  · simp
  · simp
  · simp
  · simp
  · contradiction

theorem Opens.reservation {attempt : PaymentAttempt} {retain : Bool}
    {opening : List GateEvent} (hopens : Opens rt cfg attempt retain opening)
    (hguard : cfg.nonceGuard = some guard) :
    ∃ generation reservedAt,
      attempt.reservation =
        some ⟨authorizationKey rt.codec attempt.payload, generation, retain⟩ ∧
      opening = [.guard (.reserved (authorizationKey rt.codec attempt.payload)
        reservedAt generation)] := by
  simpa only [Opens, hguard] using hopens

theorem GateHistory.guardOrdered (hguard : cfg.nonceGuard = some guard)
    (hhist : GateHistory rt cfg req phase trace) :
    Justified (GuardOrdered (paymentKey rt req)) trace := by
  cases hhist with
  | arrived => exact justified_nil _
  | unverified events hends =>
      unfold EndsUnverified at hends
      split at hends
      · simp [GuardOrdered]
      · simp [GuardOrdered]
      · simp [GuardOrdered]
      · simp [GuardOrdered]
      · contradiction
  | verifying _ _ hmatch hopens | verifyCancelled _ _ _ hmatch hopens
  | rejected _ _ _ _ _ hmatch hopens | handling _ _ _ hmatch hopens
  | handlerCancelled _ _ _ _ hmatch hopens | failed _ _ _ _ _ hmatch hopens
  | settling _ _ _ _ hmatch hopens | settleCancelled _ _ _ _ _ hmatch hopens
  | settled _ _ _ _ _ _ hmatch hopens =>
      obtain ⟨generation, reservedAt, hreservation, rfl⟩ := hopens.reservation hguard
      simp [settleTrace, handlerTrace, verifyTrace, closing, hreservation,
        GuardOrdered, hmatch.key, GateEvent.isDropped]

/-- Whoever has been charged lets go of a reservation that is retained. -/
theorem GateHistory.retain_of_charged (hguard : cfg.nonceGuard = some guard)
    (hhist : GateHistory rt cfg req phase trace) (hcharged : Charged trace)
    {handle : PaymentNonceReservation} {now : Instant}
    (hdropped : .guard (.dropped handle now) ∈ trace) : handle.retain = true := by
  cases hhist with
  | arrived => simp at hdropped
  | unverified events hends => exact absurd hdropped (hends.dropped_notMem handle now)
  | verifying _ _ hmatch hopens | verifyCancelled _ _ _ hmatch hopens
  | rejected _ _ _ _ _ hmatch hopens | handling _ _ _ hmatch hopens
  | handlerCancelled _ _ _ _ hmatch hopens | failed _ _ _ _ _ hmatch hopens
  | settling _ _ _ _ hmatch hopens | settleCancelled _ _ _ _ _ hmatch hopens
  | settled _ _ _ _ _ _ hmatch hopens =>
      obtain ⟨generation, reservedAt, hreservation, rfl⟩ := hopens.reservation hguard
      simp [settleTrace, handlerTrace, verifyTrace, closing, hreservation,
        Charged] at hdropped hcharged <;> simp [hdropped]

end Requests

section Systems

variable (sys : GateSystem)

/-- The request has reserved the key and not let go of it. -/
def HoldsKey (i : ℕ) (key : String) (events : List SystemEvent) : Prop :=
  (∃ time reading generation,
    ⟨i, time, .guard (.reserved key reading generation)⟩ ∈ events) ∧
  ∀ time handle now, ⟨i, time, .guard (.dropped handle now)⟩ ∉ events

/-- The request has been charged, and its reservation ended at `ended`. -/
def EndedCharged (i : ℕ) (ended : Instant) (events : List SystemEvent) : Prop :=
  (∃ handle now, ⟨i, ended, .guard (.dropped handle now)⟩ ∈ events) ∧
    Charged (traceOf i events)

/-- What it takes to get past the guard with the key `key`: a reservation of
the key, while no other request holds one, made the whole ttl after the end of
the reservation of every request that was charged before. -/
structure MayProceed (key : String) (before : List SystemEvent) (j : ℕ) :
    Prop where
  holds : HoldsKey j key before
  exclusive : ∀ i, i ≠ j → ¬HoldsKey i key before
  retained : ∀ i ended, sys.key i = some key → EndedCharged i ended before →
    ∀ time reading generation,
      ⟨j, time, .guard (.reserved key reading generation)⟩ ∈ before →
        ended + sys.guard.ttl ≤ time

/-- A second charge of one key comes only the whole ttl after the end of the
first one's reservation. -/
def MayCharge (key : String) (before : List SystemEvent) (now : Instant) : Prop :=
  ∀ i time payload requirements, sys.key i = some key →
    ⟨i, time, .settleCalled payload requirements⟩ ∈ before →
    ∃ ended handle dropped, ⟨i, ended, .guard (.dropped handle dropped)⟩ ∈ before ∧
      ended + sys.guard.ttl ≤ now

/-- The promises of the gate about requests that share a guard. -/
structure ReplaySafe (events : List SystemEvent) : Prop where
  proceed : Justified (fun before event => event.event.isProtected = true →
    ∃ key, sys.key event.request = some key ∧
      MayProceed sys key before event.request) events
  charge : Justified (fun before event =>
    ∀ payload requirements, event.event = .settleCalled payload requirements →
      ∃ key, sys.key event.request = some key ∧
        MayCharge sys key before event.time) events

end Systems

namespace SystemInvariant

variable {sys : GateSystem} {prior : List GuardEvent} {state : SystemState}
  {events before after : List SystemEvent}

theorem guardOrdered (hinv : SystemInvariant sys prior state events) {i : ℕ}
    {time : Instant} {event : GateEvent}
    (hevents : events = before ++ ⟨i, time, event⟩ :: after) :
    GuardOrdered (sys.key i) (traceOf i before) event := by
  have hordered := (hinv.histories i).guardOrdered rfl
  exact hordered _ _ _ (by rw [hevents, traceOf_split])

theorem time_le (hinv : SystemInvariant sys prior state events)
    {event : SystemEvent} (hevents : events = before ++ event :: after) :
    ∀ earlier ∈ before, earlier.time ≤ event.time := by
  have hordered := hinv.ordered
  rw [hevents, List.pairwise_append] at hordered
  exact fun earlier hearlier => hordered.2.2 earlier hearlier event List.mem_cons_self

/-- Every drop ends a reservation of the same request, made before. -/
theorem reserved_of_dropped (hinv : SystemInvariant sys prior state events)
    (hevents : events = before ++ after) {i : ℕ} {time now : Instant}
    {handle : PaymentNonceReservation}
    (hmem : ⟨i, time, .guard (.dropped handle now)⟩ ∈ before) :
    ∃ own reservedAt reading, sys.key i = some own ∧
      ⟨i, reservedAt, .guard (.reserved own reading handle.generation)⟩ ∈ before := by
  obtain ⟨start, rest, rfl⟩ := List.append_of_mem hmem
  have hsplit : events = start ++ ⟨i, time, .guard (.dropped handle now)⟩ ::
      (rest ++ after) := by
    simp [hevents]
  obtain ⟨⟨own, reading, hkey, hreserved⟩, _⟩ := hinv.guardOrdered hsplit
  obtain ⟨reservedAt, hreserved⟩ := mem_traceOf.mp hreserved
  exact ⟨own, reservedAt, reading, hkey, List.mem_append_left _ hreserved⟩

/-- A generation is dropped by the request that reserved it. -/
theorem dropper_eq (hinv : SystemInvariant sys prior state events) {i j : ℕ}
    {time reservedAt reading now : Instant} {own : String}
    {handle : PaymentNonceReservation} {generation : Generation}
    (hreserved : ⟨i, reservedAt, .guard (.reserved own reading generation)⟩ ∈ events)
    (hdropped : ⟨j, time, .guard (.dropped handle now)⟩ ∈ events)
    (hgen : handle.generation = generation) : j = i := by
  obtain ⟨own', reservedAt', reading', _, hmem⟩ :=
    hinv.reserved_of_dropped (List.append_nil events).symm hdropped
  rw [hgen] at hmem
  exact hinv.reservers _ _ _ _ _ _ _ _ _ hmem hreserved

/-- A request lets go of one reservation. -/
theorem dropped_unique (hinv : SystemInvariant sys prior state events) {i : ℕ}
    {time now time' now' : Instant} {handle handle' : PaymentNonceReservation}
    (hfirst : ⟨i, time, .guard (.dropped handle now)⟩ ∈ events)
    (hsecond : ⟨i, time', .guard (.dropped handle' now')⟩ ∈ events) :
    handle = handle' ∧ time = time' := by
  have honce : Justified (fun before event => event.isDropped = true →
      ∀ other ∈ before, ¬other.isDropped = true) (traceOf i events) := by
    refine ((hinv.histories i).guardOrdered rfl).mono fun before event h hdropped => ?_
    cases event with
    | guard event =>
        cases event with
        | dropped handle now => simpa using h.2
        | _ => contradiction
    | _ => contradiction
  have heq := honce.unique (mem_traceOf.mpr ⟨_, hfirst⟩) (mem_traceOf.mpr ⟨_, hsecond⟩)
    rfl rfl
  cases heq
  exact ⟨rfl, (hinv.drops _ _ _ _ hfirst).symm.trans (hinv.drops _ _ _ _ hsecond)⟩

/-- A key that is reserved again was let go in between. -/
theorem over_of_split (hinv : SystemInvariant sys prior state events) {i j : ℕ} {key : String}
    {first second reading reading' : Instant} {generation generation' : Generation}
    {pre middle post : List SystemEvent}
    (hevents : events = pre ++ ⟨i, first, .guard (.reserved key reading generation)⟩ ::
      (middle ++ ⟨j, second, .guard (.reserved key reading' generation')⟩ :: post)) :
    ReservationOver sys.guard.ttl generation
      (guardTrace middle ++ [.reserved key reading' generation']) := by
  obtain ⟨handles, hprotects, _⟩ := hinv.guarded
  have huncleared : .cleared ∉ guardTrace middle := by
    intro hmem
    obtain ⟨z, time, hcleared⟩ := mem_guardTrace.mp hmem
    apply hinv.uncleared
    rw [mem_guardTrace, hevents]
    exact ⟨z, time, by simp [hcleared]⟩
  have htrace : prior ++ guardTrace events =
      (prior ++ guardTrace pre) ++ .reserved key reading generation ::
        (guardTrace middle ++ .reserved key reading' generation' :: guardTrace post) := by
    rw [hevents]
    simp [guardTrace, guardEvents, GateEvent.guardEvent]
  rcases hprotects.replays _ _ _ _ _ _ _ _ htrace huncleared rfl with h | h
  · contradiction
  · exact h

/-- Of two requests that reserved one key, of which the second has not let go,
the first reserved first, and its reservation was over before the second's. -/
theorem over_of_reserved_twice (hinv : SystemInvariant sys prior state events)
    (hevents : events = before ++ after) {i j : ℕ} (hne : i ≠ j)
    {key : String} {first second reading reading' : Instant}
    {generation generation' : Generation}
    (hfirst : ⟨i, first, .guard (.reserved key reading generation)⟩ ∈ before)
    (hsecond : ⟨j, second, .guard (.reserved key reading' generation')⟩ ∈ before)
    (hheld : ∀ time handle now, ⟨j, time, .guard (.dropped handle now)⟩ ∉ before) :
    ∃ middle, (∀ event ∈ middle, event ∈ before ∧ event.time ≤ second) ∧
      ReservationOver sys.guard.ttl generation
        (guardTrace middle ++ [.reserved key reading' generation']) := by
  have hin : ∀ event ∈ before, event ∈ events := fun event hevent =>
    hevents ▸ List.mem_append_left _ hevent
  obtain ⟨pre, post, hsplit⟩ := List.append_of_mem hfirst
  have hcases := hsecond
  rw [hsplit, List.mem_append, List.mem_cons] at hcases
  rcases hcases with hmem | heq | hmem
  · -- The other way round the second request would have let go.
    obtain ⟨start, middle, rfl⟩ := List.append_of_mem hmem
    have hback : events = start ++ ⟨j, second, .guard (.reserved key reading' generation')⟩ ::
        (middle ++ ⟨i, first, .guard (.reserved key reading generation)⟩ :: (post ++ after)) := by
      simp [hevents, hsplit]
    obtain ⟨handle, now, hdropped, hgen⟩ := (hinv.over_of_split hback).dropped
    rcases List.mem_append.mp hdropped with hdropped | hdropped
    · obtain ⟨z, time, hdropped⟩ := mem_guardTrace.mp hdropped
      have hbefore : ⟨z, time, .guard (.dropped handle now)⟩ ∈ before := by
        rw [hsplit]
        simp [hdropped]
      have hz : z = j := hinv.dropper_eq (hin _ hsecond) (hin _ hbefore) hgen
      exact absurd (hz ▸ hbefore) (hheld time handle now)
    · simp at hdropped
  · exact absurd (congrArg SystemEvent.request heq).symm hne
  · obtain ⟨middle, rest, rfl⟩ := List.append_of_mem hmem
    have hforth : events = (pre ++ ⟨i, first, .guard (.reserved key reading generation)⟩ ::
        middle) ++ ⟨j, second, .guard (.reserved key reading' generation')⟩ ::
          (rest ++ after) := by
      simp [hevents, hsplit]
    refine ⟨middle, fun event hevent => ⟨?_, ?_⟩, hinv.over_of_split (by
      rw [hforth, List.append_assoc, List.cons_append])⟩
    · rw [hsplit]
      simp [hevent]
    · exact hinv.time_le hforth event (by simp [hevent])

theorem exclusive (hinv : SystemInvariant sys prior state events)
    (hevents : events = before ++ after) {i j : ℕ} (hne : i ≠ j) {key : String}
    (hfirst : HoldsKey i key before) : ¬HoldsKey j key before := by
  have hin : ∀ event ∈ before, event ∈ events := fun event hevent =>
    hevents ▸ List.mem_append_left _ hevent
  intro hsecond
  obtain ⟨⟨first, reading, generation, hreserved⟩, hheld⟩ := hfirst
  obtain ⟨⟨second, reading', generation', hreserved'⟩, hheld'⟩ := hsecond
  obtain ⟨middle, hmiddle, hover⟩ :=
    hinv.over_of_reserved_twice hevents hne hreserved hreserved' hheld'
  obtain ⟨handle, now, hdropped, hgen⟩ := hover.dropped
  rcases List.mem_append.mp hdropped with hdropped | hdropped
  · obtain ⟨z, time, hdropped⟩ := mem_guardTrace.mp hdropped
    have hbefore := (hmiddle _ hdropped).1
    have hz : z = i := hinv.dropper_eq (hin _ hreserved) (hin _ hbefore) hgen
    exact hheld time handle now (hz ▸ hbefore)
  · simp at hdropped

/-- Who holds a key that a charged request had let go of has reserved it the
whole ttl later. -/
theorem retained (hinv : SystemInvariant sys prior state events)
    (hevents : events = before ++ after) {i j : ℕ} {key : String}
    {second reading' ended : Instant} {generation' : Generation}
    (hreserved : ⟨j, second, .guard (.reserved key reading' generation')⟩ ∈ before)
    (hheld : ∀ time handle now, ⟨j, time, .guard (.dropped handle now)⟩ ∉ before)
    (hkey : sys.key i = some key) (hended : EndedCharged i ended before) :
    ended + sys.guard.ttl ≤ second := by
  obtain ⟨⟨handle, now, hdropped⟩, hcharged⟩ := hended
  have hin : ∀ event ∈ before, event ∈ events := fun event hevent =>
    hevents ▸ List.mem_append_left _ hevent
  have hne : i ≠ j := by
    rintro rfl
    exact hheld _ _ _ hdropped
  obtain ⟨own, first, reading, hown, hreservedFirst⟩ :=
    hinv.reserved_of_dropped hevents hdropped
  rw [hkey, Option.some_inj] at hown
  subst hown
  have hretain : handle.retain = true := by
    apply (hinv.histories i).retain_of_charged rfl ?_ (mem_traceOf.mpr ⟨_, hin _ hdropped⟩)
    rw [hevents, traceOf_append]
    exact hcharged.mono (List.subset_append_left _ _)
  obtain ⟨middle, hmiddle, hover⟩ :=
    hinv.over_of_reserved_twice hevents hne hreservedFirst hreserved hheld
  -- Whatever drop ended the reservation is the one that ended the request's.
  have hown : ∀ other dropped, .dropped other dropped ∈
      guardTrace middle ++ [.reserved key reading' generation'] →
      other.generation = handle.generation → other = handle ∧ dropped = ended := by
    intro other dropped hmem hgen
    rcases List.mem_append.mp hmem with hmem | hmem
    · obtain ⟨z, time, hmem⟩ := mem_guardTrace.mp hmem
      have hbefore := hin _ (hmiddle _ hmem).1
      have hz : z = i := hinv.dropper_eq (hin _ hreservedFirst) hbefore hgen
      subst hz
      obtain ⟨rfl, rfl⟩ := hinv.dropped_unique hbefore (hin _ hdropped)
      exact ⟨rfl, hinv.drops _ _ _ _ hbefore⟩
    · simp at hmem
  rcases hover with ⟨other, dropped, hmem, hgen, hgiven⟩ |
    ⟨start, other, dropped, rest, hsplit, hgen, _, event, hevent, own, reading, hattempt, hdue⟩
  · rw [(hown other dropped hmem hgen).1, hretain] at hgiven
    contradiction
  · have hmem : .dropped other dropped ∈
        guardTrace middle ++ [.reserved key reading' generation'] := by
      simp [hsplit]
    rw [(hown other dropped hmem hgen).2] at hdue
    refine hdue.trans ?_
    have hevent' : event ∈ guardTrace middle ++ [.reserved key reading' generation'] := by
      simp [hsplit, hevent]
    rcases List.mem_append.mp hevent' with hmem | hmem
    · obtain ⟨z, time, hmem⟩ := mem_guardTrace.mp hmem
      obtain ⟨hbefore, htime⟩ := hmiddle _ hmem
      exact (hinv.readings z time event (hin _ hbefore) own reading hattempt).trans htime
    · rw [List.mem_singleton] at hmem
      subst hmem
      exact hinv.readings j second _ (hin _ hreserved) own reading hattempt

/-- Who takes a step that needs the reservation holds the key. -/
theorem holdsKey_of_protected (hinv : SystemInvariant sys prior state events) {j : ℕ}
    {time : Instant} {event : GateEvent}
    (hevents : events = before ++ ⟨j, time, event⟩ :: after)
    (hprotected : event.isProtected = true) :
    ∃ key, sys.key j = some key ∧ HoldsKey j key before := by
  have hordered := hinv.guardOrdered hevents
  have hneeds : (∃ own reading generation, sys.key j = some own ∧
      .guard (.reserved own reading generation) ∈ traceOf j before) ∧
      ∀ event ∈ traceOf j before, event.isDropped = false := by
    cases event with
    | verifyCalled | handlerEntered | settleCalled => exact hordered
    | _ => contradiction
  obtain ⟨⟨own, reading, generation, hkey, hreserved⟩, hheld⟩ := hneeds
  obtain ⟨reservedAt, hreserved⟩ := mem_traceOf.mp hreserved
  refine ⟨own, hkey, ⟨reservedAt, reading, generation, hreserved⟩, ?_⟩
  intro time handle now hdropped
  have hflag := hheld _ (mem_traceOf.mpr ⟨time, hdropped⟩)
  contradiction

theorem mayProceed (hinv : SystemInvariant sys prior state events)
    (hevents : events = before ++ after) {j : ℕ} {key : String}
    (hholds : HoldsKey j key before) : MayProceed sys key before j where
  holds := hholds
  exclusive _ hne hother := hinv.exclusive hevents hne hother hholds
  retained _ _ hkey hended _ _ _ hreserved :=
    hinv.retained hevents hreserved hholds.2 hkey hended

theorem mayCharge (hinv : SystemInvariant sys prior state events) {j : ℕ}
    {time : Instant} {payload : PaymentPayload} {requirements : PaymentRequirements}
    (hevents : events = before ++ ⟨j, time, .settleCalled payload requirements⟩ :: after)
    {key : String} (hholds : HoldsKey j key before) : MayCharge sys key before time := by
  intro i charged payload' requirements' hkey hcharged
  have hne : i ≠ j := by
    rintro rfl
    have hfirst := (hinv.histories i).ordered _ _ _ (by rw [hevents, traceOf_split])
    have hzero := List.countP_eq_zero.mp (hfirst.settle_first rfl) _
      (mem_traceOf.mpr ⟨charged, hcharged⟩)
    exact hzero rfl
  obtain ⟨start, rest, rfl⟩ := List.append_of_mem hcharged
  have hsplit : events = start ++ ⟨i, charged, .settleCalled payload' requirements'⟩ ::
      (rest ++ ⟨j, time, .settleCalled payload requirements⟩ :: after) := by
    simp [hevents]
  obtain ⟨own, hown, ⟨reservedAt, reading, generation, hreserved⟩, _⟩ :=
    hinv.holdsKey_of_protected hsplit rfl
  rw [hkey, Option.some_inj] at hown
  subst hown
  have hproceed := hinv.mayProceed hevents hholds
  -- It reserved the key and does not hold it any more.
  have hended : ∃ ended handle now, ⟨i, ended, .guard (.dropped handle now)⟩ ∈
      start ++ ⟨i, charged, .settleCalled payload' requirements'⟩ :: rest := by
    by_contra hnone
    simp only [not_exists] at hnone
    exact hproceed.exclusive i hne
      ⟨⟨reservedAt, reading, generation, List.mem_append_left _ hreserved⟩, hnone⟩
  obtain ⟨ended, handle, now, hdropped⟩ := hended
  refine ⟨ended, handle, now, hdropped, ?_⟩
  obtain ⟨⟨second, reading', generation', hsecond⟩, _⟩ := hholds
  have hdue := hproceed.retained i ended hkey
    ⟨⟨handle, now, hdropped⟩, Or.inl ⟨payload', requirements',
      mem_traceOf.mpr ⟨charged, by simp⟩⟩⟩ second reading' generation' hsecond
  exact hdue.trans (hinv.time_le hevents _ hsecond)

theorem replaySafe (hinv : SystemInvariant sys prior state events) :
    ReplaySafe sys events where
  proceed := by
    rintro before ⟨j, time, event⟩ after hevents hprotected
    obtain ⟨key, hkey, hholds⟩ := hinv.holdsKey_of_protected hevents hprotected
    exact ⟨key, hkey, hinv.mayProceed hevents hholds⟩
  charge := by
    rintro before ⟨j, time, event⟩ after hevents payload requirements rfl
    obtain ⟨key, hkey, hholds⟩ := hinv.holdsKey_of_protected hevents rfl
    exact ⟨key, hkey, hinv.mayCharge hevents hholds⟩

end SystemInvariant

/-- Any number of requests that share a guard which is not cleared, in any
interleaving of their steps: while one holds a key no other with that key gets
to the facilitator or the handler, and after one of them was charged none does
through a reserve made before the ttl has passed. -/
theorem systemMachine_replay_safe (sys : GateSystem) (calls : List GuardCall)
    (metrics : PaymentMetrics) (clock : Instant) (actions : List SystemAction) :
    let reached := (callMachine sys.guard sys.rt.clock).run GuardState.initial calls
    ReplaySafe sys ((systemMachine sys).run
      (.start ⟨reached.1.store, metrics⟩ clock) actions).2 :=
  (systemMachine_run_invariant sys calls metrics clock actions).replaySafe

end KiteX402
