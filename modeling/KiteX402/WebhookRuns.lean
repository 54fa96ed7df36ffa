/-
Deliveries over whole runs: none is attempted too often, and none comes back
once it is over.
-/
import KiteX402.WebhookInvariant
import Mathlib.Algebra.GroupWithZero.Nat
import Mathlib.Data.List.Nodup

namespace KiteX402

namespace WebhookDispatcher

/-- The ids handed out, oldest first. -/
def issuedIds (trace : List Reply) : List UInt64 :=
  trace.flatMap fun
    | .enqueued deliveryIds => deliveryIds
    | .attempted _ _ _ => []

/-- How the attempts on a delivery went, oldest first. -/
def outcomesOf (trace : List Reply) (deliveryId : UInt64) : List Bool :=
  trace.flatMap fun
    | .attempted own success (some _) => if own = deliveryId then [success] else []
    | _ => []

/-- A call returns the delivery. -/
def Returns (deliveryId : UInt64) : Reply → Prop
  | .enqueued deliveryIds => deliveryId ∈ deliveryIds
  | .attempted own _ record => own = deliveryId ∧ record.isSome

/-- The deliveries that a list of calls asks for. -/
def deliveries (config : WebhookConfig) (calls : List Call) : ℕ :=
  (calls.map fun
    | .enqueueEvent _ _ _ => config.targetUrls.length
    | .recordAttemptResult _ _ _ _ _ => 0).sum

/-- What the deliveries of a run look like at its end. -/
structure Safe (config : WebhookConfig) (hash : SystemTime → UInt64)
    (calls : List Call) : Prop where
  queueBound : (run config hash calls).1.queue.length ≤ config.maxQueueSize
  historyBound : (run config hash calls).1.history.length ≤ config.maxQueueSize
  issuedOnce : (issuedIds (run config hash calls).2).Nodup
  heldOnce : (ids ((run config hash calls).1.queue ++
    (run config hash calls).1.history)).Nodup
  counted : ∀ record ∈ (run config hash calls).1.queue ++ (run config hash calls).1.history,
    record.attempts.toNat =
      (outcomesOf (run config hash calls).2 record.deliveryId).length
  queued : ∀ record ∈ (run config hash calls).1.queue,
    record.attempts.toNat ≤ config.maxRetries.toNat ∧
    (record.status = .pending ↔ record.attempts = 0) ∧
    (record.attempts ≠ 0 → record.status = .failed)
  finished : ∀ record ∈ (run config hash calls).1.history,
    (record.status = .delivered ∧ 1 ≤ record.attempts.toNat ∧
      record.attempts.toNat ≤ config.maxRetries.toNat + 1) ∨
    (record.status = .abandoned ∧
      record.attempts.toNat = config.maxRetries.toNat + 1 ∧
      true ∉ outcomesOf (run config hash calls).2 record.deliveryId)
  gone : ∀ before after, calls = before ++ after →
    ∀ deliveryId ∈ issuedIds (run config hash before).2,
      deliveryId ∉ ids (run config hash before).1.queue →
      deliveryId ∉ ids (run config hash calls).1.queue ∧
      ∀ reply ∈ ((machine config hash).run (run config hash before).1 after).2,
        ¬ Returns deliveryId reply

section Step

variable {config : WebhookConfig} {hash : SystemTime → UInt64} {state : WebhookState}
  {trace : List Reply}

/-- The trace agrees with the state reached. -/
structure Follows (config : WebhookConfig) (state : WebhookState)
    (trace : List Reply) : Prop where
  tracked : Tracked config state (issuedIds trace).length (outcomesOf trace)
  issued : issuedIds trace = (List.range (issuedIds trace).length).map deliveryNumber

theorem issuedIds_concat (trace : List Reply) (reply : Reply) :
    issuedIds (trace ++ [reply]) = issuedIds trace ++ issuedIds [reply] :=
  List.flatMap_append

theorem outcomesOf_concat (trace : List Reply) (reply : Reply) (deliveryId : UInt64) :
    outcomesOf (trace ++ [reply]) deliveryId =
      outcomesOf trace deliveryId ++ outcomesOf [reply] deliveryId :=
  List.flatMap_append

theorem length_enqueueAll (config : WebhookConfig) (payload : WebhookPayload)
    (state : WebhookState) (targets : List String) :
    (enqueueAll config payload state targets).2.length = targets.length := by
  induction targets generalizing state with
  | nil => rfl
  | cons target targets ih =>
      rw [enqueueAll, List.length_cons, List.length_cons, ih]

theorem Follows.enqueue (hfollows : Follows config state trace)
    (hroom : 1 ≤ config.maxQueueSize) (payload : WebhookPayload)
    (hfew : (issuedIds trace).length + config.targetUrls.length ≤ 2 ^ 64) :
    Follows config (enqueueAll config payload state config.targetUrls).1
      (trace ++ [.enqueued (enqueueAll config payload state config.targetUrls).2]) := by
  obtain ⟨htracked, hids⟩ :=
    hfollows.tracked.enqueueAll hroom payload config.targetUrls hfew
  have hlist : issuedIds [.enqueued (enqueueAll config payload state config.targetUrls).2] =
      (enqueueAll config payload state config.targetUrls).2 := List.append_nil _
  have hlength : (issuedIds (trace ++
      [.enqueued (enqueueAll config payload state config.targetUrls).2])).length =
      (issuedIds trace).length + config.targetUrls.length := by
    rw [issuedIds_concat, hlist, List.length_append, length_enqueueAll]
  have houtcomes : outcomesOf (trace ++
      [.enqueued (enqueueAll config payload state config.targetUrls).2]) =
      outcomesOf trace := by
    funext deliveryId
    rw [outcomesOf_concat]
    exact List.append_nil _
  constructor
  · rw [hlength, houtcomes]
    exact htracked
  · rw [hlength, issuedIds_concat, hlist, hids, List.range_add, List.map_append,
      ← hfollows.issued, List.map_map]
    rfl

theorem Follows.attempt (hfollows : Follows config state trace)
    (hroom : 1 ≤ config.maxQueueSize) (hlimit : config.maxRetries.toNat < 2 ^ 32 - 1)
    (deliveryId : UInt64) (success : Bool) (statusCode : Option UInt16)
    (errorMsg : Option String) (now : SystemTime) :
    Follows config
      (recordAttemptResult config state deliveryId success statusCode errorMsg now).1
      (trace ++ [.attempted deliveryId success
        (recordAttemptResult config state deliveryId success statusCode errorMsg now).2]) := by
  have hissued : ∀ record, issuedIds (trace ++ [.attempted deliveryId success record]) =
      issuedIds trace := by
    intro record
    rw [issuedIds_concat]
    exact List.append_nil _
  constructor
  · rw [hissued]
    rcases hfollows.tracked.attempt hroom hlimit deliveryId success statusCode errorMsg now
      with ⟨_, heq⟩ | ⟨_, hsome, _, htracked⟩
    · have houtcomes : outcomesOf (trace ++ [.attempted deliveryId success none]) =
          outcomesOf trace := by
        funext other
        rw [outcomesOf_concat]
        exact List.append_nil _
      rw [heq, houtcomes]
      exact hfollows.tracked
    · obtain ⟨record, hrecord⟩ := Option.isSome_iff_exists.mp hsome
      have houtcomes : outcomesOf (trace ++
          [.attempted deliveryId success (some record)]) =
          addOutcome (outcomesOf trace) deliveryId success := by
        funext other
        rw [outcomesOf_concat]
        by_cases hother : other = deliveryId
        · subst hother
          rw [addOutcome_self]
          simp [outcomesOf]
        · rw [addOutcome_of_ne hother]
          simp [outcomesOf, Ne.symm hother]
      rw [hrecord, houtcomes]
      exact htracked
  · rw [hissued]
    exact hfollows.issued

theorem Follows.nodup (hfollows : Follows config state trace)
    (hfew : (issuedIds trace).length ≤ 2 ^ 64) : (issuedIds trace).Nodup := by
  rw [hfollows.issued]
  refine List.Nodup.map_on (fun i hi j hj heq => ?_) List.nodup_range
  rw [List.mem_range] at hi hj
  exact deliveryNumber_injective (hi.trans_le hfew) (hj.trans_le hfew) heq

theorem Follows.step (hfollows : Follows config state trace)
    (hroom : 1 ≤ config.maxQueueSize) (hlimit : config.maxRetries.toNat < 2 ^ 32 - 1)
    {call : Call}
    (hfew : (issuedIds (trace ++ (WebhookDispatcher.step config hash state call).2)).length
      ≤ 2 ^ 64) :
    Follows config (WebhookDispatcher.step config hash state call).1
      (trace ++ (WebhookDispatcher.step config hash state call).2) := by
  cases call with
  | enqueueEvent event now idNow =>
      refine hfollows.enqueue hroom (eventPayload hash event now idNow) ?_
      have hlength := length_enqueueAll config (eventPayload hash event now idNow) state
        config.targetUrls
      simp only [WebhookDispatcher.step, enqueueEvent, issuedIds_concat,
        List.length_append] at hfew
      rw [← hlength]
      simpa [issuedIds] using hfew
  | recordAttemptResult deliveryId success statusCode errorMsg now =>
      exact hfollows.attempt hroom hlimit deliveryId success statusCode errorMsg now

theorem mem_ids_enqueueAll {payload : WebhookPayload} {targets : List String}
    {deliveryId : UInt64}
    (hmem : deliveryId ∈ ids (enqueueAll config payload state targets).1.queue) :
    deliveryId ∈ ids state.queue ∨
      deliveryId ∈ (enqueueAll config payload state targets).2 := by
  induction targets generalizing state with
  | nil => exact Or.inl hmem
  | cons target targets ih =>
      rcases ih hmem with hfirst | hrest
      · obtain ⟨record, hrecord, rfl⟩ := List.mem_map.mp hfirst
        rcases mem_pushBounded hrecord with hold | rfl
        · exact Or.inl (List.mem_map_of_mem hold)
        · exact Or.inr List.mem_cons_self
      · exact Or.inr (List.mem_cons_of_mem _ hrest)

/-- A delivery that was issued and is not queued is over. -/
theorem Follows.over_step (hfollows : Follows config state trace)
    (hroom : 1 ≤ config.maxQueueSize) (hlimit : config.maxRetries.toNat < 2 ^ 32 - 1)
    {call : Call}
    (hfew : (issuedIds (trace ++ (WebhookDispatcher.step config hash state call).2)).length
      ≤ 2 ^ 64)
    {deliveryId : UInt64} (hissued : deliveryId ∈ issuedIds trace)
    (hgone : deliveryId ∉ ids state.queue) :
    deliveryId ∉ ids (WebhookDispatcher.step config hash state call).1.queue ∧
      ∀ reply ∈ (WebhookDispatcher.step config hash state call).2,
        ¬ Returns deliveryId reply := by
  have hnodup := (hfollows.step hroom hlimit hfew).nodup hfew
  cases call with
  | enqueueEvent event now idNow =>
      have hfresh : deliveryId ∉ (enqueueEvent config hash state event now idNow).2 := by
        simp only [WebhookDispatcher.step, issuedIds_concat] at hnodup
        intro hmem
        have hdisjoint := (List.nodup_append.mp hnodup).2.2 deliveryId hissued deliveryId
        exact hdisjoint (by simpa [issuedIds] using hmem) rfl
      refine ⟨fun hmem => ?_, fun reply hreply => ?_⟩
      · exact (mem_ids_enqueueAll hmem).elim hgone hfresh
      · rw [List.mem_singleton.mp hreply]
        exact hfresh
  | recordAttemptResult own success statusCode errorMsg now =>
      rcases hfollows.tracked.attempt hroom hlimit own success statusCode errorMsg now
        with ⟨_, heq⟩ | ⟨hown, _, hqueue, _⟩
      · simp only [WebhookDispatcher.step, heq]
        refine ⟨hgone, fun reply hreply => ?_⟩
        rw [List.mem_singleton.mp hreply]
        exact fun hreturns => (nomatch hreturns.2)
      · refine ⟨fun hmem => hgone (hqueue _ hmem), fun reply hreply => ?_⟩
        rw [List.mem_singleton.mp hreply]
        rintro ⟨rfl, _⟩
        exact hgone hown

end Step

section Run

variable {config : WebhookConfig} {hash : SystemTime → UInt64}

theorem run_concat (calls : List Call) (call : Call) :
    run config hash (calls ++ [call]) =
      ((step config hash (run config hash calls).1 call).1,
        (run config hash calls).2 ++ (step config hash (run config hash calls).1 call).2) :=
  Machine.run_concat _ _ _ _

theorem length_issuedIds (hash : SystemTime → UInt64) (calls : List Call) :
    (issuedIds (run config hash calls).2).length = deliveries config calls := by
  induction calls using List.reverseRecOn with
  | nil => rfl
  | append_singleton calls call ih =>
      have hsum : deliveries config (calls ++ [call]) =
          deliveries config calls + deliveries config [call] := by
        simp [deliveries]
      rw [run_concat, hsum, ← ih]
      cases call with
      | enqueueEvent event now idNow =>
          have hlength := length_enqueueAll config (eventPayload hash event now idNow)
            (run config hash calls).1 config.targetUrls
          simp only [step, issuedIds_concat, List.length_append]
          congr 1
          simpa [issuedIds, deliveries, enqueueEvent] using hlength
      | recordAttemptResult deliveryId success statusCode errorMsg now =>
          simp only [step, issuedIds_concat, List.length_append]
          congr 1

theorem deliveries_append (config : WebhookConfig) (first last : List Call) :
    deliveries config (first ++ last) = deliveries config first + deliveries config last := by
  simp [deliveries]

theorem run_follows (hash : SystemTime → UInt64) (hroom : 1 ≤ config.maxQueueSize)
    (hlimit : config.maxRetries.toNat < 2 ^ 32 - 1) {calls : List Call}
    (hfew : deliveries config calls ≤ 2 ^ 64) :
    Follows config (run config hash calls).1 (run config hash calls).2 := by
  induction calls using List.reverseRecOn with
  | nil => exact ⟨initial_tracked config, rfl⟩
  | append_singleton calls call ih =>
      have hbefore : deliveries config calls ≤ 2 ^ 64 := by
        rw [deliveries_append] at hfew
        omega
      rw [← length_issuedIds hash, run_concat] at hfew
      rw [run_concat]
      exact (ih hbefore).step hroom hlimit hfew

/-- What is over stays over. -/
theorem run_over (hroom : 1 ≤ config.maxQueueSize)
    (hlimit : config.maxRetries.toNat < 2 ^ 32 - 1) {before after : List Call}
    (hfew : deliveries config (before ++ after) ≤ 2 ^ 64) {deliveryId : UInt64}
    (hissued : deliveryId ∈ issuedIds (run config hash before).2)
    (hgone : deliveryId ∉ ids (run config hash before).1.queue) :
    deliveryId ∈ issuedIds (run config hash (before ++ after)).2 ∧
    deliveryId ∉ ids (run config hash (before ++ after)).1.queue ∧
      ∀ reply ∈ ((machine config hash).run (run config hash before).1 after).2,
        ¬ Returns deliveryId reply := by
  induction after using List.reverseRecOn with
  | nil =>
      rw [List.append_nil]
      exact ⟨hissued, hgone, fun reply hreply => absurd hreply List.not_mem_nil⟩
  | append_singleton after call ih =>
      have hbefore : deliveries config (before ++ after) ≤ 2 ^ 64 := by
        rw [← List.append_assoc, deliveries_append] at hfew
        omega
      obtain ⟨hissued', hgone', hreplies⟩ := ih hbefore
      rw [← List.append_assoc, ← length_issuedIds hash, run_concat] at hfew
      have hstate : ((machine config hash).run (run config hash before).1 after).1 =
          (run config hash (before ++ after)).1 := by
        rw [run, run, Machine.run_append]
      obtain ⟨hstep, hreply⟩ :=
        (run_follows hash hroom hlimit hbefore).over_step hroom hlimit hfew hissued' hgone'
      rw [← List.append_assoc, run_concat, Machine.run_concat, hstate]
      refine ⟨?_, hstep, fun reply hmem => ?_⟩
      · rw [issuedIds, List.flatMap_append]
        exact List.mem_append_left _ hissued'
      · rcases List.mem_append.mp hmem with hold | hnew
        · exact hreplies reply hold
        · exact hreply reply hnew

/-- The dispatcher is safe in every run that asks for at most `2 ^ 64`
deliveries. -/
theorem run_safe (hroom : 1 ≤ config.maxQueueSize)
    (hlimit : config.maxRetries.toNat < 2 ^ 32 - 1) {calls : List Call}
    (hfew : deliveries config calls ≤ 2 ^ 64) : Safe config hash calls := by
  have hfollows := run_follows hash hroom hlimit hfew
  have htracked := hfollows.tracked
  exact {
    queueBound := htracked.queueBound
    historyBound := htracked.historyBound
    issuedOnce := hfollows.nodup (by rw [length_issuedIds]; exact hfew)
    heldOnce := htracked.nodup
    counted := by
      intro record hrecord
      rcases List.mem_append.mp hrecord with hqueue | hhistory
      · exact (htracked.queued record hqueue).attempts
      · exact (htracked.finished record hhistory).attempts
    queued := by
      intro record hrecord
      have hqueued := htracked.queued record hrecord
      refine ⟨hqueued.bounded, ?_, fun hne => ?_⟩
      · rw [hqueued.status]
        split <;> simp [*]
      · rw [hqueued.status, if_neg hne]
    finished := by
      intro record hrecord
      have hfinished := htracked.finished record hrecord
      rcases hfinished.status with hdelivered | habandoned
      · exact Or.inl ⟨hdelivered, hfinished.pos, hfinished.bounded⟩
      · exact Or.inr habandoned
    gone := by
      rintro before after rfl deliveryId hissued hgone
      exact (run_over hroom hlimit hfew hissued hgone).2 }

end Run

end WebhookDispatcher

namespace WebhookWitness

open WebhookDispatcher

def settled : WebhookEvent :=
  ⟨.paymentSettled, some "0x1234", some "eip155:2368", some "5000000", some "0xabc", none⟩

/-- Two targets and one retry. -/
def pair : WebhookConfig := ⟨["https://a.example/hook", "https://b.example/hook"], 1, 50⟩

/-- One delivery succeeds at its second attempt, the other is given up. -/
def attempts : List Call :=
  [.enqueueEvent settled 1000000 1000000, .recordAttemptResult 1 false (some 500) none 2,
    .recordAttemptResult 2 false none (some "timeout") 3,
    .recordAttemptResult 1 true (some 200) none 4,
    .recordAttemptResult 2 false (some 500) none 5]

theorem attempts_safe : Safe pair (fun _ => 0) attempts :=
  run_safe (by decide) (by decide) (by decide)

/-- A queue of one delivery. -/
def single : WebhookConfig := ⟨["https://a.example/hook"], 0, 1⟩

def enqueue : Call := .enqueueEvent settled 1000000 1000000

def queuedDelivery (deliveryId : UInt64) : WebhookDeliveryRecord :=
  newDelivery single (eventPayload (fun _ => 0) settled 1000000 1000000) deliveryId
    "https://a.example/hook"

/-- Each delivery takes the place of the one before it. -/
theorem run_enqueue (state : WebhookState) (hshort : state.queue.length ≤ 1) (n : ℕ) :
    ((machine single fun _ => 0).run state (List.replicate (n + 1) enqueue)).1 =
      ⟨state.nextDeliveryId + UInt64.ofNat (n + 1),
        [queuedDelivery (state.nextDeliveryId + UInt64.ofNat n)], state.history⟩ := by
  have hone : ∀ state : WebhookState, state.queue.length ≤ 1 →
      (step single (fun _ => 0) state enqueue).1 =
        ⟨state.nextDeliveryId + 1, [queuedDelivery state.nextDeliveryId],
          state.history⟩ := by
    intro state hstate
    simp only [step, enqueue, enqueueEvent, enqueueAll, enqueueFor, single,
      pushBounded_one hstate]
    rfl
  induction n with
  | zero =>
      rw [List.replicate_one, Machine.run_singleton]
      simp only [machine, hone state hshort]
      simp
  | succ n ih =>
      rw [List.replicate_succ', Machine.run_concat, ih]
      simp only [machine, hone ⟨_, [queuedDelivery _], _⟩ (Nat.le_refl 1)]
      rw [UInt64.ofNat_add (n + 1) 1, ← UInt64.add_assoc]
      rfl

/-- The first delivery is over when the ids start again. -/
def wrapping (n : ℕ) : List Call :=
  [enqueue, .recordAttemptResult 1 true (some 200) none 2] ++ List.replicate (n + 1) enqueue

theorem run_wrapping (n : ℕ) :
    ids ((run single (fun _ => 0) (wrapping n)).1.queue ++
      (run single (fun _ => 0) (wrapping n)).1.history) = [2 + UInt64.ofNat n, 1] := by
  have hstart : ∃ record,
      ((machine single fun _ => 0).run initial
        [enqueue, .recordAttemptResult 1 true (some 200) none 2]).1 = ⟨2, [], [record]⟩ ∧
      record.deliveryId = 1 := ⟨_, rfl, rfl⟩
  obtain ⟨record, hstate, hid⟩ := hstart
  have hend := run_enqueue ⟨2, [], [record]⟩ (Nat.zero_le 1) n
  rw [run, wrapping, Machine.run_append, hstate]
  simp only [hend]
  simp [ids, hid, queuedDelivery, newDelivery]

/-- One more delivery than there are ids, and an id is in the queue and in the
history. -/
theorem wrapping_not_safe : ¬ Safe single (fun _ => 0) (wrapping (2 ^ 64 - 1)) := by
  intro hsafe
  have hnodup := hsafe.heldOnce
  rw [run_wrapping] at hnodup
  have hsame : (2 : UInt64) + UInt64.ofNat (2 ^ 64 - 1) = 1 := by decide
  rw [hsame] at hnodup
  simp at hnodup

end WebhookWitness

end KiteX402
