/-
What holds of the deliveries in the queue and in the history, given how many
were issued and how the attempts on each went.
-/
import KiteX402.Webhook
import Mathlib.Tactic.Tauto

namespace KiteX402

namespace WebhookDispatcher

/-- The id of a delivery by the number of deliveries issued before it. -/
def deliveryNumber (i : ℕ) : UInt64 := UInt64.ofNat (i + 1)

theorem deliveryNumber_injective {i j : ℕ} (hi : i < 2 ^ 64) (hj : j < 2 ^ 64)
    (heq : deliveryNumber i = deliveryNumber j) : i = j := by
  have hnat := congrArg UInt64.toNat heq
  rw [deliveryNumber, deliveryNumber, UInt64.toNat_ofNat', UInt64.toNat_ofNat'] at hnat
  omega

theorem deliveryNumber_succ (i : ℕ) : deliveryNumber i + 1 = deliveryNumber (i + 1) :=
  (UInt64.ofNat_add (i + 1) 1).symm

/-- The id is one of the first `count` that were issued. -/
def Issued (count : ℕ) (deliveryId : UInt64) : Prop :=
  ∃ i < count, deliveryNumber i = deliveryId

theorem Issued.mono {count later : ℕ} {deliveryId : UInt64} (h : Issued count deliveryId)
    (hle : count ≤ later) : Issued later deliveryId := by
  obtain ⟨i, hi, heq⟩ := h
  exact ⟨i, hi.trans_le hle, heq⟩

theorem not_issued_next {count : ℕ} (hfew : count < 2 ^ 64) :
    ¬ Issued count (deliveryNumber count) := by
  rintro ⟨i, hi, heq⟩
  exact hi.ne (deliveryNumber_injective (hi.trans hfew) hfew heq)

/-- A delivery in the queue, with how the attempts on it went. -/
structure Queued (config : WebhookConfig) (outcomes : List Bool)
    (record : WebhookDeliveryRecord) : Prop where
  maxRetries : record.maxRetries = config.maxRetries
  attempts : record.attempts.toNat = outcomes.length
  failures : true ∉ outcomes
  bounded : record.attempts.toNat ≤ config.maxRetries.toNat
  status : record.status = if record.attempts = 0 then .pending else .failed

/-- A delivery in the history. -/
structure Finished (config : WebhookConfig) (outcomes : List Bool)
    (record : WebhookDeliveryRecord) : Prop where
  attempts : record.attempts.toNat = outcomes.length
  pos : 1 ≤ record.attempts.toNat
  bounded : record.attempts.toNat ≤ config.maxRetries.toNat + 1
  status : record.status = .delivered ∨ record.status = .abandoned ∧
    record.attempts.toNat = config.maxRetries.toNat + 1 ∧ true ∉ outcomes

def ids (records : List WebhookDeliveryRecord) : List UInt64 :=
  records.map WebhookDeliveryRecord.deliveryId

theorem mem_ids {records : List WebhookDeliveryRecord} {record : WebhookDeliveryRecord}
    (hmem : record ∈ records) : record.deliveryId ∈ ids records :=
  List.mem_map_of_mem hmem

/-- The state of the dispatcher after `count` deliveries were issued. -/
structure Tracked (config : WebhookConfig) (state : WebhookState) (count : ℕ)
    (outcomes : UInt64 → List Bool) : Prop where
  next : state.nextDeliveryId = deliveryNumber count
  nodup : (ids (state.queue ++ state.history)).Nodup
  issued : ∀ deliveryId ∈ ids (state.queue ++ state.history), Issued count deliveryId
  untried : ∀ deliveryId, ¬ Issued count deliveryId → outcomes deliveryId = []
  queueBound : state.queue.length ≤ config.maxQueueSize
  historyBound : state.history.length ≤ config.maxQueueSize
  queued : ∀ record ∈ state.queue, Queued config (outcomes record.deliveryId) record
  finished : ∀ record ∈ state.history,
    Finished config (outcomes record.deliveryId) record

theorem initial_tracked (config : WebhookConfig) :
    Tracked config initial 0 fun _ => [] where
  next := rfl
  nodup := List.nodup_nil
  issued _ hmem := absurd hmem List.not_mem_nil
  untried _ _ := rfl
  queueBound := Nat.zero_le _
  historyBound := Nat.zero_le _
  queued _ hmem := absurd hmem List.not_mem_nil
  finished _ hmem := absurd hmem List.not_mem_nil

section Enqueue

variable {config : WebhookConfig} {state : WebhookState} {count : ℕ}
  {outcomes : UInt64 → List Bool}

theorem newDelivery_queued (config : WebhookConfig) (payload : WebhookPayload)
    (deliveryId : UInt64) (target : String) :
    Queued config [] (newDelivery config payload deliveryId target) where
  maxRetries := rfl
  attempts := rfl
  failures := nofun
  bounded := Nat.zero_le _
  status := rfl

/-- Queueing one more delivery. -/
theorem Tracked.enqueueFor (htracked : Tracked config state count outcomes)
    (hroom : 1 ≤ config.maxQueueSize) (hfew : count < 2 ^ 64)
    (payload : WebhookPayload) (target : String) :
    Tracked config (enqueueFor config payload state target) (count + 1) outcomes := by
  have hnew : ¬ Issued count state.nextDeliveryId := by
    rw [htracked.next]
    exact not_issued_next hfew
  have hlater : Issued (count + 1) state.nextDeliveryId :=
    ⟨count, Nat.lt_succ_self count, htracked.next.symm⟩
  obtain ⟨kept, hkept, hpush⟩ := pushBounded_eq config.maxQueueSize state.queue
    (newDelivery config payload state.nextDeliveryId target)
  have hsub : (ids (kept ++ state.history)).Sublist (ids (state.queue ++ state.history)) :=
    (hkept.append (List.Sublist.refl _)).map _
  have hperm : (ids ((kept ++ [newDelivery config payload state.nextDeliveryId target]) ++
      state.history)).Perm (state.nextDeliveryId :: ids (kept ++ state.history)) := by
    rw [List.append_assoc, List.singleton_append]
    exact List.perm_middle.map _
  have hqueue : (WebhookDispatcher.enqueueFor config payload state target).queue =
      kept ++ [newDelivery config payload state.nextDeliveryId target] := hpush
  constructor
  · exact (congrArg (· + 1) htracked.next).trans (deliveryNumber_succ count)
  · rw [hqueue]
    refine hperm.nodup_iff.mpr (List.nodup_cons.mpr ⟨fun hmem => ?_, ?_⟩)
    · exact hnew (htracked.issued _ (hsub.mem hmem))
    · exact htracked.nodup.sublist hsub
  · rw [hqueue]
    intro deliveryId hmem
    rcases List.mem_cons.mp (hperm.mem_iff.mp hmem) with rfl | hold
    · exact hlater
    · exact (htracked.issued _ (hsub.mem hold)).mono (Nat.le_succ count)
  · intro deliveryId hnone
    exact htracked.untried _ fun h => hnone (h.mono (Nat.le_succ count))
  · exact length_pushBounded_le hroom htracked.queueBound _
  · exact htracked.historyBound
  · rw [hqueue]
    intro record hrecord
    rcases List.mem_append.mp hrecord with hold | hlast
    · exact htracked.queued record (hkept.mem hold)
    · rw [List.mem_singleton] at hlast
      subst hlast
      have huntried : outcomes state.nextDeliveryId = [] := htracked.untried _ hnew
      have hqueued := newDelivery_queued config payload state.nextDeliveryId target
      rw [← huntried] at hqueued
      exact hqueued
  · exact htracked.finished

/-- Queueing an event for all its targets. -/
theorem Tracked.enqueueAll (hroom : 1 ≤ config.maxQueueSize) (payload : WebhookPayload)
    (targets : List String) (htracked : Tracked config state count outcomes)
    (hfew : count + targets.length ≤ 2 ^ 64) :
    Tracked config (enqueueAll config payload state targets).1
        (count + targets.length) outcomes ∧
      (enqueueAll config payload state targets).2 =
        (List.range targets.length).map fun i => deliveryNumber (count + i) := by
  induction targets generalizing state count with
  | nil => exact ⟨htracked, rfl⟩
  | cons target targets ih =>
      rw [List.length_cons] at hfew
      have hfirst := htracked.enqueueFor hroom (by omega) payload target
      obtain ⟨hrest, hids⟩ := ih hfirst (by omega)
      have hcount : count + 1 + targets.length = count + (targets.length + 1) := by omega
      rw [hcount] at hrest
      refine ⟨hrest, ?_⟩
      simp only [WebhookDispatcher.enqueueAll, List.length_cons, List.range_succ_eq_map,
        List.map_cons, List.map_map, Nat.add_zero]
      rw [hids, htracked.next]
      congr 1
      apply List.map_congr_left
      intro i _
      exact congrArg deliveryNumber (by omega)

end Enqueue

section Attempt

variable {config : WebhookConfig} {state : WebhookState} {count : ℕ}
  {outcomes : UInt64 → List Bool}

/-- The record after an attempt, which may leave it in the queue. -/
structure Tries (record tried : WebhookDeliveryRecord) : Prop where
  deliveryId : tried.deliveryId = record.deliveryId
  maxRetries : tried.maxRetries = record.maxRetries
  attempts : tried.attempts = record.attempts + 1

/-- What recording an attempt does: nothing for a delivery that is not queued;
otherwise it ends the delivery or queues it again. -/
theorem recordAttemptResult_cases (config : WebhookConfig) (state : WebhookState)
    (deliveryId : UInt64) (success : Bool) (statusCode : Option UInt16)
    (errorMsg : Option String) (now : SystemTime) :
    (deliveryId ∉ ids state.queue ∧
      recordAttemptResult config state deliveryId success statusCode errorMsg now =
        (state, none)) ∨
    ∃ first record last tried, state.queue = first ++ record :: last ∧
      record.deliveryId = deliveryId ∧ Tries record tried ∧
      ((success = true ∨ record.maxRetries < record.attempts + 1) ∧
        tried.status = (if success then .delivered else .abandoned) ∧
        recordAttemptResult config state deliveryId success statusCode errorMsg now =
          ({ state with
            queue := first ++ last
            history := pushBounded config.maxQueueSize state.history tried },
            some tried) ∨
      success = false ∧ record.attempts + 1 ≤ record.maxRetries ∧
        tried.status = .failed ∧
        recordAttemptResult config state deliveryId success statusCode errorMsg now =
          ({ state with queue := first ++ last ++ [tried] }, some tried)) := by
  cases hfind : state.queue.find? fun record => record.deliveryId = deliveryId with
  | none =>
      refine Or.inl ⟨fun hmem => ?_, by simp only [recordAttemptResult, hfind]⟩
      obtain ⟨record, hrecord, hid⟩ := List.mem_map.mp hmem
      have hnot := List.find?_eq_none.mp hfind record hrecord
      simp [hid] at hnot
  | some record =>
      right
      obtain ⟨hid, first, last, hqueue, hfirst⟩ := List.find?_eq_some_iff_append.mp hfind
      have hid' : record.deliveryId = deliveryId := of_decide_eq_true hid
      have herase : (state.queue.eraseP fun record => record.deliveryId = deliveryId) =
          first ++ last := by
        rw [hqueue, List.eraseP_append_right _ (by simpa using hfirst)]
        simp [hid']
      cases success with
      | true =>
          refine ⟨first, record, last,
            { countAttempt record statusCode errorMsg now with status := .delivered },
            hqueue, hid', ⟨rfl, rfl, rfl⟩, Or.inl ⟨Or.inl rfl, rfl, ?_⟩⟩
          simp only [recordAttemptResult, hfind, herase, if_true]
      | false =>
          by_cases hover : record.maxRetries < record.attempts + 1
          · refine ⟨first, record, last,
              { countAttempt record statusCode errorMsg now with status := .abandoned },
              hqueue, hid', ⟨rfl, rfl, rfl⟩, Or.inl ⟨Or.inr hover, rfl, ?_⟩⟩
            simp only [recordAttemptResult, hfind, herase, countAttempt, hover, if_true,
              Bool.false_eq_true, if_false]
          · refine ⟨first, record, last,
              { countAttempt record statusCode errorMsg now with status := .failed },
              hqueue, hid', ⟨rfl, rfl, rfl⟩,
              Or.inr ⟨rfl, UInt32.not_lt.mp hover, rfl, ?_⟩⟩
            simp only [recordAttemptResult, hfind, herase, countAttempt, hover, if_false,
              Bool.false_eq_true]

/-- How the attempts went after one more on a delivery. -/
def addOutcome (outcomes : UInt64 → List Bool) (deliveryId : UInt64) (success : Bool) :
    UInt64 → List Bool :=
  fun other => if other = deliveryId then outcomes deliveryId ++ [success]
    else outcomes other

theorem addOutcome_self (outcomes : UInt64 → List Bool) (deliveryId : UInt64)
    (success : Bool) :
    addOutcome outcomes deliveryId success deliveryId = outcomes deliveryId ++ [success] :=
  if_pos rfl

theorem addOutcome_of_ne {outcomes : UInt64 → List Bool} {deliveryId other : UInt64}
    (hne : other ≠ deliveryId) (success : Bool) :
    addOutcome outcomes deliveryId success other = outcomes other :=
  if_neg hne

/-- Everything but the record that is tried. -/
theorem Tracked.others (htracked : Tracked config state count outcomes)
    {first last : List WebhookDeliveryRecord} {record : WebhookDeliveryRecord}
    (hqueue : state.queue = first ++ record :: last) :
    (record.deliveryId :: ids (first ++ last ++ state.history)).Nodup := by
  have hperm : (ids (state.queue ++ state.history)).Perm
      (record.deliveryId :: ids (first ++ last ++ state.history)) := by
    rw [hqueue, List.append_assoc, List.append_assoc, List.cons_append]
    exact List.perm_middle.map _
  exact hperm.nodup_iff.mp htracked.nodup

theorem attempts_succ {record tried : WebhookDeliveryRecord} {outcomes : List Bool}
    (hlimit : config.maxRetries.toNat < 2 ^ 32 - 1)
    (hqueued : Queued config outcomes record) (htries : Tries record tried) :
    tried.attempts.toNat = record.attempts.toNat + 1 := by
  have hbound := hqueued.bounded
  rw [htries.attempts, UInt32.toNat_add, UInt32.toNat_one]
  apply Nat.mod_eq_of_lt
  omega

theorem finished_of_tries {record tried : WebhookDeliveryRecord} {outcomes : List Bool}
    {success : Bool} (hlimit : config.maxRetries.toNat < 2 ^ 32 - 1)
    (hqueued : Queued config outcomes record) (htries : Tries record tried)
    (hover : success = true ∨ record.maxRetries < record.attempts + 1)
    (hstatus : tried.status = (if success then .delivered else .abandoned)) :
    Finished config (outcomes ++ [success]) tried := by
  have hsucc := attempts_succ hlimit hqueued htries
  have hbound := hqueued.bounded
  refine ⟨?_, by omega, by omega, ?_⟩
  · rw [hsucc, hqueued.attempts, List.length_append, List.length_singleton]
  · cases success with
    | true => exact Or.inl hstatus
    | false =>
        have hmore := hover.resolve_left (by decide)
        rw [← htries.attempts, UInt32.lt_iff_toNat_lt, hqueued.maxRetries] at hmore
        refine Or.inr ⟨hstatus, by omega, fun hmem => ?_⟩
        rcases List.mem_append.mp hmem with hold | hlast
        · exact hqueued.failures hold
        · simp at hlast

theorem queued_of_tries {record tried : WebhookDeliveryRecord} {outcomes : List Bool}
    (hlimit : config.maxRetries.toNat < 2 ^ 32 - 1)
    (hqueued : Queued config outcomes record) (htries : Tries record tried)
    (hmore : record.attempts + 1 ≤ record.maxRetries) (hstatus : tried.status = .failed) :
    Queued config (outcomes ++ [false]) tried := by
  have hsucc := attempts_succ hlimit hqueued htries
  constructor
  · rw [htries.maxRetries, hqueued.maxRetries]
  · rw [hsucc, hqueued.attempts, List.length_append, List.length_singleton]
  · intro hmem
    rcases List.mem_append.mp hmem with hold | hlast
    · exact hqueued.failures hold
    · simp at hlast
  · rw [← htries.attempts, hqueued.maxRetries] at hmore
    exact UInt32.le_iff_toNat_le.mp hmore
  · have hne : tried.attempts ≠ 0 := by
      intro hzero
      rw [hzero, UInt32.toNat_zero] at hsucc
      omega
    rw [hstatus, if_neg hne]

/-- A tried record takes the place of the one that was queued. -/
theorem Tracked.replace (htracked : Tracked config state count outcomes)
    {first last kept queue history : List WebhookDeliveryRecord}
    {record tried : WebhookDeliveryRecord} {success : Bool}
    (hqueue : state.queue = first ++ record :: last) (htries : Tries record tried)
    (hperm : (queue ++ history).Perm (tried :: kept))
    (hkept : kept.Sublist (first ++ last ++ state.history))
    (hqueueBound : queue.length ≤ config.maxQueueSize)
    (hhistoryBound : history.length ≤ config.maxQueueSize)
    (hqueued : ∀ other ∈ queue, other ∈ first ++ last ∨
      other = tried ∧ Queued config (outcomes record.deliveryId ++ [success]) tried)
    (hfinished : ∀ other ∈ history, other ∈ state.history ∨
      other = tried ∧ Finished config (outcomes record.deliveryId ++ [success]) tried) :
    Tracked config ⟨state.nextDeliveryId, queue, history⟩ count
      (addOutcome outcomes record.deliveryId success) := by
  have hothers := htracked.others hqueue
  have hids : (ids (queue ++ history)).Perm (record.deliveryId :: ids kept) := by
    rw [← htries.deliveryId]
    exact hperm.map _
  have hsub : (ids kept).Sublist (ids (first ++ last ++ state.history)) := hkept.map _
  have hrecord : record ∈ state.queue := by simp [hqueue]
  have hissued : Issued count record.deliveryId :=
    htracked.issued _ (mem_ids (List.mem_append_left _ hrecord))
  have hrest : ∀ other ∈ first ++ last ++ state.history,
      other.deliveryId ≠ record.deliveryId ∧ Issued count other.deliveryId := by
    intro other hother
    refine ⟨fun heq => (List.nodup_cons.mp hothers).1 (heq ▸ mem_ids hother), ?_⟩
    apply htracked.issued _ (mem_ids _)
    rw [hqueue]
    simp only [List.mem_append, List.mem_cons] at hother ⊢
    tauto
  constructor
  · exact htracked.next
  · refine hids.nodup_iff.mpr (List.nodup_cons.mpr ⟨fun hmem => ?_, ?_⟩)
    · exact (List.nodup_cons.mp hothers).1 (hsub.mem hmem)
    · exact (List.nodup_cons.mp hothers).2.sublist hsub
  · intro deliveryId hmem
    rcases List.mem_cons.mp (hids.mem_iff.mp hmem) with rfl | hold
    · exact hissued
    · obtain ⟨other, hother, rfl⟩ := List.mem_map.mp (hsub.mem hold)
      exact (hrest other hother).2
  · intro deliveryId hnone
    have hne : deliveryId ≠ record.deliveryId := by
      rintro rfl
      exact hnone hissued
    rw [addOutcome_of_ne hne]
    exact htracked.untried deliveryId hnone
  · exact hqueueBound
  · exact hhistoryBound
  · intro other hother
    rcases hqueued other hother with hold | ⟨rfl, htried⟩
    · rw [addOutcome_of_ne (hrest other (List.mem_append_left _ hold)).1]
      apply htracked.queued other
      rw [hqueue]
      simp only [List.mem_append, List.mem_cons] at hold ⊢
      tauto
    · rw [htries.deliveryId, addOutcome_self]
      exact htried
  · intro other hother
    rcases hfinished other hother with hold | ⟨rfl, htried⟩
    · rw [addOutcome_of_ne (hrest other (List.mem_append_right _ hold)).1]
      exact htracked.finished other hold
    · rw [htries.deliveryId, addOutcome_self]
      exact htried

/-- The delivery ends, and its record goes to the history. -/
theorem Tracked.ends (htracked : Tracked config state count outcomes)
    (hroom : 1 ≤ config.maxQueueSize) {first last : List WebhookDeliveryRecord}
    {record tried : WebhookDeliveryRecord} {success : Bool}
    (hqueue : state.queue = first ++ record :: last) (htries : Tries record tried)
    (hfinished : Finished config (outcomes record.deliveryId ++ [success]) tried) :
    Tracked config { state with
      queue := first ++ last
      history := pushBounded config.maxQueueSize state.history tried } count
      (addOutcome outcomes record.deliveryId success) := by
  have hbound := htracked.queueBound
  rw [hqueue, List.length_append, List.length_cons] at hbound
  obtain ⟨kept, hkept, hpush⟩ := pushBounded_eq config.maxQueueSize state.history tried
  refine htracked.replace hqueue htries ?_ ((List.Sublist.refl _).append hkept) ?_
    (length_pushBounded_le hroom htracked.historyBound tried)
    (fun other hother => Or.inl hother) ?_
  · rw [hpush, ← List.append_assoc]
    exact List.perm_append_singleton tried _
  · rw [List.length_append]
    omega
  · intro other hother
    rw [hpush] at hother
    rcases List.mem_append.mp hother with hold | hlast
    · exact Or.inl (hkept.mem hold)
    · exact Or.inr ⟨List.mem_singleton.mp hlast, hfinished⟩

/-- The delivery failed, and its record goes to the end of the queue. -/
theorem Tracked.requeues (htracked : Tracked config state count outcomes)
    {first last : List WebhookDeliveryRecord} {record tried : WebhookDeliveryRecord}
    {success : Bool} (hqueue : state.queue = first ++ record :: last)
    (htries : Tries record tried)
    (hqueued : Queued config (outcomes record.deliveryId ++ [success]) tried) :
    Tracked config { state with queue := first ++ last ++ [tried] } count
      (addOutcome outcomes record.deliveryId success) := by
  have hbound := htracked.queueBound
  rw [hqueue, List.length_append, List.length_cons] at hbound
  refine htracked.replace hqueue htries ?_ (List.Sublist.refl _) ?_ htracked.historyBound ?_
    (fun other hother => Or.inl hother)
  · rw [List.append_assoc, List.singleton_append]
    exact List.perm_middle
  · rw [List.length_append, List.length_append, List.length_singleton]
    omega
  · intro other hother
    rcases List.mem_append.mp hother with hold | hlast
    · exact Or.inl hold
    · exact Or.inr ⟨List.mem_singleton.mp hlast, hqueued⟩

/-- Recording an attempt. -/
theorem Tracked.attempt (htracked : Tracked config state count outcomes)
    (hroom : 1 ≤ config.maxQueueSize) (hlimit : config.maxRetries.toNat < 2 ^ 32 - 1)
    (deliveryId : UInt64) (success : Bool) (statusCode : Option UInt16)
    (errorMsg : Option String) (now : SystemTime) :
    (deliveryId ∉ ids state.queue ∧
      recordAttemptResult config state deliveryId success statusCode errorMsg now =
        (state, none)) ∨
    deliveryId ∈ ids state.queue ∧
      (recordAttemptResult config state deliveryId success statusCode errorMsg now).2.isSome ∧
      (∀ other ∈ ids (recordAttemptResult config state deliveryId success statusCode
        errorMsg now).1.queue, other ∈ ids state.queue) ∧
      Tracked config (recordAttemptResult config state deliveryId success statusCode
        errorMsg now).1 count (addOutcome outcomes deliveryId success) := by
  rcases recordAttemptResult_cases config state deliveryId success statusCode errorMsg now
    with hnone | ⟨first, record, last, tried, hqueue, rfl, htries, hcases⟩
  · exact Or.inl hnone
  · right
    have hrecord : record ∈ state.queue := by simp [hqueue]
    have hqueued := htracked.queued record hrecord
    have hrest : ∀ other ∈ ids (first ++ last), other ∈ ids state.queue := by
      intro other hother
      rw [hqueue]
      simp only [ids, List.map_append, List.map_cons, List.mem_append, List.mem_cons]
        at hother ⊢
      tauto
    refine ⟨mem_ids hrecord, ?_⟩
    rcases hcases with ⟨hover, hstatus, heq⟩ | ⟨rfl, hmore, hstatus, heq⟩
    · rw [heq]
      exact ⟨rfl, hrest, htracked.ends hroom hqueue htries
        (finished_of_tries hlimit hqueued htries hover hstatus)⟩
    · rw [heq]
      refine ⟨rfl, ?_, htracked.requeues hqueue htries
        (queued_of_tries hlimit hqueued htries hmore hstatus)⟩
      intro other hother
      simp only [ids, List.map_append, List.map_cons, List.map_nil, List.mem_append,
        List.mem_singleton, htries.deliveryId] at hother
      rcases hother with hold | rfl
      · exact hrest other (by simpa [ids] using hold)
      · exact mem_ids hrecord

end Attempt

end WebhookDispatcher

end KiteX402
