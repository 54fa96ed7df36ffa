/-
Which payment events get the same id.
-/
import KiteX402.Numeral
import KiteX402.WebhookRuns

namespace KiteX402

theorem digitChar_ne_underscore : ∀ digit < 16, Nat.digitChar digit ≠ '_' := by
  decide

theorem underscore_notMem_hexText (length number : ℕ) : '_' ∉ hexText length number := by
  intro hmem
  obtain ⟨i, -, hchar⟩ := List.mem_map.mp hmem
  exact digitChar_ne_underscore _ (Nat.mod_lt _ (by decide)) hchar

theorem underscore_notMem_toString (number : ℕ) : '_' ∉ (toString number).toList := by
  have hlist : (toString number).toList = Nat.toDigits 10 number := Nat.toList_repr
  intro hmem
  rw [hlist] at hmem
  exact absurd (Nat.isDigit_of_mem_toDigits (by decide) (by decide) hmem) (by decide)

/-- The upper half of the hash of a reading of the clock. -/
def idBits (hash : SystemTime → UInt64) (now : SystemTime) : ℕ := (hash now).toNat / 2 ^ 32

theorem idBits_lt (hash : SystemTime → UInt64) (now : SystemTime) :
    idBits hash now < 16 ^ 8 := by
  have hbound := (hash now).toNat_lt
  exact Nat.div_lt_of_lt_mul (by simpa using hbound)

/-- Of the hash only the upper half is in the id. -/
theorem toList_fastrandHex (hash : SystemTime → UInt64) (now : SystemTime) :
    (fastrandHex hash 8 now).toList = hexText 8 (idBits hash now) := by
  unfold fastrandHex hexDigits hexText idBits
  rw [String.toList_ofList, String.toList_ofList, ← List.map_take, List.take_range]
  refine List.map_congr_left fun i hi => ?_
  have hi : i < 8 := List.mem_range.mp hi
  have hplace : 15 - i = 8 + (8 - 1 - i) := by omega
  have hhalf : (16 : ℕ) ^ 8 = 2 ^ 32 := rfl
  rw [hplace, pow_add, ← Nat.div_div_eq_div_mul, hhalf]

namespace WebhookDispatcher

theorem toList_eventId (hash : SystemTime → UInt64) (event : WebhookEvent)
    (now idNow : SystemTime) :
    (eventPayload hash event now idNow).eventId.toList =
      "evt_".toList ++ ((toString (SystemTime.millis now).toNat).toList ++
        '_' :: hexText 8 (idBits hash idNow)) := by
  have hid : (eventPayload hash event now idNow).eventId =
      "evt_" ++ toString (SystemTime.millis now).toNat ++ "_" ++ fastrandHex hash 8 idNow := rfl
  rw [hid]
  simp only [String.toList_append, toList_fastrandHex, List.append_assoc]
  rfl

/-- Two readings that an id tells apart. -/
def ToldApart (hash : SystemTime → UInt64) (first second : SystemTime × SystemTime) : Prop :=
  SystemTime.millis first.1 ≠ SystemTime.millis second.1 ∨
    idBits hash first.2 ≠ idBits hash second.2

/-- The id of an event shows the milliseconds of the first reading and half of the
hash of the second. -/
theorem eventId_eq_iff (hash : SystemTime → UInt64) (event other : WebhookEvent)
    (now idNow now' idNow' : SystemTime) :
    (eventPayload hash event now idNow).eventId =
        (eventPayload hash other now' idNow').eventId ↔
      SystemTime.millis now = SystemTime.millis now' ∧ idBits hash idNow = idBits hash idNow' := by
  rw [← String.toList_inj, toList_eventId, toList_eventId, List.append_right_inj,
    List.append_cons_inj_of_notMem (underscore_notMem_toString _) (underscore_notMem_hexText _ _)]
  constructor
  · rintro ⟨hmillis, -, hbits⟩
    have hnumber := congrArg digitsNumber hmillis
    rw [digitsNumber_toString, digitsNumber_toString] at hnumber
    exact ⟨UInt64.toNat_inj.mp hnumber,
      hexText_injective (idBits_lt hash idNow) (idBits_lt hash idNow') hbits⟩
  · rintro ⟨hmillis, hbits⟩
    rw [hmillis, hbits]
    exact ⟨rfl, rfl, rfl⟩

/-- The payload that a call makes. -/
def Call.payload? (hash : SystemTime → UInt64) : Call → Option WebhookPayload
  | .enqueueEvent event now idNow => some (eventPayload hash event now idNow)
  | .recordAttemptResult .. => none

/-- The payloads made in a run, in the order of the calls. -/
def payloads (hash : SystemTime → UInt64) (calls : List Call) : List WebhookPayload :=
  calls.filterMap (Call.payload? hash)

/-- What a call that makes a payload reads from the clock. -/
def Call.readings? : Call → Option (SystemTime × SystemTime)
  | .enqueueEvent _ now idNow => some (now, idNow)
  | .recordAttemptResult .. => none

def readings (calls : List Call) : List (SystemTime × SystemTime) :=
  calls.filterMap Call.readings?

/-- Payloads of different calls have different ids exactly when no two calls read the
same millisecond first and then times whose hashes agree in the upper half. -/
theorem eventIds_nodup_iff (hash : SystemTime → UInt64) (calls : List Call) :
    ((payloads hash calls).map WebhookPayload.eventId).Nodup ↔
      (readings calls).Pairwise (ToldApart hash) := by
  rw [List.Nodup, List.pairwise_map, payloads, readings, List.pairwise_filterMap,
    List.pairwise_filterMap]
  refine List.Pairwise.iff fun first second => ?_
  cases first with
  | recordAttemptResult => simp [Call.payload?, Call.readings?]
  | enqueueEvent event now idNow =>
      cases second with
      | recordAttemptResult => simp [Call.payload?, Call.readings?]
      | enqueueEvent other now' idNow' =>
          simp only [Call.payload?, Call.readings?, Option.some.injEq, forall_eq', ToldApart]
          rw [Ne, eventId_eq_iff, not_and_or]

/-- The deliveries that wait and those in the history. -/
def held (state : WebhookState) : List WebhookDeliveryRecord := state.queue ++ state.history

section Deliveries

variable {config : WebhookConfig} {hash : SystemTime → UInt64} {state : WebhookState}

/-- A new delivery carries its payload. -/
theorem payload_of_mem_enqueueAll {payload : WebhookPayload} {targets : List String}
    {record : WebhookDeliveryRecord}
    (hmem : record ∈ held (enqueueAll config payload state targets).1) :
    record ∈ held state ∨ record.payload = payload := by
  induction targets generalizing state with
  | nil => exact Or.inl hmem
  | cons target targets ih =>
      rcases ih hmem with hfirst | hrest
      · rcases List.mem_append.mp hfirst with hqueued | hover
        · rcases mem_pushBounded hqueued with hold | rfl
          · exact Or.inl (List.mem_append_left _ hold)
          · exact Or.inr rfl
        · exact Or.inl (List.mem_append_right _ hover)
      · exact Or.inr hrest

/-- A delivery keeps its payload when an attempt is recorded. -/
theorem payload_of_mem_recordAttemptResult {deliveryId : UInt64} {success : Bool}
    {statusCode : Option UInt16} {errorMsg : Option String} {now : SystemTime}
    {record : WebhookDeliveryRecord}
    (hmem : record ∈ held
      (recordAttemptResult config state deliveryId success statusCode errorMsg now).1) :
    ∃ old ∈ held state, record.payload = old.payload := by
  unfold recordAttemptResult at hmem
  split at hmem
  next => exact ⟨record, hmem, rfl⟩
  next found hfound =>
    have hqueued : found ∈ held state :=
      List.mem_append_left _ (List.mem_of_find?_eq_some hfound)
    have hwaits : ∀ other ∈ state.queue.eraseP fun record => record.deliveryId = deliveryId,
        other ∈ held state :=
      fun other hother => List.mem_append_left _ (List.eraseP_sublist.mem hother)
    have hpushed : ∀ tried : WebhookDeliveryRecord,
        record ∈ pushBounded config.maxQueueSize state.history tried →
        tried.payload = found.payload → ∃ old ∈ held state, record.payload = old.payload := by
      intro tried hrecord htried
      rcases mem_pushBounded hrecord with hover | rfl
      · exact ⟨record, List.mem_append_right _ hover, rfl⟩
      · exact ⟨found, hqueued, htried⟩
    simp only at hmem
    split at hmem
    next =>
      rcases List.mem_append.mp hmem with hwait | hover
      · exact ⟨record, hwaits record hwait, rfl⟩
      · exact hpushed _ hover rfl
    next =>
      split at hmem
      next =>
        rcases List.mem_append.mp hmem with hwait | hover
        · exact ⟨record, hwaits record hwait, rfl⟩
        · exact hpushed _ hover rfl
      next =>
        rcases List.mem_append.mp hmem with hqueue | hover
        · rcases List.mem_append.mp hqueue with hwait | hnew
          · exact ⟨record, hwaits record hwait, rfl⟩
          · exact ⟨found, hqueued, by rw [List.mem_singleton.mp hnew]; rfl⟩
        · exact ⟨record, List.mem_append_right _ hover, rfl⟩

/-- Every delivery carries the payload of one of the calls. -/
theorem payload_of_mem_run (calls : List Call) :
    ∀ record ∈ held (run config hash calls).1, record.payload ∈ payloads hash calls := by
  induction calls using List.reverseRecOn with
  | nil => exact fun record hmem => absurd hmem List.not_mem_nil
  | append_singleton calls call ih =>
      intro record hmem
      rw [run_concat] at hmem
      rw [payloads, List.filterMap_append]
      cases call with
      | enqueueEvent event now idNow =>
          rcases payload_of_mem_enqueueAll hmem with hold | hnew
          · exact List.mem_append_left _ (ih record hold)
          · exact List.mem_append_right _ (List.mem_singleton.mpr hnew)
      | recordAttemptResult deliveryId success statusCode errorMsg now =>
          obtain ⟨old, hold, hsame⟩ := payload_of_mem_recordAttemptResult hmem
          rw [hsame]
          exact List.mem_append_left _ (ih old hold)

end Deliveries

end WebhookDispatcher

namespace WebhookIdWitness

open WebhookDispatcher

def settled : WebhookEvent := ⟨.paymentSettled, none, none, none, none, some "/paid"⟩

def failed : WebhookEvent := ⟨.paymentFailed, none, none, none, none, some "/paid"⟩

/-- Two threads that read the same time have the same id for their events, whatever
the hash. -/
theorem same_time_same_id :
    ¬∃ hash, ((payloads hash [.enqueueEvent settled 1000000 1000000,
      .enqueueEvent failed 1000000 1000000]).map WebhookPayload.eventId).Nodup := by
  rintro ⟨hash, hnodup⟩
  simp [payloads, Call.payload?, eventPayload] at hnodup

end WebhookIdWitness

end KiteX402
