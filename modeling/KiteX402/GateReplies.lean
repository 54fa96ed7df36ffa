/-
Which replies of the gate are not errors: those that were paid for.
-/
import KiteX402.GateTrace

namespace KiteX402

section Statuses

variable (codec : Codec)

@[simp] theorem status_paymentRequiredResponse (requirements : PaymentRequirements)
    (resourceUrl description : String) (error : Option String) :
    (paymentRequiredResponse codec requirements resourceUrl description error).status = 402 :=
  rfl

@[simp] theorem status_settlementFailureResponse (settle : SettleResponse) :
    (settlementFailureResponse codec settle).status = 402 := rfl

@[simp] theorem status_configErrorResponse (error : String) :
    (configErrorResponse codec error).status = 500 := rfl

@[simp] theorem status_capacityResponse : (capacityResponse codec).status = 503 := rfl

end Statuses

section Replies

variable {rt : Runtime} {cfg : PaymentConfig} {req : Request}

theorem status_of_screenRequest {wallClock : Option UInt64} {response : Response}
    {challenged : Bool}
    (h : screenRequest rt cfg req wallClock = .refused response challenged) :
    400 ≤ response.status := by
  unfold screenRequest at h
  split at h
  · contradiction
  · obtain ⟨rfl, -⟩ := Screening.refused.inj h
    simp
  · dsimp only at h
    split at h
    · obtain ⟨rfl, -⟩ := Screening.refused.inj h
      simp
    · split at h
      · obtain ⟨rfl, -⟩ := Screening.refused.inj h
        simp
      · split at h
        · obtain ⟨rfl, -⟩ := Screening.refused.inj h
          simp
        · split at h
          · obtain ⟨rfl, -⟩ := Screening.refused.inj h
            simp
          · contradiction

theorem replied_mem_finish {world : GateWorld} {reservation : Option PaymentNonceReservation}
    {now : Instant} {last : GateEvent} {reply : Response}
    (hmem : .replied reply ∈ (finish rt cfg world reservation now last).2) :
    last = .replied reply := by
  unfold finish at hmem
  split at hmem
  · simpa [eq_comm] using hmem
  · simpa [eq_comm] using hmem

theorem status_of_arrive {world : GateWorld} {wallClock : Option UInt64} {reserveAt : Instant}
    {reply : Response} (hmem : .replied reply ∈ (arrive rt cfg req world wallClock reserveAt).2) :
    400 ≤ reply.status := by
  unfold arrive at hmem
  dsimp only at hmem
  split at hmem
  · simp at hmem
  next response challenged hrefused =>
    obtain rfl := GateEvent.replied.inj (List.mem_singleton.mp hmem)
    exact status_of_screenRequest hrefused
  next payload requirements hpassed =>
    split at hmem
    · simp at hmem
    · split at hmem
      · simp at hmem
      · obtain rfl : reply = capacityResponse rt.codec := by simpa using hmem
        simp
      next error store hne heq =>
        have hreply : reply = paymentRequiredResponse rt.codec requirements req.resourceUrl
            cfg.description (some error.message) := by simpa using hmem
        rw [hreply]
        simp

theorem status_of_afterVerify {world : GateWorld} {attempt : PaymentAttempt} {now : Instant}
    {result : Except String VerifyResponse} {reply : Response}
    (hmem : .replied reply ∈ (afterVerify rt cfg req world attempt now result).2) :
    400 ≤ reply.status := by
  unfold afterVerify at hmem
  dsimp only at hmem
  split at hmem
  · rcases List.mem_cons.mp hmem with heq | hmem
    · contradiction
    · rw [← GateEvent.replied.inj (replied_mem_finish hmem)]
      simp
  · split at hmem
    · simp at hmem
    · rcases List.mem_cons.mp hmem with heq | hmem
      · contradiction
      · rw [← GateEvent.replied.inj (replied_mem_finish hmem)]
        simp

/-- The reply to a request whose settlement succeeded. -/
structure PaidStep (rt : Runtime) (phase : GatePhase) (input : GateInput) (reply : Response)
    (response : Response) (settle : SettleResponse) : Prop where
  phase : ∃ attempt, phase = .settling attempt response
  input : ∃ elapsed, input = .settled (.ok settle) elapsed
  success : settle.success = true
  reply : reply = settledResponse rt.codec response settle

/-- A step replies with an error, or to a settlement that succeeded. -/
theorem gateStep_reply {world : GateWorld} {phase : GatePhase} {now : Instant}
    {input : GateInput} {reply : Response}
    (hmem : .replied reply ∈ (gateStep rt cfg req world phase now input).2) :
    400 ≤ reply.status ∨ ∃ response settle, PaidStep rt phase input reply response settle := by
  have hcancel : ∀ reservation, .replied reply ∉
      (finish rt cfg world reservation now .cancelled).2 := by
    intro reservation hmem
    have heq := replied_mem_finish hmem
    contradiction
  cases phase with
  | arrived =>
      cases input with
      | poll wallClock reserveAt => exact Or.inl (status_of_arrive hmem)
      | _ => simp [gateStep] at hmem
  | verifying attempt =>
      cases input with
      | verified result => exact Or.inl (status_of_afterVerify hmem)
      | cancel => exact absurd hmem (hcancel _)
      | _ => simp [gateStep] at hmem
  | handling attempt =>
      cases input with
      | handled response =>
          simp only [gateStep, afterHandler] at hmem
          split at hmem
          next hstatus =>
            rcases List.mem_cons.mp hmem with heq | hmem
            · contradiction
            · rw [← GateEvent.replied.inj (replied_mem_finish hmem)]
              exact Or.inl hstatus
          next => simp at hmem
      | cancel => exact absurd hmem (hcancel _)
      | _ => simp [gateStep] at hmem
  | settling attempt response =>
      cases input with
      | settled result elapsed =>
          simp only [gateStep, afterSettle] at hmem
          cases result with
          | error error =>
              rcases List.mem_cons.mp hmem with heq | hmem
              · contradiction
              · rw [← GateEvent.replied.inj (replied_mem_finish hmem)]
                exact Or.inl (by simp [settleUnavailable])
          | ok settle =>
              rcases List.mem_cons.mp hmem with heq | hmem
              · contradiction
              · rw [← GateEvent.replied.inj (replied_mem_finish hmem)]
                cases hsuccess : settle.success with
                | true =>
                    exact Or.inr ⟨response, settle, ⟨attempt, rfl⟩, ⟨elapsed, rfl⟩, hsuccess,
                      by simp⟩
                | false => exact Or.inl (by simp)
      | cancel => exact absurd hmem (hcancel _)
      | _ => simp [gateStep] at hmem
  | ended => cases input <;> simp [gateStep] at hmem

/-- A reply was paid for: the payment it is for was verified and matched, the
handler succeeded, and the payment was settled. -/
structure PaidFor (rt : Runtime) (cfg : PaymentConfig) (req : Request)
    (trace : List GateEvent) (reply response : Response) : Prop where
  reply : ∃ payload requirements verify settle,
    Matches rt cfg req payload requirements ∧ verify.isValid = true ∧
    settle.success = true ∧ reply = settledResponse rt.codec response settle ∧
    [.verifyCalled payload requirements, .verifyReturned (.ok verify), .handlerEntered,
      .handlerReturned response, .settleCalled payload requirements,
      .settleReturned (.ok settle)].Sublist trace
  succeeded : response.status < 400

/-- Every reply in a trace is an error or was paid for. -/
def RepliesPaid (rt : Runtime) (cfg : PaymentConfig) (req : Request)
    (trace : List GateEvent) : Prop :=
  ∀ reply, .replied reply ∈ trace →
    400 ≤ reply.status ∨ ∃ response, PaidFor rt cfg req trace reply response

theorem PaidFor.append {trace : List GateEvent} {reply response : Response}
    (hpaid : PaidFor rt cfg req trace reply response) (more : List GateEvent) :
    PaidFor rt cfg req (trace ++ more) reply response where
  reply := by
    obtain ⟨payload, requirements, verify, settle, hmatch, hvalid, hsuccess, hreply, hsub⟩ :=
      hpaid.reply
    exact ⟨payload, requirements, verify, settle, hmatch, hvalid, hsuccess, hreply,
      hsub.trans (List.sublist_append_left _ _)⟩
  succeeded := hpaid.succeeded

theorem GateHistory.repliesPaid {phase : GatePhase} {trace : List GateEvent}
    (hhist : GateHistory rt cfg req phase trace) (hpaid : RepliesPaid rt cfg req trace)
    (world : GateWorld) (now : Instant) (input : GateInput) :
    RepliesPaid rt cfg req (trace ++ (gateStep rt cfg req world phase now input).2) := by
  intro reply hmem
  rcases List.mem_append.mp hmem with hmem | hmem
  · refine (hpaid reply hmem).imp_right ?_
    rintro ⟨response, hpaid⟩
    exact ⟨response, hpaid.append _⟩
  · refine (gateStep_reply hmem).imp_right ?_
    rintro ⟨response, settle, ⟨attempt, rfl⟩, ⟨elapsed, rfl⟩, hsuccess, hreply⟩
    cases hhist with
    | settling attempt opening verify response hmatch hopens hvalid hstatus =>
        refine ⟨response, ⟨attempt.payload, attempt.requirements, verify, settle, hmatch, hvalid,
          hsuccess, hreply, ?_⟩, hstatus⟩
        have hlast : [GateEvent.settleReturned (.ok settle)].Sublist
            (gateStep rt cfg req world (.settling attempt response) now
              (.settled (.ok settle) elapsed)).2 := by
          rw [List.singleton_sublist]
          exact List.mem_cons_self
        have hbefore : [.verifyCalled attempt.payload attempt.requirements,
            .verifyReturned (.ok verify), .handlerEntered, .handlerReturned response,
            .settleCalled attempt.payload attempt.requirements].Sublist
            (settleTrace attempt opening verify response) := by
          simp only [settleTrace, handlerTrace, verifyTrace, List.append_assoc]
          exact List.sublist_append_right _ _
        exact hbefore.append hlast

end Replies

end KiteX402
