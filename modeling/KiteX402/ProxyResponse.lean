/-
The answer of the upstream: its body is buffered whole before the buyer gets any
of it, and so before the gate settles.
-/
import KiteX402.GateExpiration
import KiteX402.ProxyHeaders

namespace KiteX402

def maxRequestBodyBytes : ℕ := 16 * 1024 * 1024

def maxResponseBodyBytes : ℕ := 16 * 1024 * 1024

/-- What `chunk()` yields, up to the end of the body or an error. -/
inductive BodyStream where
  | data (chunk : List UInt8) (rest : BodyStream)
  | finished
  | failed
deriving DecidableEq

namespace BodyStream

/-- The bytes of all chunks. -/
def bytes : BodyStream → List UInt8
  | .data chunk rest => chunk ++ rest.bytes
  | .finished => []
  | .failed => []

/-- The stream ends without an error. -/
def complete : BodyStream → Bool
  | .data _ rest => rest.complete
  | .finished => true
  | .failed => false

end BodyStream

/-- One chunk is appended to the bytes buffered so far, if it still fits. -/
def bufferChunk (bytes chunk : List UInt8) : Except String (List UInt8) :=
  if chunk.length ≤ maxResponseBodyBytes - bytes.length then .ok (bytes ++ chunk)
  else .error "upstream response too large"

/-- The loop over the chunks, with the bytes buffered so far. -/
def bufferBody (bytes : List UInt8) : BodyStream → Except String (List UInt8)
  | .data chunk rest =>
      match bufferChunk bytes chunk with
      | .ok longer => bufferBody longer rest
      | .error error => .error error
  | .finished => .ok bytes
  | .failed => .error "upstream response incomplete"

/-- The buffer at the head of every iteration of the loop. -/
def buffers (bytes : List UInt8) : BodyStream → List (List UInt8)
  | .data chunk rest =>
      bytes :: match bufferChunk bytes chunk with
        | .ok longer => buffers longer rest
        | .error _ => []
  | .finished => [bytes]
  | .failed => [bytes]

/-- What the HTTP client hands over once it has read the head of an answer. -/
structure UpstreamReply where
  status : ℕ
  status_valid : 100 ≤ status ∧ status < 1000
  headers : HeaderMap
  body : BodyStream

/-- `StatusCode::from_u16`, and 502 for what is no status. -/
def statusOrBadGateway (status : ℕ) : ℕ := if 100 ≤ status ∧ status < 1000 then status else 502

structure UpstreamRequest where
  method : String
  url : List Char
  headers : HeaderMap
  body : List UInt8

/-- A request behind the gate; `none` is a body that cannot be read. -/
structure ProxyCall where
  target : ProxyRequest
  method : String
  headers : HeaderMap
  body : Option (List UInt8)

section Proxy

variable (codec : Codec)

def ErrorReply.response (reply : ErrorReply) : Response :=
  codec.jsonResponse reply.status (.object [("error", .string reply.error)])

/-- The reply to the buyer from the answer of the upstream. -/
def upstreamAnswer (reply : UpstreamReply) : Response :=
  match bufferBody [] reply.body with
  | .ok bytes => ⟨statusOrBadGateway reply.status, buyerHeaders reply.headers, bytes⟩
  | .error error => ErrorReply.response codec ⟨502, error⟩

/-- The request that the proxy makes of the upstream, unless it refuses the
call. -/
def upstreamRequest (cfg : UpstreamConfig) (call : ProxyCall) :
    Except ErrorReply UpstreamRequest :=
  match proxyUrl cfg.baseUrl.toList call.target with
  | .error refusal => .error refusal
  | .ok url =>
      match call.body.filter fun body => body.length ≤ maxRequestBodyBytes with
      | none => .error ⟨413, "request body too large to proxy"⟩
      | some body => .ok ⟨call.method, url, upstreamHeaders cfg call.headers, body⟩

/-- `proxy`, where `send` is the HTTP client: it fails with the text of its
error. -/
def proxy (cfg : UpstreamConfig) (send : UpstreamRequest → Except String UpstreamReply)
    (call : ProxyCall) : Response :=
  match upstreamRequest cfg call with
  | .error refusal => ErrorReply.response codec refusal
  | .ok request =>
      match send request with
      | .error detail => codec.jsonResponse 502 (.object
          [("detail", .string detail), ("error", .string "upstream unreachable")])
      | .ok reply => upstreamAnswer codec reply

end Proxy

section Buffering

/-- The answer is read to its end, and fits. -/
def UpstreamReply.Delivered (reply : UpstreamReply) : Prop :=
  reply.body.complete = true ∧ reply.body.bytes.length ≤ maxResponseBodyBytes

theorem bufferChunk_eq_ok_iff {bytes chunk longer : List UInt8} :
    bufferChunk bytes chunk = .ok longer ↔
      chunk.length ≤ maxResponseBodyBytes - bytes.length ∧ longer = bytes ++ chunk := by
  unfold bufferChunk
  split
  next hchunk => simp [hchunk, eq_comm]
  next hchunk => simp [hchunk]

/-- The buffer never outgrows its cap. -/
theorem length_le_of_bufferChunk {bytes chunk longer : List UInt8}
    (hfits : bytes.length ≤ maxResponseBodyBytes) (h : bufferChunk bytes chunk = .ok longer) :
    longer.length ≤ maxResponseBodyBytes := by
  obtain ⟨hchunk, rfl⟩ := bufferChunk_eq_ok_iff.mp h
  rw [List.length_append]
  omega

theorem error_of_bufferChunk {bytes chunk : List UInt8} {error : String}
    (h : bufferChunk bytes chunk = .error error) :
    error = "upstream response too large" ∧
      maxResponseBodyBytes < bytes.length + chunk.length := by
  unfold bufferChunk at h
  split at h
  next => contradiction
  next hchunk => exact ⟨(Except.error.inj h).symm, by omega⟩

/-- With a buffer that fits, the loop ends with the buffer and all that follows
exactly if that is complete and fits. -/
theorem bufferBody_eq_ok_iff {bytes out : List UInt8} (body : BodyStream)
    (hfits : bytes.length ≤ maxResponseBodyBytes) :
    bufferBody bytes body = .ok out ↔
      body.complete = true ∧ (bytes ++ body.bytes).length ≤ maxResponseBodyBytes ∧
        out = bytes ++ body.bytes := by
  induction body generalizing bytes with
  | finished =>
      simp only [bufferBody, BodyStream.complete, BodyStream.bytes, List.append_nil, hfits,
        Except.ok.injEq, true_and]
      exact eq_comm
  | failed => simp [bufferBody, BodyStream.complete]
  | data chunk rest ih =>
      have hsplit : bytes ++ BodyStream.bytes (.data chunk rest) =
          bytes ++ chunk ++ rest.bytes := by
        rw [BodyStream.bytes, List.append_assoc]
      rw [bufferBody, BodyStream.complete, hsplit]
      cases hstep : bufferChunk bytes chunk with
      | ok longer =>
          have hnext := length_le_of_bufferChunk hfits hstep
          obtain ⟨_, rfl⟩ := bufferChunk_eq_ok_iff.mp hstep
          exact ih hnext
      | error error =>
          have hover : ¬ (bytes ++ chunk ++ rest.bytes).length ≤ maxResponseBodyBytes := by
            have hlarge := (error_of_bufferChunk hstep).2
            rw [List.length_append, List.length_append]
            omega
          simp only [reduceCtorEq, false_iff]
          exact fun h => hover h.2.1

/-- The errors that the loop ends with say nothing of the body. -/
theorem error_of_bufferBody {bytes : List UInt8} {body : BodyStream} {error : String}
    (h : bufferBody bytes body = .error error) :
    error = "upstream response too large" ∨ error = "upstream response incomplete" := by
  induction body generalizing bytes with
  | finished => contradiction
  | failed => exact Or.inr (Except.error.inj h).symm
  | data chunk rest ih =>
      rw [bufferBody] at h
      cases hstep : bufferChunk bytes chunk with
      | ok longer =>
          rw [hstep] at h
          exact ih h
      | error early =>
          rw [hstep] at h
          rw [← Except.error.inj h]
          exact Or.inl (error_of_bufferChunk hstep).1

/-- The loop ends with the last of its buffers. -/
theorem getLast?_buffers {bytes out : List UInt8} {body : BodyStream}
    (h : bufferBody bytes body = .ok out) : (buffers bytes body).getLast? = some out := by
  induction body generalizing bytes with
  | finished => exact congrArg some (Except.ok.inj h)
  | failed => contradiction
  | data chunk rest ih =>
      rw [bufferBody] at h
      rw [buffers]
      cases hstep : bufferChunk bytes chunk with
      | ok longer =>
          rw [hstep] at h
          rw [List.getLast?_cons, ih h, Option.getD_some]
      | error error =>
          rw [hstep] at h
          contradiction

theorem length_le_of_mem_buffers {bytes buffer : List UInt8} {body : BodyStream}
    (hfits : bytes.length ≤ maxResponseBodyBytes) (hmem : buffer ∈ buffers bytes body) :
    buffer.length ≤ maxResponseBodyBytes := by
  induction body generalizing bytes with
  | finished => exact List.mem_singleton.mp hmem ▸ hfits
  | failed => exact List.mem_singleton.mp hmem ▸ hfits
  | data chunk rest ih =>
      rw [buffers] at hmem
      cases List.mem_cons.mp hmem with
      | inl heq => exact heq ▸ hfits
      | inr hrest =>
          cases hstep : bufferChunk bytes chunk with
          | ok longer =>
              rw [hstep] at hrest
              exact ih (length_le_of_bufferChunk hfits hstep) hrest
          | error error =>
              rw [hstep] at hrest
              exact absurd hrest List.not_mem_nil

end Buffering

section Settlement

variable {rt : Runtime} {cfg : PaymentConfig} {req : Request} {payload : PaymentPayload}
  {requirements : PaymentRequirements}

theorem settleCalled_notMem_finish {world : GateWorld}
    {reservation : Option PaymentNonceReservation} {now : Instant} {last : GateEvent}
    (hlast : last.isSettleCalled = false) :
    .settleCalled payload requirements ∉ (finish rt cfg world reservation now last).2 := by
  have hne : GateEvent.settleCalled payload requirements ≠ last := by
    rintro rfl
    contradiction
  unfold finish
  split <;> simp [hne]

theorem settleCalled_notMem_ending {world : GateWorld}
    {reservation : Option PaymentNonceReservation} {now : Instant} {first last : GateEvent}
    (hfirst : first.isSettleCalled = false) (hlast : last.isSettleCalled = false) :
    .settleCalled payload requirements ∉
      first :: (finish rt cfg world reservation now last).2 := by
  intro hmem
  cases List.mem_cons.mp hmem with
  | inl heq =>
      rw [← heq] at hfirst
      contradiction
  | inr hrest => exact settleCalled_notMem_finish hlast hrest

theorem settleCalled_notMem_arrive (world : GateWorld) (wallClock : Option UInt64)
    (reserveAt : Instant) :
    .settleCalled payload requirements ∉ (arrive rt cfg req world wallClock reserveAt).2 := by
  cases hscreen : screenRequest rt cfg req wallClock with
  | panicked => simp [arrive, hscreen]
  | refused response challenged => simp [arrive, hscreen]
  | passed payload' requirements' =>
      cases hguard : cfg.nonceGuard with
      | none => simp [arrive, hscreen, hguard]
      | some guard =>
          simp only [arrive, hscreen, hguard]
          split <;> simp

/-- The gate calls `/settle` only as the handler's response comes in, and only
if that is no failure. -/
theorem handled_of_settleCalled {world : GateWorld} {phase : GatePhase} {now : Instant}
    {input : GateInput}
    (hmem : .settleCalled payload requirements ∈ (gateStep rt cfg req world phase now input).2) :
    ∃ response, input = .handled response ∧ response.status < 400 := by
  cases phase with
  | arrived =>
      cases input with
      | poll wallClock reserveAt => exact absurd hmem (settleCalled_notMem_arrive _ _ _)
      | _ => simp [gateStep] at hmem
  | verifying attempt =>
      cases input with
      | verified result =>
          simp only [gateStep, afterVerify] at hmem
          split at hmem
          · exact absurd hmem (settleCalled_notMem_ending rfl rfl)
          · split at hmem
            · simp at hmem
            · exact absurd hmem (settleCalled_notMem_ending rfl rfl)
      | cancel => exact absurd hmem (settleCalled_notMem_finish rfl)
      | _ => simp [gateStep] at hmem
  | handling attempt =>
      cases input with
      | handled response =>
          refine ⟨response, rfl, ?_⟩
          by_contra hstatus
          simp only [gateStep, afterHandler, not_lt.mp hstatus, if_true] at hmem
          exact settleCalled_notMem_ending rfl rfl hmem
      | cancel => exact absurd hmem (settleCalled_notMem_finish rfl)
      | _ => simp [gateStep] at hmem
  | settling attempt response =>
      cases input with
      | settled result elapsed =>
          simp only [gateStep, afterSettle] at hmem
          split at hmem <;> exact absurd hmem (settleCalled_notMem_ending rfl rfl)
      | cancel => exact absurd hmem (settleCalled_notMem_finish rfl)
      | _ => simp [gateStep] at hmem
  | ended => cases input <;> simp [gateStep] at hmem

/-- The calls of `/settle` in the run of a request stem from a response that
the handler gave it. -/
theorem handled_of_run_settleCalled {actions : List (GateWorld × Instant × GateInput)}
    {phase : GatePhase}
    (hmem : .settleCalled payload requirements ∈
      ((requestMachine rt cfg req).run phase actions).2) :
    ∃ action ∈ actions, ∃ response, action.2.2 = .handled response ∧ response.status < 400 := by
  induction actions generalizing phase with
  | nil => exact absurd hmem List.not_mem_nil
  | cons action rest ih =>
      rw [Machine.run_cons] at hmem
      cases List.mem_append.mp hmem with
      | inl hstep =>
          obtain ⟨response, hinput, hstatus⟩ := handled_of_settleCalled hstep
          exact ⟨action, List.mem_cons_self, response, hinput, hstatus⟩
      | inr hrest =>
          obtain ⟨earlier, hearlier, hhandled⟩ := ih hrest
          exact ⟨earlier, List.mem_cons_of_mem _ hearlier, hhandled⟩

/-- With no guard to ask, a payment found valid is settled for a response that is
no failure. -/
theorem settleCalled_mem_run {world : GateWorld} {wallClock : Option UInt64}
    {response : Response} {verify : VerifyResponse}
    (hscreen : screenRequest rt cfg req wallClock = .passed payload requirements)
    (hguard : cfg.nonceGuard = none) (hvalid : verify.isValid = true)
    (hstatus : response.status < 400) :
    .settleCalled payload requirements ∈ ((requestMachine rt cfg req).run .arrived
      [(world, 0, .poll wallClock 0), (world, 1, .verified (.ok verify)),
        (world, 2, .handled response)]).2 := by
  simp [requestMachine, Machine.run_cons, gateStep, arrive, hscreen, hguard, afterVerify, hvalid,
    afterHandler, hstatus.not_ge]

end Settlement

section Delivery

variable {codec : Codec} {up : UpstreamConfig}
  {send : UpstreamRequest → Except String UpstreamReply}

/-- The buyer gets all of an answer or none of it, and the buffer, which the loop
ends with, never outgrows its cap. -/
structure BuffersWhole (codec : Codec) (reply : UpstreamReply) : Prop where
  delivered : reply.Delivered → upstreamAnswer codec reply =
    ⟨reply.status, buyerHeaders reply.headers, reply.body.bytes⟩
  refused : ¬ reply.Delivered → ∃ error ∈ ["upstream response too large",
    "upstream response incomplete"],
      upstreamAnswer codec reply = codec.jsonResponse 502 (.object [("error", .string error)])
  bounded : ∀ buffer ∈ buffers [] reply.body, buffer.length ≤ maxResponseBodyBytes
  last : ∀ bytes, bufferBody [] reply.body = .ok bytes →
    (buffers [] reply.body).getLast? = some bytes

theorem buffersWhole (codec : Codec) (reply : UpstreamReply) : BuffersWhole codec reply where
  delivered hdelivered := by
    have hok : bufferBody [] reply.body = .ok reply.body.bytes :=
      (bufferBody_eq_ok_iff reply.body (Nat.zero_le _)).mpr ⟨hdelivered.1, hdelivered.2, rfl⟩
    simp only [upstreamAnswer, hok, statusOrBadGateway, reply.status_valid, and_self, if_true]
  refused hnot := by
    cases hbody : bufferBody [] reply.body with
    | ok bytes =>
        obtain ⟨hcomplete, hfits, _⟩ :=
          (bufferBody_eq_ok_iff reply.body (Nat.zero_le _)).mp hbody
        exact absurd ⟨hcomplete, hfits⟩ hnot
    | error error =>
        refine ⟨error, by simpa using error_of_bufferBody hbody, ?_⟩
        simp only [upstreamAnswer, hbody, ErrorReply.response]
  bounded _ hmem := length_le_of_mem_buffers (Nat.zero_le _) hmem
  last _ h := getLast?_buffers h

theorem status_errorReply_response (codec : Codec) (reply : ErrorReply) :
    (reply.response codec).status = reply.status := rfl

/-- What the proxy answers without an answer that was delivered is a failure. -/
theorem delivered_of_proxy_status {call : ProxyCall}
    (hstatus : (proxy codec up send call).status < 400) :
    ∃ request reply, upstreamRequest up call = .ok request ∧ send request = .ok reply ∧
      reply.Delivered := by
  have hrefusal : ∀ refusal, upstreamRequest up call = .error refusal → 400 ≤ refusal.status := by
    intro refusal hrefused
    unfold upstreamRequest at hrefused
    split at hrefused
    next early hurl =>
      obtain rfl := Except.error.inj hrefused
      simp only [proxyUrl] at hurl
      split at hurl
      · rw [← Except.error.inj hurl]
        exact le_refl _
      · contradiction
    next =>
      split at hrefused
      · rw [← Except.error.inj hrefused]
        decide
      · contradiction
  cases hrequest : upstreamRequest up call with
  | error refusal =>
      simp only [proxy, hrequest, status_errorReply_response] at hstatus
      exact absurd (hrefusal refusal hrequest) (not_le.mpr hstatus)
  | ok request =>
      cases hsend : send request with
      | error detail =>
          simp only [proxy, hrequest, hsend, Codec.jsonResponse] at hstatus
          omega
      | ok reply =>
          refine ⟨request, reply, rfl, hsend, ?_⟩
          by_contra hnot
          obtain ⟨error, _, hanswer⟩ := (buffersWhole codec reply).refused hnot
          simp only [proxy, hrequest, hsend, hanswer, Codec.jsonResponse] at hstatus
          omega

/-- The proxy buffers an answer whole, and where it stands behind the gate a
request is settled only for an answer that was delivered. -/
theorem proxy_settles_delivered (rt : Runtime) (cfg : PaymentConfig) (req : Request)
    (up : UpstreamConfig) (send : UpstreamRequest → Except String UpstreamReply)
    (call : ProxyCall) :
    (∀ reply, BuffersWhole rt.codec reply) ∧
    ∀ actions : List (GateWorld × Instant × GateInput),
      (∀ action ∈ actions, ∀ response, action.2.2 = .handled response →
        response = proxy rt.codec up send call) →
      ∀ payload requirements, .settleCalled payload requirements ∈
          ((requestMachine rt cfg req).run .arrived actions).2 →
        ∃ request reply, upstreamRequest up call = .ok request ∧ send request = .ok reply ∧
          reply.Delivered := by
  refine ⟨buffersWhole rt.codec, fun actions hproxied payload requirements hmem => ?_⟩
  obtain ⟨action, haction, response, hinput, hstatus⟩ := handled_of_run_settleCalled hmem
  rw [hproxied action haction response hinput] at hstatus
  exact delivered_of_proxy_status hstatus

end Delivery

namespace DeliveryWitness

open ExpirationWitness ForwardingWitness

/-- A payment whose window is open. -/
def rt : Runtime := runtime (.string "0") (.string "4000000000")

def paid : Request := request (.string "0") (.string "4000000000")

theorem paid_passes : screenRequest rt guarded paid (some 100) =
    .passed (payment (.string "0") (.string "4000000000")) WireWitness.required := by
  have hcheck : checkExpiration guarded (payment (.string "0") (.string "4000000000"))
      (some 100) = .ok () := by
    decide +kernel
  rw [rt, paid, screenRequest_of_matches (request_matches _ _), hcheck]

/-- An answer in two chunks. -/
def answer : UpstreamReply :=
  ⟨200, by decide, [], .data [115, 117] (.data [110] .finished)⟩

def upstream (_ : UpstreamRequest) : Except String UpstreamReply := .ok answer

def proxied : ProxyCall := ⟨⟨some "/v1/forecast".toList, none⟩, "GET", headers, some []⟩

theorem status_proxy : (proxy rt.codec cfg upstream proxied).status = 200 := by
  decide +kernel

/-- The payment is found valid, and the proxy handles the request. -/
def actions : List (GateWorld × Instant × GateInput) :=
  [(world, 0, .poll (some 100) 0), (world, 1, .verified (.ok ⟨true, none⟩)),
    (world, 2, .handled (proxy rt.codec cfg upstream proxied))]

theorem actions_settle : .settleCalled (payment (.string "0") (.string "4000000000"))
    WireWitness.required ∈ ((requestMachine rt guarded paid).run .arrived actions).2 :=
  settleCalled_mem_run paid_passes rfl rfl (by rw [status_proxy]; decide)

/-- The gate settles for an answer that was delivered. -/
theorem answer_settles_delivered : ∃ request reply,
    upstreamRequest cfg proxied = .ok request ∧ upstream request = .ok reply ∧
      reply.Delivered := by
  refine (proxy_settles_delivered rt guarded paid cfg upstream proxied).2 actions ?_ _ _
    actions_settle
  intro action haction response hresponse
  simp only [actions, List.mem_cons, List.not_mem_nil, or_false] at haction
  rcases haction with rfl | rfl | rfl
  · contradiction
  · contradiction
  · exact (GateInput.handled.inj hresponse).symm

end DeliveryWitness

end KiteX402
