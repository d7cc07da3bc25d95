import McpShield.Gateway.Mediation
import McpShield.Gateway.Refusal

/-!
# The audit log

Every message that is routed to its end is recorded by exactly one audit event, made from the
message that is actually processed and from the result.
-/

open Effect Effect.Prog

namespace McpShield

/-! ## Published events -/

/-- The audit event that a call publishes. -/
def GatewayOp.published? : GatewayOp → Option AuditEvent
  | publishAuditEvent event => some event
  | _ => none

/-- The audit events published in an exchange. -/
def published (tr : GatewayTrace) : List AuditEvent := tr.filterMap fun ev => ev.1.published?

/-- The producer after the exchange. -/
def BufferingProducer.receive (p : BufferingProducer) (tr : GatewayTrace) : BufferingProducer :=
  (published tr).foldl (fun p event => (p.publishAuditEvent event).2) p

theorem BufferingProducer.buffer_receive (p : BufferingProducer) (tr : GatewayTrace) :
    (p.receive tr).buffer = p.buffer ++ published tr := by
  unfold receive
  induction published tr generalizing p with
  | nil => simp
  | cons event events ih =>
    rw [List.foldl_cons, ih]
    simp [publishAuditEvent]

@[simp] theorem published_nil : published [] = [] := rfl

@[simp] theorem published_concat (tr : GatewayTrace) (op : GatewayOp) (r : op.Reply) :
    published (tr ++ [⟨op, r⟩]) = published tr ++ op.published?.toList := by
  cases h : op.published? <;> simp [published, h]

theorem published_of_silent {tr : GatewayTrace} {op : GatewayOp} {r : op.Reply}
    (hop : op.published? = none) : published (tr ++ [⟨op, r⟩]) = published tr := by
  rw [published_concat, hop]
  exact List.append_nil _

/-- The message that is actually processed: the leftmost one of a batch. -/
def JsonRpcMessage.processed : JsonRpcMessage → JsonRpcMessage
  | batch (first :: _) => first.processed
  | m => m

theorem JsonRpcMessage.processed_of_leftmost {m sent : JsonRpcMessage}
    (h : m.leftmost = some sent) : m.processed = sent := by
  fun_induction leftmost m with
  | case1 => cases h
  | case2 m _ ih => exact ih h
  | case3 m hnil hcons =>
    obtain rfl := Option.some.inj h
    unfold processed
    split
    · next first rest => exact (hcons first rest rfl).elim
    · rfl

/-- A message is handled as the one that is processed. -/
theorem handleMessage_eq_processed (router : McpRouter) (enforcer : ScopeEnforcer)
    (sessionId : Option String) (message : JsonRpcMessage) :
    handleMessage router enforcer sessionId message = (do
      let result ← (route router message.processed enforcer sessionId).run
      record router message.processed enforcer sessionId result) := by
  fun_induction JsonRpcMessage.processed message with
  | case1 first rest ih =>
    rw [handleMessage]
    exact ih
  | case2 m hbatch =>
    unfold handleMessage
    split
    · next first rest => exact (hbatch first rest rfl).elim
    · rfl

/-- The event describes the message and the result. -/
structure Describes (enforcer : ScopeEnforcer) (sessionId : Option String)
    (message : JsonRpcMessage) (result : Except McpError JsonRpcMessage) (event : AuditEvent) :
    Prop where
  method : event.method = message.method.getD ""
  requestId : event.requestId = message.id.map RequestId.display
  sessionId : event.sessionId = sessionId
  scopes : event.scopes = enforcer.grantedScopes
  decision : event.decision = .allow ↔ ∃ reply, result = .ok reply
  errorCode : event.errorCode = (errorOf result).map McpError.code

theorem auditDecision_eq_allow_iff {result : Except McpError JsonRpcMessage} :
    auditDecision result = .allow ↔ ∃ reply, result = .ok reply := by
  cases result with
  | ok reply => simp [auditDecision]
  | error e =>
      simp only [auditDecision, reduceCtorEq, exists_false, iff_false]
      split_ifs <;> simp

section Audit

variable {router : McpRouter} {enforcer : ScopeEnforcer} {sessionId : Option String}
  {message : JsonRpcMessage} {h : GatewayTrace} {α : Type}

/-- A program that publishes nothing leaves the published events as they are. -/
theorem Unaudited.published {post : GatewayTrace → α → Prop} {p : Prog GatewayOp GatewayOp.Reply α}
    (hp : Ensures Unaudited post p h) :
    Ensures Any (fun tr _ => published tr = McpShield.published h) p h := by
  have hstep : ∀ tr op (r : op.Reply), McpShield.published tr = McpShield.published h →
      Unaudited tr op →
      McpShield.published (tr ++ [⟨op, r⟩]) = McpShield.published h := by
    intro tr op r hI hop
    rw [published_concat, hI]
    cases op with
    | publishAuditEvent event => exact absurd trivial hop
    | _ => exact List.append_nil _
  have hinv := Ensures.and_invariant (I := fun tr => McpShield.published tr = McpShield.published h)
    hstep rfl hp
  exact (hinv.mono_may fun _ _ _ => trivial).mono fun _ _ _ hmid => hmid.1

theorem route_unaudited :
    Ensures Any (fun tr _ => published tr = []) (route router message enforcer sessionId).run [] := by
  cases message with
  | request id method params => exact Unaudited.published handleRequest_settled
  | _ => exact published_nil

/-- The events published in `tr` are those of `h` and one more, which describes the message and
the result. -/
def Audited (h : GatewayTrace) (enforcer : ScopeEnforcer) (sessionId : Option String)
    (message : JsonRpcMessage) (result : Except McpError JsonRpcMessage) (tr : GatewayTrace) :
    Prop :=
  ∃ event, published tr = published h ++ [event] ∧
    Describes enforcer sessionId message result event

theorem audited_of_publish {result : Except McpError JsonRpcMessage} {tr : GatewayTrace}
    {event : AuditEvent} {r : (GatewayOp.publishAuditEvent event).Reply}
    (hold : published tr = published h)
    (hdescribes : Describes enforcer sessionId message result event) :
    Audited h enforcer sessionId message result (tr ++ [⟨.publishAuditEvent event, r⟩]) := by
  refine ⟨event, ?_, hdescribes⟩
  rw [published_concat, hold]
  rfl

theorem publishAudit_audited {result : Except McpError JsonRpcMessage}
    (hcfg : router.auditProducer = true) :
    Ensures Any (fun tr _ => Audited h enforcer sessionId message result tr)
      (publishAudit router message enforcer sessionId result) h := by
  unfold publishAudit
  simp only [hcfg, if_true]
  refine ⟨trivial, fun eventId => ⟨trivial, fun timestamp => ⟨trivial, fun duration =>
    ⟨trivial, fun _ => ?_⟩⟩⟩⟩
  refine audited_of_publish ?_
    { method := rfl, requestId := rfl, sessionId := rfl, scopes := rfl
      decision := auditDecision_eq_allow_iff
      errorCode := ?_ }
  · rw [published_of_silent rfl, published_of_silent rfl, published_of_silent rfl]
  · cases result <;> rfl

/-- Recording a result publishes one event, which describes it. -/
theorem record_audited {result : Except McpError JsonRpcMessage}
    (hcfg : router.auditProducer = true) (hnone : published h = []) :
    Ensures Any
      (fun tr r => r = result ∧ Audited [] enforcer sessionId message result tr)
      (record router message enforcer sessionId result) h := by
  refine ⟨trivial, fun duration => ⟨trivial, fun _ => ?_⟩⟩
  refine (publishAudit_audited hcfg).bind fun tr _ _ haudited => ⟨rfl, ?_⟩
  obtain ⟨event, hpublished, hdescribes⟩ := haudited
  refine ⟨event, ?_, hdescribes⟩
  rw [hpublished, published_of_silent rfl, published_of_silent rfl, hnone]
  rfl

/-- A message that is not a non-empty batch is routed and recorded. -/
theorem recorded_audited (hcfg : router.auditProducer = true) :
    Ensures Any (fun tr r => Audited [] enforcer sessionId message r tr)
      ((route router message enforcer sessionId).run >>=
        record router message enforcer sessionId) [] := by
  refine route_unaudited.bind fun tr result _ hnone => ?_
  refine (record_audited hcfg hnone).mono ?_
  rintro tr' r - ⟨rfl, haudited⟩
  exact haudited

end Audit

/-- Every message is recorded once, as the message that is processed. -/
theorem handleMessage_audited {router : McpRouter} (hcfg : router.auditProducer = true)
    (enforcer : ScopeEnforcer) (sessionId : Option String) : ∀ message,
    Ensures Any (fun tr r => Audited [] enforcer sessionId message.processed r tr)
      (handleMessage router enforcer sessionId message) []
  | .batch (first :: _) => handleMessage_audited hcfg enforcer sessionId first
  | .batch [] => recorded_audited hcfg
  | .notification _ _ => recorded_audited hcfg
  | .request _ _ _ => recorded_audited hcfg
  | .success _ _ => recorded_audited hcfg
  | .error _ _ => recorded_audited hcfg

/-! ## Forwarded requests -/

/-- Whatever is forwarded is the message that is processed. -/
def ForwardsProcessed (message : JsonRpcMessage) (tr : GatewayTrace) : Prop :=
  ∀ server sent reply, ⟨.forwardRequest server sent, reply⟩ ∈ tr → message.processed = sent

theorem forwardsProcessed_concat {router : McpRouter} {enforcer : ScopeEnforcer}
    {sessionId : Option String} {message : JsonRpcMessage} {tr : GatewayTrace} {op : GatewayOp}
    {r : op.Reply} (hold : ForwardsProcessed message tr)
    (hop : MayForward router enforcer sessionId message tr op) :
    ForwardsProcessed message (tr ++ [⟨op, r⟩]) := by
  intro server sent reply hmem
  rcases List.mem_append.mp hmem with hmem | hmem
  · exact hold server sent reply hmem
  · obtain ⟨rfl, -⟩ := Sigma.mk.inj (List.mem_singleton.mp hmem)
    obtain ⟨-, id, method, params, -, hleftmost, -⟩ := hop
    exact JsonRpcMessage.processed_of_leftmost hleftmost

theorem forwardsProcessed_of_steps {router : McpRouter} {enforcer : ScopeEnforcer}
    {sessionId : Option String} {message : JsonRpcMessage} {tr : GatewayTrace}
    {r : Except McpError JsonRpcMessage}
    (hrun : Steps (handleMessage router enforcer sessionId message) tr (.done r)) :
    ForwardsProcessed message tr := by
  have hspec := (handleMessage_spec router enforcer sessionId message).and_invariant
    (I := ForwardsProcessed message) (fun _ _ _ => forwardsProcessed_concat)
    (fun _ _ _ hmem => absurd hmem List.not_mem_nil)
  exact (hspec.post_of_steps hrun).1

/-! ## Completeness of the log -/

/-- A message that is handled to its end is recorded by one event.  The event is appended to the
log, and it has the method and the id of whatever has been forwarded. -/
theorem handleMessage_recorded_once {router : McpRouter} {enforcer : ScopeEnforcer}
    {sessionId : Option String} {message : JsonRpcMessage} {tr : GatewayTrace}
    {r : Except McpError JsonRpcMessage} (hcfg : router.auditProducer = true)
    (hrun : Steps (handleMessage router enforcer sessionId message) tr (.done r)) :
    ∃ event, published tr = [event] ∧ Describes enforcer sessionId message.processed r event ∧
      (∀ p : BufferingProducer, (p.receive tr).buffer = p.buffer ++ [event]) ∧
      ∀ server sent reply, ⟨.forwardRequest server sent, reply⟩ ∈ tr →
        event.method = sent.method.getD "" ∧ event.requestId = sent.id.map RequestId.display := by
  obtain ⟨event, hpublished, hdescribes⟩ :=
    (handleMessage_audited hcfg enforcer sessionId message).post_of_steps hrun
  rw [published_nil, List.nil_append] at hpublished
  refine ⟨event, hpublished, hdescribes, fun p => ?_, fun server sent reply hmem => ?_⟩
  · rw [BufferingProducer.buffer_receive, hpublished]
  · obtain rfl := forwardsProcessed_of_steps hrun server sent reply hmem
    exact ⟨hdescribes.method, hdescribes.requestId⟩

theorem handleMessage_recorded_once_echo : ∃ tr r event,
    published tr = [event] ∧
      Describes (.new [scopeToolsCall]) (some "s") echoBatch.processed r event ∧
      (∀ p : BufferingProducer, (p.receive tr).buffer = p.buffer ++ [event]) ∧
      ∀ server sent reply, ⟨.forwardRequest server sent, reply⟩ ∈ tr →
        event.method = sent.method.getD "" ∧
          event.requestId = sent.id.map RequestId.display := by
  obtain ⟨tr, r, hrun, -⟩ := exists_steps_done openComponents.answer
    (handleMessage fullRouter (.new [scopeToolsCall]) (some "s") echoBatch)
  exact ⟨tr, r, handleMessage_recorded_once rfl hrun⟩

end McpShield
