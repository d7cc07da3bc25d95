import McpShield.Gateway.Stages

/-!
# Refusals

The router refuses a request with an error that carries no id.  `refusalOf` says when and with which
error, from the request, the granted scopes and the answers of the components: the first answer
that refuses decides, and without one the request itself.  `handleMessage_outcome` ties it to the
pipeline.
-/

open Effect Effect.Prog

namespace McpShield

/-! ## Answers that refuse -/

/-- The error for an answer of the Cedar authorizer. -/
def policyRefusal : Except CedarError AuthorizationResponse → Option McpError
  | .ok response =>
      if response.decision = .deny then
        let diagnostics := ", ".intercalate response.diagnostics
        some (.scopeDenied s!"Cedar policy denied: {diagnostics}")
      else none
  | .error e =>
      let text := e.display
      some (.internalError s!"Policy evaluation failed: {text}")

/-- The error for the parsed parameters of `initialize`. -/
def initializeRefusal : Except String InitializeParams → Option McpError
  | .ok _ => none
  | .error e => some (.invalidParams s!"Invalid initialize params: {e}")

/-- The error for an answer of the registry. -/
def lookupRefusal (name : String) : Except McpError (Option RegisteredTool) → Option McpError
  | .ok (some _) => none
  | .ok none => some (.methodNotFound s!"Tool '{name}' not found in registry")
  | .error e => some e

/-- The error for an answer of the constraint guardrail. -/
def constraintRefusal : Except EcpaError ConstraintResult → Option McpError
  | .ok result =>
      if result.satisfied then none
      else
        let explanations := violations result
        some (.ecpaViolation s!"ePCA constraint violated: {explanations}")
  | .error e =>
      let text := e.display
      some (.ecpaViolation s!"ePCA evaluation failed: {text}")

/-- The error for an answer of the session manager. -/
def sessionRefusal : Except SessionError AccessCheckResult → Option McpError
  | .ok (.deny reason lockedTo) =>
      let visibility := lockedTo.visibility.asStr
      some (.sessionLocked
        s!"Session locked to {visibility} context '{lockedTo.identifier}'. {reason}")
  | _ => none

/-- The error of a result. -/
def errorOf {α : Type} : Except McpError α → Option McpError
  | .ok _ => none
  | .error e => some e

/-- The error for the default server. -/
def serverRefusal : Option String → Option McpError
  | some _ => none
  | none => some (.upstreamError "No upstream servers configured")

/-- The error with which the router refuses a request for the answer to a call, if it does. -/
def GatewayOp.refusal : (op : GatewayOp) → op.Reply → Option McpError
  | .parseInitializeParams _, parsed => initializeRefusal parsed
  | .lookupAny name, found => lookupRefusal name found
  | .validate _ _, result => errorOf result
  | .evaluate _, answer => policyRefusal answer
  | .evaluateConstraints _ _, answer => constraintRefusal answer
  | .checkContextAccess _ _, access => sessionRefusal access
  | .forwardRequest _ _, reply => errorOf reply
  | .defaultServerId, server => serverRefusal server
  | _, _ => none

/-- The error for the first answer that refuses. -/
def firstRefusal (tr : GatewayTrace) : Option McpError := tr.findSome? fun ev => ev.1.refusal ev.2

/-- The error for a tool call that no component refuses. -/
def toolRefusal (enforcer : ScopeEnforcer) (params : Option Value) : Option McpError :=
  match toolNameOf (params.getD .emptyObject) with
  | .ok toolName => errorOf (enforcer.checkToolAccess toolName)
  | .error e => some e

/-- The error for a request that no component refuses. -/
def requestRefusal (enforcer : ScopeEnforcer) (method : String) (params : Option Value) :
    Option McpError :=
  if method = methodToolsCall then toolRefusal enforcer params
  else if method = methodInitialized then
    some (.invalidRequest "notifications/initialized should be a notification (no id)")
  else none

/-- The error with which a request is refused, given the answers of the components. -/
def refusalOf (enforcer : ScopeEnforcer) (method : String) (params : Option Value)
    (tr : GatewayTrace) : Option McpError :=
  if !isValidMethod method && !Str.startsWith method "notifications/" then none
  else (errorOf (enforcer.checkMethod method)).or
    ((firstRefusal tr).or (requestRefusal enforcer method params))

@[simp] theorem firstRefusal_nil : firstRefusal [] = none := rfl

@[simp] theorem firstRefusal_concat (tr : GatewayTrace) (op : GatewayOp) (r : op.Reply) :
    firstRefusal (tr ++ [⟨op, r⟩]) = (firstRefusal tr).or (op.refusal r) := by
  simp [firstRefusal, List.findSome?_append]

/-! ## What the stages refuse -/

/-- An audit event is published. -/
def GatewayOp.IsPublish : GatewayOp → Prop
  | publishAuditEvent _ => True
  | _ => False

/-- Admit every call but the publishing of an audit event. -/
def Unaudited (_ : GatewayTrace) (op : GatewayOp) : Prop := ¬ op.IsPublish

/-- Admit every call. -/
def Any (_ : GatewayTrace) (_ : GatewayOp) : Prop := True

/-- The outcome of a stage: the error is the first refusal, and a success means that there is
none. -/
def Refuses {α : Type} (tr : GatewayTrace) : Except McpError α → Prop
  | .ok _ => firstRefusal tr = none
  | .error e => firstRefusal tr = some e

section Stages

variable {h : GatewayTrace} {router : McpRouter} {enforcer : ScopeEnforcer}
  {sessionId : Option String} {toolName method : String} {arguments : Value} {params : Option Value}
  {id : RequestId} {op : GatewayOp} {r : op.Reply} {e : McpError} {α : Type}

theorem passed (hnone : firstRefusal h = none) (hop : op.refusal r = none) :
    firstRefusal (h ++ [⟨op, r⟩]) = none := by
  rw [firstRefusal_concat, hnone, hop, Option.or_none]

theorem refused (hnone : firstRefusal h = none) (hop : op.refusal r = some e) :
    firstRefusal (h ++ [⟨op, r⟩]) = some e := by
  rw [firstRefusal_concat, hnone, hop, Option.none_or]

/-- What is counted after a refusal does not change it. -/
theorem refused_then (hnone : firstRefusal h = none) (hop : op.refusal r = some e)
    (ev : Event GatewayOp.Reply) : firstRefusal (h ++ [⟨op, r⟩] ++ [ev]) = some e := by
  rw [firstRefusal_concat, refused hnone hop, Option.some_or]

/-- After a stage that refuses nothing the rest of the pipeline runs; an error is the outcome. -/
theorem Refuses.then {x : GatewayM α} {f : α → GatewayM JsonRpcMessage}
    {post : GatewayTrace → Except McpError JsonRpcMessage → Prop}
    (hx : Ensures Unaudited Refuses x.run h)
    (herr : ∀ tr e, firstRefusal tr = some e → post tr (.error e))
    (hf : ∀ tr a, firstRefusal tr = none → Ensures Unaudited post (f a).run tr) :
    Ensures Unaudited post (x >>= f).run h :=
  Ensures.bindExcept hx (fun tr e _ => herr tr e) fun tr a _ => hf tr a

theorem lookupTool_refuses (hnone : firstRefusal h = none) :
    Ensures Unaudited Refuses (lookupTool toolName).run h := by
  refine ⟨not_false, fun found => ?_⟩
  cases found with
  | error e => exact refused hnone rfl
  | ok entry =>
    cases entry with
    | none => exact refused hnone rfl
    | some registered => exact passed hnone rfl

theorem checkSchema_refuses {registered : RegisteredTool} (hnone : firstRefusal h = none) :
    Ensures Unaudited Refuses (checkSchema registered arguments).run h := by
  unfold checkSchema
  by_cases hnull : arguments.isNull
  · simp only [hnull, if_true]
    exact hnone
  · simp only [hnull, Bool.false_eq_true, if_false, run_ask_bind, ensures_call]
    refine ⟨not_false, fun result => ?_⟩
    cases result with
    | error e => exact ⟨not_false, fun _ => refused_then hnone rfl _⟩
    | ok _ => exact passed hnone rfl

theorem checkConstraints_refuses (hnone : firstRefusal h = none) :
    Ensures Unaudited Refuses (checkConstraints router toolName arguments).run h := by
  unfold checkConstraints
  by_cases hcfg : router.ecpaGuardrail
  · simp only [hcfg, if_true, run_ask_bind, ensures_call]
    refine ⟨not_false, fun answer => ?_⟩
    cases answer with
    | error e => exact ⟨not_false, fun _ => refused_then hnone rfl _⟩
    | ok result =>
      by_cases hsat : result.satisfied
      · simp only [hsat, if_true, run_pure, ensures_done]
        exact passed hnone (if_pos hsat)
      · simp only [hsat, Bool.false_eq_true, if_false, run_ask_bind, ensures_call]
        refine ⟨not_false, fun _ => refused_then hnone ?_ _⟩
        exact if_neg hsat
  · simp only [hcfg, Bool.false_eq_true, if_false]
    exact hnone

theorem checkSession_refuses (hnone : firstRefusal h = none) :
    Ensures Unaudited Refuses (checkSession router sessionId toolName arguments).run h := by
  unfold checkSession
  split
  · next sid _ =>
    refine ⟨not_false, fun access => ?_⟩
    match access with
    | .ok (.deny reason lockedTo) => exact ⟨not_false, fun _ => refused_then hnone rfl _⟩
    | .ok .allow =>
        exact ⟨not_false, fun _ => ⟨not_false, fun _ => passed (passed (passed hnone rfl) rfl) rfl⟩⟩
    | .error e =>
        exact ⟨not_false, fun _ => ⟨not_false, fun _ => passed (passed (passed hnone rfl) rfl) rfl⟩⟩
  · exact hnone

theorem checkPolicy_refuses (hnone : firstRefusal h = none) :
    Ensures Unaudited Refuses (checkPolicy router enforcer method params).run h := by
  unfold checkPolicy
  by_cases hcfg : router.authorizer
  · simp only [hcfg, if_true, run_ask_bind, ensures_call]
    refine ⟨not_false, fun answer => ?_⟩
    cases answer with
    | error e => exact ⟨not_false, fun _ => refused_then hnone rfl _⟩
    | ok response =>
      by_cases hdeny : response.decision = .deny
      · simp only [hdeny, if_true, run_ask_bind, ensures_call]
        refine ⟨not_false, fun _ => refused_then hnone ?_ _⟩
        exact if_pos hdeny
      · simp only [hdeny, if_false, run_pure, ensures_done]
        exact passed hnone (if_neg hdeny)
  · simp only [hcfg, Bool.false_eq_true, if_false]
    exact hnone

/-! ## Replies -/

/-- Every reply of an upstream server carries the id. -/
def UpstreamCarries (id : RequestId) (tr : GatewayTrace) : Prop :=
  ∀ server sent reply, ⟨.forwardRequest server sent, .ok reply⟩ ∈ tr → reply.id = some id

/-- The outcome of a request with the id, given what it is refused with when no component refuses
it: a refusal is the error, and a reply carries the id if those of the upstream servers do. -/
def Outcome (id : RequestId) (refusal : Option McpError) (tr : GatewayTrace) :
    Except McpError JsonRpcMessage → Prop
  | .ok reply => (firstRefusal tr).or refusal = none ∧ (UpstreamCarries id tr → reply.id = some id)
  | .error e => (firstRefusal tr).or refusal = some e

theorem outcome_of_refused {tr : GatewayTrace} {refusal : Option McpError}
    (hrefused : firstRefusal tr = some e) : Outcome id refusal tr (.error e) := by
  rw [Outcome, hrefused, Option.some_or]

theorem outcome_reply {tr : GatewayTrace} {reply : JsonRpcMessage} (hnone : firstRefusal tr = none)
    (hid : UpstreamCarries id tr → reply.id = some id) : Outcome id none tr (.ok reply) := by
  rw [Outcome, hnone]
  exact ⟨rfl, hid⟩

theorem UpstreamCarries.of_concat {ev : Event GatewayOp.Reply}
    (hcarries : UpstreamCarries id (h ++ [ev])) : UpstreamCarries id h :=
  fun server sent reply hmem => hcarries server sent reply (List.mem_append_left _ hmem)

theorem UpstreamCarries.of_noForward (hno : NoForward h) : UpstreamCarries id h :=
  fun _ _ _ hmem => absurd trivial (hno _ hmem)

theorem rebuildResponse_id (response : JsonRpcMessage) (content : List Value) :
    (rebuildResponse response content).id = response.id := by
  cases response <;> rfl

theorem inspectResponse_outcome {serverId : String} {response : JsonRpcMessage}
    (hnone : firstRefusal h = none) (hid : UpstreamCarries id h → response.id = some id) :
    Ensures Unaudited (Outcome id none) (inspectResponse router toolName serverId response).run h := by
  unfold inspectResponse
  by_cases hcfg : (router.egressInspector && !(inspectedContent response).isEmpty) = true
  · simp only [hcfg, if_true, run_ask_bind, ensures_call]
    refine ⟨not_false, fun inspection => ?_⟩
    cases inspection with
    | error e => exact outcome_reply (passed hnone rfl) fun hcarries => hid hcarries.of_concat
    | ok result =>
      by_cases hmod : result.modified
      · simp only [hmod, if_true, run_pure, ensures_done]
        refine outcome_reply (passed hnone rfl) fun hcarries => ?_
        rw [rebuildResponse_id]
        exact hid hcarries.of_concat
      · simp only [hmod, Bool.false_eq_true, if_false, run_pure, ensures_done]
        exact outcome_reply (passed hnone rfl) fun hcarries => hid hcarries.of_concat
  · simp only [hcfg, Bool.false_eq_true, if_false, run_pure, ensures_done]
    exact outcome_reply hnone hid

theorem forwardToolCall_outcome {P : Value} {entry : RegisteredTool}
    (hnone : firstRefusal h = none) :
    Ensures Unaudited (Outcome id none) (forwardToolCall router id P toolName entry).run h := by
  refine ⟨not_false, fun reply => ?_⟩
  cases reply with
  | error e => exact outcome_of_refused (refused hnone rfl)
  | ok response =>
    refine inspectResponse_outcome (passed hnone rfl) fun hcarries => ?_
    exact hcarries entry.serverId _ response (mem_concat_self _ _)

theorem proxyToUpstream_outcome (hnone : firstRefusal h = none) :
    Ensures Unaudited (Outcome id none) (proxyToUpstream id method params).run h := by
  refine ⟨not_false, fun server => ?_⟩
  cases server with
  | none => exact outcome_of_refused (refused hnone rfl)
  | some serverId =>
    refine ⟨not_false, fun reply => ?_⟩
    have hnone' : firstRefusal (h ++ [⟨.defaultServerId, some serverId⟩]) = none :=
      passed hnone rfl
    cases reply with
    | error e => exact outcome_of_refused (refused hnone' rfl)
    | ok response =>
      refine outcome_reply (passed hnone' rfl) fun hcarries => ?_
      exact hcarries serverId _ response (mem_concat_self _ _)

theorem handleInitialize_outcome (hnone : firstRefusal h = none) :
    Ensures Unaudited (Outcome id none) (handleInitialize router id params).run h := by
  refine ⟨not_false, fun parsed => ?_⟩
  cases parsed with
  | error e => exact outcome_of_refused (refused hnone rfl)
  | ok _ => exact outcome_reply (passed hnone rfl) fun _ => rfl

theorem handleToolsCall_outcome (hnone : firstRefusal h = none) :
    Ensures Unaudited (Outcome id (toolRefusal enforcer params))
      (handleToolsCall router id params enforcer sessionId).run h := by
  unfold handleToolsCall
  have hfail : ∀ e, toolRefusal enforcer params = some e →
      Outcome id (toolRefusal enforcer params) h (.error e) := by
    intro e he
    rw [Outcome, hnone, he, Option.none_or]
  refine Ensures.result_bind (fun e hname => hfail e ?_) fun toolName hname => ?_
  · rw [toolRefusal, hname]
  · have hstatic : toolRefusal enforcer params = errorOf (enforcer.checkToolAccess toolName) := by
      rw [toolRefusal, hname]
    refine Ensures.result_bind (fun e haccess => hfail e ?_) fun _ haccess => ?_
    · rw [hstatic, haccess, errorOf]
    · rw [hstatic, haccess, errorOf]
      refine Refuses.then (lookupTool_refuses hnone) (fun _ _ => outcome_of_refused)
        fun h₁ entry hnone₁ => ?_
      refine Refuses.then (checkSchema_refuses hnone₁) (fun _ _ => outcome_of_refused)
        fun h₂ _ hnone₂ => ?_
      refine Refuses.then (checkConstraints_refuses hnone₂) (fun _ _ => outcome_of_refused)
        fun h₃ _ hnone₃ => ?_
      refine Refuses.then (checkSession_refuses hnone₃) (fun _ _ => outcome_of_refused)
        fun h₄ _ hnone₄ => ?_
      exact forwardToolCall_outcome hnone₄

theorem requestRefusal_eq_none (hcall : method ≠ methodToolsCall)
    (hinitialized : method ≠ methodInitialized) : requestRefusal enforcer method params = none := by
  rw [requestRefusal, if_neg hcall, if_neg hinitialized]

theorem handleToolsList_outcome (hnone : firstRefusal h = none) :
    Ensures Unaudited (Outcome id none) (handleToolsList id).run h :=
  ⟨not_false, fun _ => outcome_reply (passed hnone rfl) fun _ => rfl⟩

theorem dispatch_outcome (hnone : firstRefusal h = none) :
    Ensures Unaudited (Outcome id (requestRefusal enforcer method params))
      (dispatch router id method params enforcer sessionId).run h := by
  have hreply : ∀ result, Outcome id none h (.ok (.successResponse id result)) :=
    fun _ => outcome_reply hnone fun _ => rfl
  by_cases hcall : method = methodToolsCall
  · subst hcall
    exact handleToolsCall_outcome hnone
  · by_cases hinitialized : method = methodInitialized
    · subst hinitialized
      show Outcome id _ h (.error _)
      rw [Outcome, hnone]
      rfl
    · rw [requestRefusal_eq_none hcall hinitialized]
      unfold dispatch
      split_ifs
      · exact handleInitialize_outcome hnone
      · exact hreply _
      · exact handleToolsList_outcome hnone
      · exact proxyToUpstream_outcome hnone
      · exact proxyToUpstream_outcome hnone
      · exact hreply _
      · exact proxyToUpstream_outcome hnone

/-- The outcome of a request, given the error it is refused with. -/
def Settled (id : RequestId) (refusal : GatewayTrace → Option McpError) (tr : GatewayTrace) :
    Except McpError JsonRpcMessage → Prop
  | .ok reply => refusal tr = none ∧ (UpstreamCarries id tr → reply.id = some id)
  | .error e => refusal tr = some e

theorem handleRequest_settled :
    Ensures Unaudited (Settled id (refusalOf enforcer method params))
      (handleRequest router id method params enforcer sessionId).run [] := by
  unfold handleRequest
  by_cases hunknown : (!isValidMethod method && !Str.startsWith method "notifications/") = true
  · rw [if_pos hunknown]
    exact ⟨if_pos hunknown, fun _ => rfl⟩
  · rw [if_neg hunknown]
    refine Ensures.result_bind (fun e hscope => ?_) fun _ hscope => ?_
    · rw [Settled, refusalOf, if_neg hunknown, hscope]
      rfl
    · have hrefusal : ∀ tr, refusalOf enforcer method params tr =
          (firstRefusal tr).or (requestRefusal enforcer method params) := by
        intro tr
        rw [refusalOf, if_neg hunknown, hscope, errorOf, Option.none_or]
      refine Refuses.then (checkPolicy_refuses firstRefusal_nil) (fun tr e hrefused => ?_)
        fun tr _ hnone => ?_
      · rw [Settled, hrefusal, hrefused, Option.some_or]
      · refine (dispatch_outcome hnone).mono fun tr' r _ houtcome => ?_
        cases r with
        | ok reply => exact ⟨(hrefusal tr').trans houtcome.1, houtcome.2⟩
        | error e => exact (hrefusal tr').trans houtcome

/-! ## The whole pipeline -/

/-- A call that no answer makes a refusal and that forwards nothing. -/
def Neutral (_ : GatewayTrace) (op : GatewayOp) : Prop :=
  (∀ r, op.refusal r = none) ∧ ¬ op.IsForward

theorem refusalOf_concat (hop : ∀ r, op.refusal r = none) :
    refusalOf enforcer method params (h ++ [⟨op, r⟩]) = refusalOf enforcer method params h := by
  rw [refusalOf, refusalOf, firstRefusal_concat, hop, Option.or_none]

/-- Neutral calls do not change how a request is settled. -/
theorem Settled.concat {result : Except McpError JsonRpcMessage} (hop : Neutral h op)
    (hs : Settled id (refusalOf enforcer method params) h result) :
    Settled id (refusalOf enforcer method params) (h ++ [⟨op, r⟩]) result := by
  cases result with
  | error e => exact (refusalOf_concat hop.1).trans hs
  | ok reply => exact ⟨(refusalOf_concat hop.1).trans hs.1, fun hcarries => hs.2 hcarries.of_concat⟩

theorem publishAudit_neutral {message : JsonRpcMessage} {result : Except McpError JsonRpcMessage} :
    Ensures Neutral (fun _ _ => True) (publishAudit router message enforcer sessionId result) h := by
  unfold publishAudit
  split
  · exact ⟨⟨fun _ => rfl, not_false⟩, fun _ => ⟨⟨fun _ => rfl, not_false⟩, fun _ =>
      ⟨⟨fun _ => rfl, not_false⟩, fun _ => ⟨⟨fun _ => rfl, not_false⟩, fun _ => trivial⟩⟩⟩⟩
  · trivial

theorem record_neutral {message : JsonRpcMessage} {result : Except McpError JsonRpcMessage} :
    Ensures Neutral (fun _ r => r = result) (record router message enforcer sessionId result) h := by
  refine ⟨⟨fun _ => rfl, not_false⟩, fun _ => ⟨⟨fun _ => rfl, not_false⟩, fun _ => ?_⟩⟩
  exact publishAudit_neutral.bind fun _ _ _ _ => rfl

/-- Neutral calls after a request is settled. -/
theorem Settled.neutral_then {post : GatewayTrace → α → Prop} {p : Prog GatewayOp GatewayOp.Reply α}
    {result : Except McpError JsonRpcMessage} (hp : Ensures Neutral post p h)
    (hs : Settled id (refusalOf enforcer method params) h result) :
    Ensures Any
      (fun tr a => Settled id (refusalOf enforcer method params) tr result ∧ post tr a) p h :=
  (Ensures.and_invariant (I := fun tr => Settled id (refusalOf enforcer method params) tr result)
    (fun _ _ _ hs hop => hs.concat hop) hs hp).mono_may fun _ _ _ => trivial

/-- A request is refused exactly when `refusalOf` says so, and a reply to it carries its id if the
replies of the upstream servers do. -/
theorem handleMessage_settled :
    Ensures Any (Settled id (refusalOf enforcer method params))
      (handleMessage router enforcer sessionId (.request id method params)) [] := by
  refine (handleRequest_settled.mono_may fun _ _ _ => trivial).bind fun tr result _ hs => ?_
  refine (Settled.neutral_then record_neutral hs).mono ?_
  rintro tr' r - ⟨hs', rfl⟩
  exact hs'

/-- A notification is always answered with an error, and no component is asked about it. -/
theorem handleMessage_notification :
    Ensures Any (fun _ r => r = handleNotification method)
      (handleMessage router enforcer sessionId (.notification method params)) [] :=
  record_neutral.mono_may fun _ _ _ => trivial

end Stages

end McpShield
