import McpShield.Gateway.Router

/-!
# The stages of the pipeline

What each stage of the router guarantees about the calls made so far.  A request reaches an upstream
server through `forwardRequest` only; every stage but the last is quiet, that is, it forwards
nothing, and when it succeeds the trace holds the answer that let it succeed.
-/

open Effect Effect.Prog

namespace McpShield

/-- A request is sent to an upstream server. -/
def GatewayOp.IsForward : GatewayOp → Prop
  | forwardRequest _ _ => True
  | _ => False

/-- Nothing has been forwarded. -/
def NoForward (tr : GatewayTrace) : Prop := ∀ ev ∈ tr, ¬ ev.1.IsForward

/-- Admit every call but a forwarding one. -/
def Quiet (_ : GatewayTrace) (op : GatewayOp) : Prop := ¬ op.IsForward

theorem noForward_nil : NoForward [] := by
  intro ev hev
  simp at hev

theorem NoForward.append {tr : GatewayTrace} {op : GatewayOp} {r : op.Reply} (h : NoForward tr)
    (hop : ¬ op.IsForward) : NoForward (tr ++ [⟨op, r⟩]) := by
  intro ev hev
  rcases List.mem_append.mp hev with hev | hev
  · exact h ev hev
  · obtain rfl := List.mem_singleton.mp hev
    exact hop

@[simp] theorem run_ask_bind {α : Type} (op : GatewayOp) (f : op.Reply → GatewayM α) :
    (ask op >>= f).run = .call op fun r => (f r).run := rfl

@[simp] theorem mem_concat_self (tr : GatewayTrace) (ev : Event GatewayOp.Reply) :
    ev ∈ tr ++ [ev] := by simp

section Stages

variable {h : GatewayTrace} {router : McpRouter} {enforcer : ScopeEnforcer}
  {sessionId : Option String} {toolName : String} {arguments : Value}

/-! ## The checks before forwarding -/

theorem lookupTool_spec :
    Ensures Quiet (onOk fun h' entry => ⟨.lookupAny toolName, .ok (some entry)⟩ ∈ h')
      (lookupTool toolName).run h := by
  refine ⟨id, fun r => ?_⟩
  cases r with
  | error e => trivial
  | ok found =>
    cases found with
    | none => trivial
    | some entry => exact mem_concat_self _ _

theorem checkSchema_spec {registered : RegisteredTool} :
    Ensures Quiet
      (onOk fun h' _ => arguments.isNull = false →
        ⟨.validate registered.tool.inputSchema arguments, .ok ()⟩ ∈ h')
      (checkSchema registered arguments).run h := by
  unfold checkSchema
  by_cases hnull : arguments.isNull
  · simp [hnull, onOk]
  · simp only [hnull, Bool.false_eq_true, if_false, run_ask_bind, ensures_call]
    refine ⟨id, fun r => ?_⟩
    cases r with
    | error e => exact ⟨id, fun _ => trivial⟩
    | ok _ => exact fun _ => mem_concat_self _ _

theorem checkConstraints_spec :
    Ensures Quiet
      (onOk fun h' _ => router.ecpaGuardrail = true → ∃ result,
        ⟨.evaluateConstraints toolName arguments, .ok result⟩ ∈ h' ∧ result.satisfied = true)
      (checkConstraints router toolName arguments).run h := by
  unfold checkConstraints
  by_cases hcfg : router.ecpaGuardrail
  · simp only [hcfg, if_true, run_ask_bind, ensures_call]
    refine ⟨id, fun r => ?_⟩
    cases r with
    | error e => exact ⟨id, fun _ => trivial⟩
    | ok result =>
      by_cases hsat : result.satisfied
      · simp only [hsat, if_true, run_pure, ensures_done]
        exact fun _ => ⟨result, mem_concat_self _ _, hsat⟩
      · simp only [hsat, Bool.false_eq_true, if_false, run_ask_bind, ensures_call]
        exact ⟨id, fun _ => trivial⟩
  · simp [hcfg, onOk]

theorem checkSession_spec :
    Ensures Quiet
      (onOk fun h' _ => ∀ sid, router.sessions = true → sessionId = some sid → ∃ access,
        ⟨.checkContextAccess sid (toolContext toolName), access⟩ ∈ h' ∧
          ∀ reason lockedTo, access ≠ .ok (.deny reason lockedTo))
      (checkSession router sessionId toolName arguments).run h := by
  unfold checkSession
  cases hcfg : router.sessions with
  | false => simp [onOk]
  | true =>
    cases sessionId with
    | none => simp [onOk]
    | some sid =>
      refine ⟨id, fun access => ?_⟩
      -- an answer that is no denial is remembered while the call is recorded
      have hmem : ∀ access : Except SessionError AccessCheckResult,
          (∀ reason lockedTo, access ≠ .ok (.deny reason lockedTo)) →
          Ensures Quiet
            (onOk fun h' _ => ∀ sid', true = true → some sid = some sid' → ∃ access,
              ⟨.checkContextAccess sid' (toolContext toolName), access⟩ ∈ h' ∧
                ∀ reason lockedTo, access ≠ .ok (.deny reason lockedTo))
            (do
              let timestamp ← ask .utcNow
              let _ ← ask (.logToolCall sid { toolName, arguments, timestamp })
              pure () : GatewayM Unit).run
            (h ++ [⟨.checkContextAccess sid (toolContext toolName), access⟩]) := by
        intro access hno
        refine ⟨id, fun now => ⟨id, fun logged => ?_⟩⟩
        rintro sid' - hsid
        obtain rfl := Option.some.inj hsid
        exact ⟨access, by simp, hno⟩
      match access with
      | .ok (.deny reason lockedTo) => exact ⟨id, fun _ => trivial⟩
      | .ok .allow => exact hmem _ (by simp)
      | .error e => exact hmem _ (by simp)

theorem checkPolicy_spec {method : String} {params : Option Value} :
    Ensures Quiet
      (onOk fun h' _ => router.authorizer = true → ∃ response,
        ⟨.evaluate (authorizationRequest enforcer method params), .ok response⟩ ∈ h' ∧
          response.decision = .allow)
      (checkPolicy router enforcer method params).run h := by
  unfold checkPolicy
  by_cases hcfg : router.authorizer
  · simp only [hcfg, if_true, run_ask_bind, ensures_call]
    refine ⟨id, fun r => ?_⟩
    cases r with
    | error e => exact ⟨id, fun _ => trivial⟩
    | ok response =>
      by_cases hdeny : response.decision = .deny
      · simp only [hdeny, if_true, run_ask_bind, ensures_call]
        exact ⟨id, fun _ => trivial⟩
      · have hallow : response.decision = .allow := by
          cases hd : response.decision with
          | allow => rfl
          | deny => exact absurd hd hdeny
        simp only [hdeny, if_false, run_pure, ensures_done]
        exact fun _ => ⟨response, mem_concat_self _ _, hallow⟩
  · simp [hcfg, onOk]

theorem handleInitialize_spec {id : RequestId} {params : Option Value} :
    Ensures Quiet (fun _ _ => True) (handleInitialize router id params).run h := by
  refine ⟨fun hfwd => hfwd, fun parsed => ?_⟩
  cases parsed <;> trivial

/-! ## After forwarding -/

/-- The response handed back for the response of an upstream server. -/
def Inspected (router : McpRouter) (toolName serverId : String) (response out : JsonRpcMessage)
    (tr : GatewayTrace) : Prop :=
  if router.egressInspector && !(inspectedContent response).isEmpty then
    ∃ inspection, ⟨.sanitizeResponse
        { toolName, content := inspectedContent response, serverId }, inspection⟩ ∈ tr ∧
      out = match inspection with
        | .ok result =>
            if result.modified then rebuildResponse response result.sanitizedContent
            else response
        | .error _ => response
  else out = response

theorem Inspected.mono {serverId : String} {response out : JsonRpcMessage}
    {tr tr' : GatewayTrace} (hsub : tr <+: tr')
    (hi : Inspected router toolName serverId response out tr) :
    Inspected router toolName serverId response out tr' := by
  unfold Inspected at hi ⊢
  split
  · next hcfg =>
    rw [if_pos hcfg] at hi
    obtain ⟨inspection, hmem, hout⟩ := hi
    exact ⟨inspection, hsub.subset hmem, hout⟩
  · next hcfg =>
    rw [if_neg hcfg] at hi
    exact hi

theorem inspectResponse_spec {serverId : String} {response : JsonRpcMessage} :
    Ensures Quiet
      (fun h' r => ∃ out, r = .ok out ∧ Inspected router toolName serverId response out h')
      (inspectResponse router toolName serverId response).run h := by
  unfold inspectResponse Inspected
  by_cases hcfg : (router.egressInspector && !(inspectedContent response).isEmpty) = true
  · simp only [hcfg, if_true, run_ask_bind, ensures_call]
    refine ⟨id, fun inspection => ?_⟩
    cases inspection with
    | error e => exact ⟨response, rfl, _, mem_concat_self _ _, rfl⟩
    | ok result =>
      by_cases hmod : result.modified
      · simp only [hmod, if_true, run_pure, ensures_done]
        exact ⟨_, rfl, _, mem_concat_self _ _, by simp [hmod]⟩
      · simp only [hmod, Bool.false_eq_true, if_false, run_pure, ensures_done]
        exact ⟨_, rfl, _, mem_concat_self _ _, by simp [hmod]⟩
  · simp only [hcfg, Bool.false_eq_true, if_false, run_pure, ensures_done]
    exact ⟨response, rfl, rfl⟩

theorem publishAudit_spec {message : JsonRpcMessage} {result : Except McpError JsonRpcMessage} :
    Ensures Quiet (fun _ _ => True) (publishAudit router message enforcer sessionId result) h := by
  unfold publishAudit
  by_cases hcfg : router.auditProducer
  · simp only [hcfg, if_true]
    exact ⟨id, fun _ => ⟨id, fun _ => ⟨id, fun _ => ⟨id, fun _ => trivial⟩⟩⟩⟩
  · simp [hcfg]

/-- The outcome is recorded without being changed. -/
theorem record_spec {message : JsonRpcMessage} {result : Except McpError JsonRpcMessage} :
    Ensures Quiet (fun _ r => r = result) (record router message enforcer sessionId result) h := by
  refine ⟨id, fun duration => ⟨id, fun _ => ?_⟩⟩
  exact publishAudit_spec.bind fun h' _ _ _ => rfl

/-! ## Stages that let a call pass -/

/-- The computation can succeed with `a`. -/
def CanSucceed {α : Type} (x : GatewayM α) (a : α) : Prop :=
  ∃ tr : GatewayTrace, Steps x.run tr (.done (.ok a))

theorem lookupTool_canSucceed (toolName : String) (entry : RegisteredTool) :
    CanSucceed (lookupTool toolName) entry := by
  have hcall : Steps (lookupTool toolName).run [⟨.lookupAny toolName, .ok (some entry)⟩]
      (.done (.ok entry)) := .call (.refl _)
  exact ⟨_, hcall⟩

theorem checkSchema_canSucceed (registered : RegisteredTool) (arguments : Value) :
    CanSucceed (checkSchema registered arguments) () := by
  unfold CanSucceed checkSchema
  split
  · exact ⟨[], .refl _⟩
  · exact ⟨[⟨.validate registered.tool.inputSchema arguments, .ok ()⟩], .call (.refl _)⟩

theorem checkConstraints_canSucceed (router : McpRouter) (toolName : String)
    (arguments : Value) :
    CanSucceed (checkConstraints router toolName arguments) () := by
  unfold CanSucceed checkConstraints
  split
  · exact ⟨[⟨.evaluateConstraints toolName arguments,
      .ok { satisfied := true, evaluations := [], summary := "" }⟩], .call (.refl _)⟩
  · exact ⟨[], .refl _⟩

theorem checkSession_canSucceed (router : McpRouter) (sessionId : Option String)
    (toolName : String) (arguments : Value) :
    CanSucceed (checkSession router sessionId toolName arguments) () := by
  unfold CanSucceed checkSession
  split
  · next sid _ =>
    exact ⟨[⟨.checkContextAccess sid (toolContext toolName), .ok .allow⟩,
      ⟨.utcNow, (0 : DateTime)⟩,
      ⟨.logToolCall sid { toolName, arguments, timestamp := 0 }, .ok ()⟩],
      .call (.call (.call (.refl _)))⟩
  · exact ⟨[], .refl _⟩

theorem checkPolicy_canSucceed (router : McpRouter) (enforcer : ScopeEnforcer) (method : String)
    (params : Option Value) :
    CanSucceed (checkPolicy router enforcer method params) () := by
  unfold CanSucceed checkPolicy
  split
  · exact ⟨[⟨.evaluate (authorizationRequest enforcer method params),
      .ok { decision := .allow, decidingPolicies := [], diagnostics := [] }⟩], .call (.refl _)⟩
  · exact ⟨[], .refl _⟩

end Stages

end McpShield
