import Mathlib.Data.Finset.Dedup
import Mathlib.Data.List.ReduceOption
import McpShield.Gateway.Audit
import McpShield.Lib.TwoRuns

/-!
# The order of the granted scopes

The granted scopes are a hash set, and the principal of a policy question is the first of them in
iteration order.  So a policy may decide differently for one client from run to run: the runs agree
exactly when the policy decides alike for the first scopes of both orders.
-/

open Effect Effect.Prog

namespace McpShield

/-! ## Policies as functions -/

/-- A policy: its decision on a principal, an action, a resource and a set of scopes. -/
abbrev PolicyFunction : Type := String → String → String → Finset String → Decision

/-- The set of scopes in the context of a question. -/
def scopesOf (context : AList fun _ : String => Value) : Finset String :=
  (((context.lookup "scopes").bind Value.asArray).getD []).filterMap Value.asStr |>.toFinset

def PolicyFunction.decide (policy : PolicyFunction) (question : AuthorizationRequest) : Decision :=
  policy question.principal question.action question.resource (scopesOf question.context)

/-- The response that carries a decision. -/
def policyResponse (decision : Decision) : Except CedarError AuthorizationResponse :=
  .ok { decision, decidingPolicies := [], diagnostics := [] }

/-- The components of the gateway with a policy for an authorizer. -/
def withPolicy (policy : PolicyFunction) (others : ℕ → (op : GatewayOp) → op.Reply) (n : ℕ) :
    (op : GatewayOp) → op.Reply
  | .evaluate question => policyResponse (policy.decide question)
  | op => others n op

/-! ## What comes out of a run -/

/-- A policy decision or a forwarded message. -/
inductive Observation where
  | decided (decision : Decision)
  | forwarded (serverId : String) (message : JsonRpcMessage)

/-- What a call shows of the authorization. -/
def observe : Event GatewayOp.Reply → Option Observation
  | ⟨.evaluate _, .ok response⟩ => some (.decided response.decision)
  | ⟨.forwardRequest serverId message, _⟩ => some (.forwarded serverId message)
  | _ => none

/-- The decisions and the forwarded messages of a run, in order, and its result. -/
def outcome (policy : PolicyFunction) (others : ℕ → (op : GatewayOp) → op.Reply)
    (router : McpRouter) (sessionId : Option String) (message : JsonRpcMessage)
    (enforcer : ScopeEnforcer) : List Observation × Except McpError JsonRpcMessage :=
  let run := runWith (withPolicy policy others) 0 (handleMessage router enforcer sessionId message)
  ((run.1.map observe).reduceOption, run.2)

/-- The router asks the policy about a request. -/
def AsksPolicy (router : McpRouter) (enforcer : ScopeEnforcer) (message : JsonRpcMessage)
    (method : String) (params : Option Value) : Prop :=
  router.authorizer = true ∧ (∃ id, message.processed = .request id method params) ∧
    (isValidMethod method = true ∨ Str.startsWith method "notifications/" = true) ∧
    enforcer.checkMethod method = .ok ()

/-! ## What does not depend on the order -/

section Order

variable {enforcer enforcer' : ScopeEnforcer}

/-- Two enforcers for the same scopes, listed in any order. -/
structure SameScopes (enforcer enforcer' : ScopeEnforcer) : Prop where
  scopes : enforcer.grantedScopes.Perm enforcer'.grantedScopes
  permissive : enforcer.permissive = enforcer'.permissive

theorem SameScopes.hasScope (h : SameScopes enforcer enforcer') (scope : String) :
    enforcer.hasScope scope = enforcer'.hasScope scope := by
  rw [ScopeEnforcer.hasScope, ScopeEnforcer.hasScope, h.permissive, h.scopes.contains_eq]

theorem SameScopes.checkMethod (h : SameScopes enforcer enforcer') (method : String) :
    enforcer.checkMethod method = enforcer'.checkMethod method := by
  simp only [ScopeEnforcer.checkMethod, h.permissive, h.hasScope]

theorem SameScopes.checkToolAccess (h : SameScopes enforcer enforcer') (toolName : String) :
    enforcer.checkToolAccess toolName = enforcer'.checkToolAccess toolName := by
  simp only [ScopeEnforcer.checkToolAccess, h.permissive, h.hasScope]

theorem scopesOf_authorizationRequest (enforcer : ScopeEnforcer) (method : String)
    (params : Option Value) :
    scopesOf (authorizationRequest enforcer method params).context =
      enforcer.grantedScopes.toFinset := by
  cases hscopes : enforcer.grantedScopes with
  | nil => simp [authorizationRequest, scopesOf, hscopes]
  | cons scope scopes =>
    have hlookup : (authorizationRequest enforcer method params).context.lookup "scopes" =
        some (.ofStrings enforcer.grantedScopes) := by
      simp only [authorizationRequest, hscopes]
      exact AList.lookup_insert _
    have hstrings : ((scope :: scopes).map Value.string).filterMap Value.asStr =
        scope :: scopes := by
      rw [List.filterMap_map]
      exact List.filterMap_some
    rw [scopesOf, hlookup, hscopes]
    exact congrArg List.toFinset hstrings

/-- The principal of a policy question. -/
def principalOf (enforcer : ScopeEnforcer) : String :=
  enforcer.grantedScopes.head?.getD "anonymous"

/-- The resource of a policy question. -/
def resourceOf (params : Option Value) : String :=
  ((params.bind fun p => p.get "name").bind Value.asStr).getD "any"

theorem decide_authorizationRequest (policy : PolicyFunction) (enforcer : ScopeEnforcer)
    (method : String) (params : Option Value) :
    policy.decide (authorizationRequest enforcer method params) =
      policy (principalOf enforcer) method (resourceOf params) enforcer.grantedScopes.toFinset := by
  rw [PolicyFunction.decide, scopesOf_authorizationRequest]
  rfl

theorem SameScopes.dispatch (h : SameScopes enforcer enforcer') (router : McpRouter)
    (id : RequestId) (method : String) (params : Option Value) (sessionId : Option String) :
    dispatch router id method params enforcer sessionId =
      dispatch router id method params enforcer' sessionId := by
  simp only [McpShield.dispatch, handleToolsCall, h.checkToolAccess]

/-! ## Runs for two orders -/

variable {policy : PolicyFunction} {others : ℕ → (op : GatewayOp) → op.Reply} {n : ℕ}

/-- If the policy decides alike, its answers to the two questions are the same. -/
theorem coupled_checkPolicy {router : McpRouter} {method : String} {params : Option Value}
    (hsame : router.authorizer = true →
      policy.decide (authorizationRequest enforcer method params) =
        policy.decide (authorizationRequest enforcer' method params)) :
    Coupled observe (withPolicy policy others) (withPolicy policy others) n
      (checkPolicy router enforcer method params).run
      (checkPolicy router enforcer' method params).run := by
  unfold checkPolicy
  split_ifs with hcfg
  · have hask : Coupled observe (withPolicy policy others) (withPolicy policy others) n
        (ask (.evaluate (authorizationRequest enforcer method params)) :
          GatewayM (Except CedarError AuthorizationResponse)).run
        (ask (.evaluate (authorizationRequest enforcer' method params)) :
          GatewayM (Except CedarError AuthorizationResponse)).run :=
      ⟨congrArg (fun d => [some (Observation.decided d)]) (hsame hcfg),
        congrArg (fun d => (Except.ok (policyResponse d) : Except McpError _)) (hsame hcfg)⟩
    refine hask.bindExcept fun m answer => ?_
    cases answer with
    | ok response => exact Coupled.refl _
    | error e => exact Coupled.refl _
  · exact Coupled.refl _

theorem SameScopes.coupled_handleRequest (h : SameScopes enforcer enforcer') {router : McpRouter}
    {id : RequestId} {method : String} {params : Option Value} {sessionId : Option String}
    (hsame : router.authorizer = true →
      (isValidMethod method = true ∨ Str.startsWith method "notifications/" = true) →
      enforcer.checkMethod method = .ok () →
        policy.decide (authorizationRequest enforcer method params) =
          policy.decide (authorizationRequest enforcer' method params)) :
    Coupled observe (withPolicy policy others) (withPolicy policy others) n
      (handleRequest router id method params enforcer sessionId).run
      (handleRequest router id method params enforcer' sessionId).run := by
  unfold handleRequest
  split_ifs with hinvalid
  · exact Coupled.refl _
  · have hvalid : isValidMethod method = true ∨ Str.startsWith method "notifications/" = true := by
      simpa [or_iff_not_imp_left] using hinvalid
    rw [← h.checkMethod, ← h.dispatch]
    cases hcheck : enforcer.checkMethod method with
    | error e => exact Coupled.refl _
    | ok u =>
      exact (coupled_checkPolicy fun hcfg => hsame hcfg hvalid hcheck).bindExcept
        fun m a => Coupled.refl _

/-- The audit event names the principal and the scopes, which an observer of the authorization does
not see. -/
theorem coupled_publishAudit (router : McpRouter) (message : JsonRpcMessage)
    (sessionId : Option String) (result : Except McpError JsonRpcMessage) :
    Coupled observe (withPolicy policy others) (withPolicy policy others) n
      (publishAudit router message enforcer sessionId result)
      (publishAudit router message enforcer' sessionId result) := by
  unfold publishAudit
  cases router.auditProducer with
  | false => exact Coupled.refl _
  | true =>
    exact (Coupled.refl _).bind fun _ _ => (Coupled.refl _).bind fun _ _ =>
      (Coupled.refl _).bind fun _ _ => Coupled.call rfl (Coupled.refl _)

theorem coupled_record (router : McpRouter) (message : JsonRpcMessage) (sessionId : Option String)
    (result : Except McpError JsonRpcMessage) :
    Coupled observe (withPolicy policy others) (withPolicy policy others) n
      (record router message enforcer sessionId result)
      (record router message enforcer' sessionId result) :=
  (Coupled.refl _).bind fun _ _ => (Coupled.refl _).bind fun _ _ =>
    (coupled_publishAudit router message sessionId result).bind fun _ _ => Coupled.refl _

theorem SameScopes.coupled_handleMessage (h : SameScopes enforcer enforcer') {router : McpRouter}
    {message : JsonRpcMessage} {sessionId : Option String}
    (hsame : ∀ method params, AsksPolicy router enforcer message method params →
      policy.decide (authorizationRequest enforcer method params) =
        policy.decide (authorizationRequest enforcer' method params)) :
    Coupled observe (withPolicy policy others) (withPolicy policy others) n
      (handleMessage router enforcer sessionId message)
      (handleMessage router enforcer' sessionId message) := by
  rw [handleMessage_eq_processed, handleMessage_eq_processed]
  refine Coupled.bind ?_ fun m result => coupled_record router _ sessionId result
  unfold route
  cases hmessage : message.processed with
  | request id method params =>
    exact h.coupled_handleRequest fun hcfg hvalid hcheck =>
      hsame method params ⟨hcfg, ⟨id, hmessage⟩, hvalid, hcheck⟩
  | _ => exact Coupled.refl _

/-- When the policy is asked, the run begins with its decision. -/
theorem outcome_of_asks {router : McpRouter} {message : JsonRpcMessage}
    {sessionId : Option String} {method : String} {params : Option Value}
    (h : AsksPolicy router enforcer message method params) :
    (outcome policy others router sessionId message enforcer).1.head? =
      some (.decided (policy.decide (authorizationRequest enforcer method params))) := by
  obtain ⟨hcfg, ⟨id, hmessage⟩, hvalid, hcheck⟩ := h
  have hinvalid : (!isValidMethod method && !Str.startsWith method "notifications/") = false := by
    rcases hvalid with hvalid | hvalid <;> simp [hvalid]
  unfold outcome
  rw [handleMessage_eq_processed, hmessage]
  simp only [route, handleRequest, hinvalid, hcheck, checkPolicy, hcfg]
  rfl

/-- Two orders of the same scopes lead to the same outcome exactly when the policy, if it is asked,
decides alike for the principals that they begin with. -/
theorem sameOutcome_iff (h : SameScopes enforcer enforcer') (policy : PolicyFunction)
    (others : ℕ → (op : GatewayOp) → op.Reply) (router : McpRouter) (sessionId : Option String)
    (message : JsonRpcMessage) :
    outcome policy others router sessionId message enforcer =
        outcome policy others router sessionId message enforcer' ↔
      ∀ method params, AsksPolicy router enforcer message method params →
        policy (principalOf enforcer) method (resourceOf params) enforcer.grantedScopes.toFinset =
          policy (principalOf enforcer') method (resourceOf params)
            enforcer.grantedScopes.toFinset := by
  have hset : enforcer'.grantedScopes.toFinset = enforcer.grantedScopes.toFinset :=
    (List.toFinset_eq_of_perm _ _ h.scopes).symm
  constructor
  · intro hsame method params hasks
    have hasks' : AsksPolicy router enforcer' message method params :=
      ⟨hasks.1, hasks.2.1, hasks.2.2.1, h.checkMethod method ▸ hasks.2.2.2⟩
    have hhead := congrArg (fun o => o.1.head?) hsame
    simp only [outcome_of_asks hasks, outcome_of_asks hasks', decide_authorizationRequest, hset]
      at hhead
    exact Observation.decided.inj (Option.some.inj hhead)
  · intro hsame
    have hcoupled : Coupled observe (withPolicy policy others) (withPolicy policy others) 0
        (handleMessage router enforcer sessionId message)
        (handleMessage router enforcer' sessionId message) := by
      refine h.coupled_handleMessage fun method params hasks => ?_
      rw [decide_authorizationRequest, decide_authorizationRequest, hset]
      exact hsame method params hasks
    exact Prod.ext (congrArg List.reduceOption hcoupled.1) hcoupled.2

end Order

/-! ## A policy about the principal -/

def readThenCall : ScopeEnforcer := .new [scopeToolsRead, scopeToolsCall]

def callThenRead : ScopeEnforcer := .new [scopeToolsCall, scopeToolsRead]

theorem sameScopes_readThenCall : SameScopes readThenCall callThenRead :=
  ⟨by decide, rfl⟩

def listRequest : JsonRpcMessage := .request (.integer 1) methodToolsList none

theorem asksPolicy_listRequest (enforcer : ScopeEnforcer)
    (h : enforcer.checkMethod methodToolsList = .ok ()) :
    AsksPolicy fullRouter enforcer listRequest methodToolsList none :=
  ⟨rfl, ⟨_, rfl⟩, .inl (by decide), h⟩

/-- A policy that asks for the set of scopes alone. -/
theorem sameOutcome_bySet :
    outcome (fun _ _ _ scopes => if scopeToolsCall ∈ scopes then .allow else .deny)
        (fun _ => openComponents.answer) fullRouter none listRequest readThenCall =
      outcome (fun _ _ _ scopes => if scopeToolsCall ∈ scopes then .allow else .deny)
        (fun _ => openComponents.answer) fullRouter none listRequest callThenRead :=
  (sameOutcome_iff sameScopes_readThenCall ..).mpr fun _ _ _ => rfl

/-- A policy that permits one principal only. -/
def callersOnly : PolicyFunction := fun principal _ _ _ =>
  if principal = scopeToolsCall then .allow else .deny

/-- The same client is denied under one order and allowed under the other. -/
theorem callersOnly_depends_on_order :
    SameScopes readThenCall callThenRead ∧
      outcome callersOnly (fun _ => openComponents.answer) fullRouter none listRequest readThenCall ≠
        outcome callersOnly (fun _ => openComponents.answer) fullRouter none listRequest
          callThenRead := by
  refine ⟨sameScopes_readThenCall, fun hsame => ?_⟩
  have hread := asksPolicy_listRequest readThenCall (by decide)
  have hcall := asksPolicy_listRequest callThenRead (by decide)
  have hhead := congrArg (fun o => o.1.head?) hsame
  simp only [outcome_of_asks hread, outcome_of_asks hcall, decide_authorizationRequest] at hhead
  have hdecision := Observation.decided.inj (Option.some.inj hhead)
  exact absurd hdecision (by decide)

end McpShield
