import McpShield.EnabledControls
import McpShield.Gateway.Interleaving
import McpShield.Gateway.ToolNames
import McpShield.Policy.DefaultPolicy

/-!
# A gateway with the shipped policies

The shipped policies permit the calls of two tools, by names without a colon; every registered tool
has a name with one.  And they permit requests of the client `authenticated` only, while `main` has
every request judged as one of the client `anonymous`.
-/

open Effect Effect.Prog Literal

namespace McpShield

open CedarSyntax CedarPolicyAuthorizer

/-! ## Registered names -/

namespace ToolRegistry

variable {R : ToolRegistry}

/-- The registry is well formed and asks for prefixes in reverse-DNS form. -/
def Strict (R : ToolRegistry) : Prop := R.Inv ∧ R.enforcePrefixFormat = true

theorem strict_withConfig (allowedPrefixes : List String) :
    (withConfig true allowedPrefixes).Strict :=
  ⟨Inv.withConfig true allowedPrefixes, rfl⟩

theorem Strict.step (hR : R.Strict) (op : RegistryOp) : (registryMachine.step R op).2.Strict := by
  refine ⟨hR.1.step op, ?_⟩
  cases op with
  | registerTool tool serverId now =>
    show (R.registerTool tool serverId now).2.enforcePrefixFormat = true
    rcases registerTool_cases R tool serverId now with ⟨e, h⟩ | ⟨pfx, name, -, -, -, h⟩
    · rw [h]
      exact hR.2
    · rw [h]
      exact hR.2
  | unregisterServer serverId => exact (unregisterServer_config R serverId).1.trans hR.2
  | lookup | lookupAny | listTools | listToolsByServer | count | clear => exact hR.2

theorem clean_of_chars {cs : List Char} (h : ∀ c ∈ cs, c ≠ '"' ∧ c ≠ '\\') : Clean cs :=
  ⟨fun hmem => (h _ hmem).1 rfl, fun hmem => (h _ hmem).2 rfl⟩

theorem ne_quote_of_char {c : Char}
    (h : isLabelChar c = true ∨ c = '.' ∨ isNameChar c = true ∨ c = ':') :
    c ≠ '"' ∧ c ≠ '\\' := by
  constructor
  · rintro rfl
    revert h
    decide
  · rintro rfl
    revert h
    decide

/-- A registered name has a colon, and neither quotes nor backslashes. -/
theorem Strict.name_form (hR : R.Strict) {q : String} {entry : RegisteredTool}
    (hentry : R.lookup q = some entry) : ':' ∈ q.toList ∧ Clean q.toList := by
  obtain ⟨hinv, henforced⟩ := hR
  have hparsed := hinv.parsed hentry
  rw [henforced] at hparsed
  obtain ⟨-, hname, -, hpfx⟩ := parseToolName_enforced_iff.mp hparsed
  obtain ⟨-, rfl⟩ := hinv.key_eq hentry
  rw [qualify_eq, String.toList_append, String.toList_append, String.toList_singleton]
  refine ⟨by simp, clean_of_chars fun c hc => ne_quote_of_char ?_⟩
  rcases List.mem_append.mp hc with hc | hc
  · rcases List.mem_append.mp hc with hc | hc
    · exact (hpfx c hc).imp_right .inl
    · exact .inr (.inr (.inr (List.mem_singleton.mp hc)))
  · exact .inr (.inr (.inl (hname.2.2 c hc)))

end ToolRegistry

/-! ## Tool calls -/

section ToolCalls

variable {E : CedarEngine} {Consists : E.PolicySet → List (String × CedarPolicy) → Prop}
  {authz : CedarPolicyAuthorizer E} {request : AuthorizationRequest}
  {response : AuthorizationResponse}

/-- The call of a tool with a colon in its name is not allowed. -/
theorem tool_question_denied (hE : E.Documented Consists)
    (hhas : authz.Has Consists defaultPolicies) (hanswer : authz.evaluate request = .ok response)
    (hcall : request.action = "tools/call") (hclean : Clean request.resource.toList)
    (hcolon : ':' ∈ request.resource.toList) : response.decision ≠ .allow := by
  intro hallow
  obtain ⟨entities, value, hbuild, -, hdecision⟩ := evaluate_ok hE hhas hanswer
  obtain ⟨client, expr, action, resource, -, -, -, haction, hresource, rfl⟩ :=
    buildEntities_eq_ok_iff.mp hbuild
  have haction' : action.id = "tools/call" := by
    rw [← hcall, hE.syntaxes.id_eq_iff (by decide) haction, hcall]
    decide
  have hresource' : resource.id = request.resource :=
    (hE.syntaxes.id_eq_iff (not_quote_resourceType request) hresource).mpr hclean
  obtain ⟨-, ⟨action', hmem, hopen⟩ | ⟨-, ⟨tool, hmem, htool⟩, -⟩⟩ :=
    policiesAllow_default_iff.mp (hdecision.mp hallow)
  · obtain rfl : "tools/call" = action' := haction'.symm.trans (congrArg EntityUid.id hopen)
    exact absurd hmem (by decide)
  · obtain rfl : request.resource = tool := hresource'.symm.trans (congrArg EntityUid.id htool)
    have hnone : ∀ tool ∈ callableTools, ':' ∉ tool.toList := by decide
    exact hnone _ hmem hcolon

variable {router : McpRouter} {tasks : ℕ → Task} {s s' : Shared} {h : History}
  {Q : ℕ → Prog ServerOp ServerOp.Reply TaskOutcome}

theorem strict_serve {op : ServerOp} {r : op.Reply} (hserve : Shared.serve s op r s')
    (hstrict : s.registry.Strict) : s'.registry.Strict := by
  rcases Shared.registry_serve hserve with ⟨call, -, hstep⟩ | hsame
  · rw [hstep]
    exact hstrict.step call
  · rwa [hsame]

/-- With the shipped policies no tool call is ever forwarded: whatever scopes the clients have been
granted, whatever is registered with the prefix format enforced, and however the handlers, the
registrations and the sessions are interleaved. -/
theorem default_policies_keep_back_tools (hE : E.Documented Consists)
    (hhas : authz.Has Consists defaultPolicies) (hcfg : router.authorizer = true)
    (hregistry : s.registry.Strict) (hrun : TasksRun router tasks s h Q s')
    (hanswers : ∀ i question reply, (i, ⟨.gateway (.evaluate question), reply⟩) ∈ h →
      reply = authz.evaluate question) :
    tagged (fun ev => ev.1.forwarded?) h = [] := by
  rw [List.eq_nil_iff_forall_not_mem]
  rintro ⟨i, P⟩ hmem
  obtain ⟨⟨op, reply⟩, hev, hop⟩ := mem_tagged.mp hmem
  obtain ⟨server, id, rfl⟩ := eq_forwardRequest_of_forwarded? hop
  obtain ⟨h₁, h₂, rfl⟩ := List.append_of_mem (mem_callsOf.mp hev)
  obtain ⟨enforcer, sessionId, message, toolName, -, hgates⟩ := passedGates_of_call hrun
  obtain ⟨question, response, hquestion, haction, hresource, hallow⟩ := hgates.policy hcfg
  obtain ⟨entry, found, -, hmoment, -⟩ := hgates.owned
  obtain ⟨h₃, h₄, s₁, -, hserves, hentry⟩ := hmoment
  have hstrict : s₁.registry.Strict :=
    hserves.invariant (I := fun s => s.registry.Strict) (P := fun _ => True) hregistry
      (fun _ _ => trivial) fun _ _ _ _ hserve _ => strict_serve hserve
  obtain ⟨hcolon, hclean⟩ := hstrict.name_form hentry
  rw [← hresource] at hcolon hclean
  have hanswer := hanswers i question _ (List.mem_append_left _ hquestion)
  exact tool_question_denied hE hhas hanswer.symm haction hclean hcolon hallow

end ToolCalls

/-! ### Two clients with all scopes -/

/-- The shipped policies decide, every other component lets every call pass. -/
def shippedComponents : Components :=
  { openComponents with evaluate := shippedAuthorizer.evaluate }

theorem default_policies_keep_back_tools_echo :
    tagged (fun ev => ev.1.forwarded?)
      (runSchedule (Shared.answer shippedComponents)
        (fun i => (echoTasks i).program fullRouter) echoShared [0, 1, 0, 0, 2]).1 = [] := by
  refine default_policies_keep_back_tools documented_plainEngine shippedAuthorizer_has rfl
    ((ToolRegistry.strict_withConfig []).step (.registerTool echoTool "echo" 0))
    (interleaves_runSchedule (Shared.serve_answer shippedComponents) _ _ _) ?_
  intro i question reply hmem
  obtain ⟨s, hs⟩ := mem_runSchedule hmem
  exact hs

/-! ## The assembled gateway -/

section Assembled

variable {E : CedarEngine} {Consists : E.PolicySet → List (String × CedarPolicy) → Prop}
  {authz : CedarPolicyAuthorizer E} {question : AuthorizationRequest}
  {response : AuthorizationResponse} {config : Config} {env : Environment} {gateway : Gateway}
  {schema : Value → Value → Except McpError Unit}

/-- A client that is not `authenticated` is allowed nothing. -/
theorem other_question_denied (hE : E.Documented Consists)
    (hhas : authz.Has Consists defaultPolicies) (hanswer : authz.evaluate question = .ok response)
    (hclean : Clean question.principal.toList) (hother : question.principal ≠ "authenticated") :
    response.decision ≠ .allow := by
  intro hallow
  obtain ⟨entities, value, hbuild, -, hdecision⟩ := evaluate_ok hE hhas hanswer
  obtain ⟨client, expr, action, resource, hclient, -, -, -, -, rfl⟩ :=
    buildEntities_eq_ok_iff.mp hbuild
  have hid : client.id = question.principal :=
    (hE.syntaxes.id_eq_iff (by decide) hclient).mpr hclean
  obtain ⟨hprincipal, -⟩ := policiesAllow_default_iff.mp (hdecision.mp hallow)
  exact hother (hid.symm.trans (congrArg EntityUid.id hprincipal))

/-- An assembled gateway asks every question for the client `anonymous`, who has no scopes. -/
theorem anonymous_question (hgateway : Assembled config env gateway) (method : String)
    (params : Option Value) :
    (authorizationRequest gateway.scopeEnforcer method params).principal = "anonymous" := by
  rw [hgateway.scopeEnforcer]
  rfl

/-- The event is not that the policy allows the question. -/
def PolicyRefuses (question : AuthorizationRequest) (ev : Event GatewayOp.Reply) : Prop :=
  ∀ response, ev = ⟨.evaluate question, .ok response⟩ → response.decision ≠ .allow

/-- A known request that the policy refuses is answered with an error. -/
theorem handleRequest_refused {router : McpRouter} {enforcer : ScopeEnforcer}
    {sessionId : Option String} {id : RequestId} {method : String} {params : Option Value}
    {h : GatewayTrace} (hcfg : router.authorizer = true)
    (hknown : isValidMethod method = true ∨ Str.startsWith method "notifications/" = true) :
    Ensures (fun _ _ => True)
      (InEnv (PolicyRefuses (authorizationRequest enforcer method params))
        fun _ r => ∃ e, r = .error e)
      (handleRequest router id method params enforcer sessionId).run h := by
  have hunknown : ¬ (!isValidMethod method && !Str.startsWith method "notifications/") = true := by
    rcases hknown with h | h <;> simp [h]
  unfold handleRequest
  rw [if_neg hunknown]
  refine Ensures.result_bind (fun e _ _ => ⟨e, rfl⟩) fun _ _ => ?_
  have hpolicy : Ensures (fun _ _ => True)
      (InEnv (PolicyRefuses (authorizationRequest enforcer method params))
        fun _ r => ∃ e, r = .error e)
      (checkPolicy router enforcer method params).run h := by
    refine (checkPolicy_spec.mono_may fun _ _ _ => trivial).mono fun h' r _ hmid henv => ?_
    cases r with
    | error e => exact ⟨e, rfl⟩
    | ok =>
      obtain ⟨response, hmem, hallow⟩ := hmid hcfg
      exact absurd hallow (henv _ hmem _ rfl)
  refine Ensures.bindExcept_inEnv hpolicy (fun _ e _ => ⟨e, rfl⟩) fun _ a hmid => ?_
  obtain ⟨e, he⟩ := hmid
  cases he

/-- A known request is answered with an error, if the policy refuses everything. -/
theorem handleMessage_refused {router : McpRouter} {enforcer : ScopeEnforcer}
    {sessionId : Option String} {message : JsonRpcMessage} {id : RequestId} {method : String}
    {params : Option Value} (hcfg : router.authorizer = true)
    (hmsg : message.leftmost = some (.request id method params))
    (hknown : isValidMethod method = true ∨ Str.startsWith method "notifications/" = true) :
    Ensures (fun _ _ => True)
      (InEnv (PolicyRefuses (authorizationRequest enforcer method params))
        fun _ r => ∃ e, r = .error e)
      (handleMessage router enforcer sessionId message) [] := by
  rw [handleMessage_eq_processed, JsonRpcMessage.processed_of_leftmost hmsg]
  refine (handleRequest_refused hcfg hknown).bind fun h' result _ hmid => ?_
  refine (record_spec.mono_may fun _ _ _ => trivial).mono ?_
  rintro h'' r hh'' rfl henv
  exact hmid fun ev hev => henv ev (hh''.subset hev)

/-- The authorizer of the assembled gateway is that of the policy file. -/
theorem Assembled.authorizer_eq (hgateway : Assembled config env gateway)
    (henabled : config.policy.enabled = true)
    (hfile : env.policyFile config.policy.policyFile = some (.ok authz.evaluate)) :
    gateway.authorizer = some authz.evaluate := by
  have hload := hgateway.authorizer
  rw [loadAuthorizer, if_pos henabled, hfile] at hload
  exact (Except.ok.inj hload).symm

/-- The policy of the assembled gateway allows nothing. -/
theorem Assembled.not_allow (hE : E.Documented Consists)
    (hhas : authz.Has Consists defaultPolicies) (hgateway : Assembled config env gateway)
    (hauthz : gateway.authorizer = some authz.evaluate) {method : String} {params : Option Value}
    (hanswer : (gateway.components schema).answer
      (.evaluate (authorizationRequest gateway.scopeEnforcer method params)) = .ok response) :
    response.decision ≠ .allow := by
  have hprincipal := anonymous_question hgateway method params
  have hevaluate : (gateway.authorizer.getD openComponents.evaluate)
      (authorizationRequest gateway.scopeEnforcer method params) = .ok response := hanswer
  rw [hauthz] at hevaluate
  refine other_question_denied hE hhas hevaluate ?_ ?_
  · rw [hprincipal]
    decide
  · rw [hprincipal]
    decide

/-- With the shipped policies an assembled gateway lets nothing through, whatever else is
configured: no HTTP request makes it forward a message, and every known request is answered with an
error. -/
theorem default_policies_refuse_all (hE : E.Documented Consists)
    (hhas : authz.Has Consists defaultPolicies) (hassemble : assemble config env = .ok gateway)
    (henabled : config.policy.enabled = true)
    (hfile : env.policyFile config.policy.policyFile = some (.ok authz.evaluate)) :
    (∀ serde sessions clients request tr out,
      Steps (gateway.serve serde config.server sessions clients request) tr (.done out) →
        gateway.Answers schema tr → NoForward tr) ∧
      ∀ sid message id method params tr r,
        message.leftmost = some (.request id method params) →
          (isValidMethod method = true ∨ Str.startsWith method "notifications/" = true) →
            Steps (handleMessage gateway.router gateway.scopeEnforcer sid message) tr (.done r) →
              gateway.Answers schema tr → ∃ e, r = .error e := by
  have hgateway := assembled_of_assemble hassemble
  have hauthz := hgateway.authorizer_eq henabled hfile
  have hcfg : gateway.router.authorizer = true := by
    rw [hgateway.router, hauthz]
    rfl
  constructor
  · intro serde sessions clients request tr out hrun hanswers
    rintro ⟨op, reply⟩ hmem hfwd
    obtain ⟨before, after, rfl⟩ := List.append_of_mem hmem
    cases op with
    | forwardRequest server sent =>
      obtain ⟨sid, message, id, method, params, -, -, -, hlet, -⟩ :=
        letThrough_of_run hgateway hrun hanswers
      obtain ⟨response, hanswer, hallow⟩ := hlet.policy hcfg
      exact hgateway.not_allow hE hhas hauthz hanswer hallow
    | _ => exact hfwd
  · intro sid message id method params tr r hmsg hknown hrun hanswers
    refine (handleMessage_refused hcfg hmsg hknown).post_of_steps hrun fun ev hev response heq => ?_
    rw [heq] at hev
    exact hgateway.not_allow hE hhas hauthz (hanswers _ _ hev trivial).symm

/-! ### The default configuration with policies -/

/-- Policies are enabled. -/
def policyConfig : Config where
  policy := { enabled := true }

/-- The policy file has the shipped policies. -/
def shippedEnvironment : Environment :=
  { allowingEnvironment with policyFile := fun _ => some (.ok shippedAuthorizer.evaluate) }

/-- What is assembled then. -/
def shippedGateway : Gateway where
  router := .withFullConfig "mcp-shield" "0.1.0" true false true
  registry := buildRegistry policyConfig 0
  proxy := buildProxy policyConfig
  authorizer := some shippedAuthorizer.evaluate
  scopeEnforcer := .allowAll

theorem default_policies_refuse_all_shipped :
    (∀ serde sessions clients request tr out,
      Steps (shippedGateway.serve serde policyConfig.server sessions clients request) tr
        (.done out) → shippedGateway.Answers acceptAll tr → NoForward tr) ∧
      ∀ sid message id method params tr r,
        message.leftmost = some (.request id method params) →
          (isValidMethod method = true ∨ Str.startsWith method "notifications/" = true) →
            Steps (handleMessage shippedGateway.router shippedGateway.scopeEnforcer sid message) tr
              (.done r) → shippedGateway.Answers acceptAll tr → ∃ e, r = .error e := by
  have hassemble : assemble policyConfig shippedEnvironment = .ok shippedGateway := rfl
  exact default_policies_refuse_all documented_plainEngine shippedAuthorizer_has hassemble rfl rfl

end Assembled

end McpShield
