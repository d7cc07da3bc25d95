import McpShield.Auth.Jwt
import McpShield.Gateway.Wiring
import McpShield.Main
import McpShield.Transport.Replies

/-!
# The enabled controls

A control that the configuration enables is to be in force for every request that the assembled
gateway serves.  `controls_inForce_iff` says for which configurations and requests it is.
-/

open Effect Effect.Prog

namespace McpShield

/-! ## Which requests reach the router -/

/-- The router is given the message of the request, under a session. -/
inductive Routed (serde : SerdeJson) (server : ServerConfig) (sessions : SessionTable)
    (clients : Sse.Clients) (request : HttpRequest) : Option String → JsonRpcMessage → Prop where
  | mcp {message : JsonRpcMessage} (hhandler : request.handler server = some .mcpPost)
      (hbody : StreamableHttp.readBody serde request.body = .ok message)
      (hadmits : (Transport.http sessions request.sessionId).Admits) :
      Routed serde server sessions clients request request.sessionId message
  | sse {message : JsonRpcMessage} (hhandler : request.handler server = some .ssePost)
      (hbody : StreamableHttp.readBody serde request.body = .ok message)
      (hregistered : Sse.Registered clients request.clientId) :
      Routed serde server sessions clients request request.clientId message

section Serving

variable {serde : SerdeJson} {router : McpRouter} {enforcer : ScopeEnforcer} {gateway : Gateway}
  {server : ServerConfig} {sessions : SessionTable} {clients : Sse.Clients}
  {request : HttpRequest} {sid sid' : Option String} {message message' : JsonRpcMessage}
  {may : GatewayTrace → GatewayOp → Prop} {tr : GatewayTrace}

theorem Routed.unique (h : Routed serde server sessions clients request sid message)
    (h' : Routed serde server sessions clients request sid' message') : sid = sid' := by
  cases h with
  | mcp hhandler =>
    cases h' with
    | mcp => rfl
    | sse hhandler' => exact absurd (hhandler.symm.trans hhandler') (by simp)
  | sse hhandler =>
    cases h' with
    | mcp hhandler' => exact absurd (hhandler.symm.trans hhandler') (by simp)
    | sse => rfl

/-- Besides routing the message, the handler of `/mcp` generates an id and reads the clock. -/
theorem http_routeMessage_may (huuid : ∀ tr, may tr .newUuid) (hnow : ∀ tr, may tr .utcNow)
    (hm : Ensures may (fun _ _ => True) (handleMessage router enforcer sid message) []) :
    Ensures may (fun _ _ => True) (StreamableHttp.routeMessage router enforcer sid message) [] := by
  refine hm.bind fun tr result _ _ => ?_
  cases result with
  | error e =>
    dsimp only
    split <;> trivial
  | ok reply =>
    dsimp only
    split
    · exact ⟨huuid _, fun _ => ⟨hnow _, fun _ => ⟨hnow _, fun _ => trivial⟩⟩⟩
    · cases sid with
      | none => trivial
      | some sid => exact ⟨hnow _, fun _ => trivial⟩

/-- The handler of `/messages` only routes the message. -/
theorem sse_routeMessage_may {client : String} {tx : Sse.ChannelId}
    (hm : Ensures may (fun _ _ => True) (handleMessage router enforcer (some client) message) []) :
    Ensures may (fun _ _ => True) (Sse.routeMessage router enforcer client tx message) [] := by
  refine hm.bind fun tr result _ _ => ?_
  cases result with
  | error e =>
    dsimp only
    split <;> trivial
  | ok reply => trivial

theorem handleSsePost_of_unreadable {client : String} {tx : Sse.ChannelId} {body : ByteArray}
    {response : HttpResponse} (hclient : clients.lookup client = some tx)
    (hbody : StreamableHttp.readBody serde body = .error response) :
    ∃ out, Sse.handleSsePost serde router enforcer clients (some client) body = .done out := by
  unfold StreamableHttp.readBody at hbody
  unfold Sse.handleSsePost
  simp only [hclient]
  cases htext : String.fromUTF8? body with
  | none => exact ⟨_, rfl⟩
  | some text =>
    cases hread : serde.fromStr text with
    | error e =>
      simp only [hread]
      exact ⟨_, rfl⟩
    | ok raw =>
      cases hparse : JsonRpcMessage.parse serde raw with
      | error e =>
        simp only [hread, hparse]
        exact ⟨_, rfl⟩
      | ok message => simp [htext, hread, hparse] at hbody

theorem handleMcpPost_may (huuid : ∀ tr, may tr .newUuid) (hnow : ∀ tr, may tr .utcNow)
    {body : ByteArray} (hm : ∀ message, StreamableHttp.readBody serde body = .ok message →
      (Transport.http sessions sid).Admits →
        Ensures may (fun _ _ => True) (handleMessage router enforcer sid message) []) :
    Ensures may (fun _ _ => True)
      (StreamableHttp.handleMcpPost serde router enforcer sessions sid body) [] := by
  cases hbody : StreamableHttp.readBody serde body with
  | error response =>
    unfold StreamableHttp.handleMcpPost
    rw [hbody]
    trivial
  | ok message =>
    by_cases hadmits : (Transport.http sessions sid).Admits
    · rw [handleMcpPost_of_admits hbody hadmits]
      exact http_routeMessage_may huuid hnow (hm _ hbody hadmits)
    · rw [handleMcpPost_of_not_admits hbody hadmits]
      trivial

theorem handleSsePost_may {body : ByteArray}
    (hm : ∀ message, StreamableHttp.readBody serde body = .ok message →
      Sse.Registered clients sid →
        Ensures may (fun _ _ => True) (handleMessage router enforcer sid message) []) :
    Ensures may (fun _ _ => True)
      (Sse.handleSsePost serde router enforcer clients sid body) [] := by
  by_cases hregistered : Sse.Registered clients sid
  · obtain ⟨client, tx, rfl, hlookup⟩ := id hregistered
    cases hbody : StreamableHttp.readBody serde body with
    | error response =>
      obtain ⟨out, hout⟩ := handleSsePost_of_unreadable hlookup hbody
      rw [hout]
      trivial
    | ok message =>
      rw [handleSsePost_of_connected hbody hlookup]
      exact sse_routeMessage_may (hm _ hbody hregistered)
  · obtain ⟨response, hnot⟩ := handleSsePost_of_not_registered hregistered
    rw [hnot]
    trivial

/-- Serving a request calls what the router may call for the message that it is given, and besides
only the generator of ids and the clock. -/
theorem serve_may (huuid : ∀ tr, may tr .newUuid) (hnow : ∀ tr, may tr .utcNow)
    (hm : ∀ sid message, Routed serde server sessions clients request sid message →
      Ensures may (fun _ _ => True)
        (handleMessage gateway.router gateway.scopeEnforcer sid message) []) :
    Ensures may (fun _ _ => True)
      (gateway.serve serde server sessions clients request) [] := by
  unfold Gateway.serve
  cases hhandler : request.handler server with
  | none => trivial
  | some endpoint =>
    cases endpoint with
    | mcpPost =>
      have hpost := handleMcpPost_may huuid hnow fun message hbody hadmits =>
        hm request.sessionId message (.mcp hhandler hbody hadmits)
      exact hpost.bind fun _ _ _ _ => trivial
    | mcpDelete => trivial
    | sseGet =>
      dsimp only
      cases request.clientId with
      | none => exact ⟨huuid _, fun _ => trivial⟩
      | some clientId => trivial
    | ssePost =>
      have hpost := handleSsePost_may fun message hbody hregistered =>
        hm request.clientId message (.sse hhandler hbody hregistered)
      exact hpost.bind fun _ _ _ _ => trivial

/-- What the router does for a message that it is given is done when the request is served. -/
theorem serve_forwardsBy {answer : (op : GatewayOp) → op.Reply} {serverId : String}
    {sent : JsonRpcMessage} (h : Routed serde server sessions clients request sid message)
    (hforwards : ForwardsBy answer
      (handleMessage gateway.router gateway.scopeEnforcer sid message) serverId sent) :
    ForwardsBy answer (gateway.serve serde server sessions clients request) serverId sent := by
  unfold Gateway.serve
  cases h with
  | mcp hhandler hbody hadmits =>
    simp only [hhandler]
    rw [handleMcpPost_of_admits hbody hadmits]
    exact hforwards.bind.bind
  | sse hhandler hbody hadmits =>
    obtain ⟨client, tx, hclient, hlookup⟩ := hadmits
    simp only [hhandler, hclient] at hforwards ⊢
    rw [handleSsePost_of_connected hbody hlookup]
    exact hforwards.bind.bind

end Serving

/-! ## Controls in force -/

/-- A header of the request carries a token that the validator accepts. -/
def HttpRequest.Authenticated {J : Jsonwebtoken} (jv : JwtValidator J.Key) (now : ℕ)
    (request : HttpRequest) : Prop :=
  ∃ value text token claims, ("authorization", value) ∈ request.headers ∧
    HeaderValue.toStr value = some text ∧ JwtValidator.extractBearerToken text = .ok token ∧
      jv.validateToken now token = .ok claims

/-- The constraints of a tool call are evaluated. -/
def EvaluatesConstraints (params : Value) (op : GatewayOp) : Prop :=
  ∃ toolName, toolNameOf params = .ok toolName ∧
    op = .evaluateConstraints toolName (argumentsOf params)

/-- The lock of a session is checked for a tool call. -/
def ChecksLock (params : Value) (op : GatewayOp) : Prop :=
  ∃ toolName sid, toolNameOf params = .ok toolName ∧
    op = .checkContextAccess sid (toolContext toolName)

/-- The policy is asked about a tool call. -/
def EvaluatesPolicy (params : Value) (op : GatewayOp) : Prop :=
  ∃ toolName question, toolNameOf params = .ok toolName ∧ op = .evaluate question ∧
    question.action = methodToolsCall ∧ question.resource = toolName

/-- Every tool call that is forwarded comes after a call that evaluates it. -/
def ForwardedAfter (evaluates : Value → GatewayOp → Prop) (tr : GatewayTrace) : Prop :=
  ∀ before after server sent reply, tr = before ++ ⟨.forwardRequest server sent, reply⟩ :: after →
    sent.method = some methodToolsCall →
      ∃ ev ∈ before, evaluates (sent.params.getD .emptyObject) ev.1

/-- The response to every tool call that is answered is inspected. -/
def AnsweredAfterInspection (tr : GatewayTrace) : Prop :=
  ∀ before after server sent response,
    tr = before ++ ⟨.forwardRequest server sent, .ok response⟩ :: after →
      sent.method = some methodToolsCall →
        ∃ toolName, toolNameOf (sent.params.getD .emptyObject) = .ok toolName ∧
          ∃ ev ∈ after, ev.1 = .sanitizeResponse
            { toolName, content := inspectedContent response, serverId := server }

/-- The controls that the configuration enables are in force in a run. -/
structure InForce (config : Config) (authenticated : Prop) (tr : GatewayTrace) : Prop where
  auth : config.auth.enabled = true → ¬ authenticated → NoForward tr
  ecpa : config.guardrails.ecpaEnabled = true → ForwardedAfter EvaluatesConstraints tr
  egress : config.guardrails.egressEnabled = true → AnsweredAfterInspection tr
  sessionLocking : config.guardrails.sessionLocking = true → ForwardedAfter ChecksLock tr
  policy : config.policy.enabled = true → ForwardedAfter EvaluatesPolicy tr

/-- What the configuration must not enable when a request is let through. -/
structure InForceWhen (config : Config) (env : Environment) (authenticated : Prop)
    (sid : Option String) (method : String) : Prop where
  auth : config.auth.enabled = true → authenticated
  ecpa : method = methodToolsCall → config.guardrails.ecpaEnabled = false
  egress : method = methodToolsCall → config.guardrails.egressEnabled = false
  sessionLocking : method = methodToolsCall → config.guardrails.sessionLocking = true → sid.isSome
  policy : method = methodToolsCall → config.policy.enabled = true →
    (env.policyFile config.policy.policyFile).isSome

/-! ## The components of the assembled gateway -/

/-- The components, with the schema validator `schema`; what is outside the gateway answers as in
`openComponents`. -/
def Gateway.components (gateway : Gateway) (schema : Value → Value → Except McpError Unit) :
    Components :=
  { openComponents with
    registry := gateway.registry
    servers := gateway.proxy
    -- No handler ever creates a session in the session manager.
    sessions := .new
    validate := schema
    evaluate := gateway.authorizer.getD openComponents.evaluate }

/-- The answer is settled when the gateway is assembled. -/
def GatewayOp.IsSettled : GatewayOp → Prop
  | lookupAny _ | listTools | defaultServerId | evaluate _ | validate _ _ => True
  | checkContextAccess _ _ => True
  | _ => False

/-- The components of the gateway answer; the world outside may answer in any way. -/
def Gateway.Answers (gateway : Gateway) (schema : Value → Value → Except McpError Unit)
    (tr : GatewayTrace) : Prop :=
  ∀ op (r : op.Reply), ⟨op, r⟩ ∈ tr → op.IsSettled → r = (gateway.components schema).answer op

section Assembled

variable {config : Config} {env : Environment} {gateway : Gateway}

/-- What `main` has assembled. -/
structure Assembled (config : Config) (env : Environment) (gateway : Gateway) : Prop where
  authorizer : loadAuthorizer config.policy env.policyFile = .ok gateway.authorizer
  router : gateway.router = .withFullConfig config.server.serverInfo.name
    config.server.serverInfo.version gateway.authorizer.isSome config.guardrails.sessionLocking true
  proxy : gateway.proxy = buildProxy config
  scopeEnforcer : gateway.scopeEnforcer = .allowAll

theorem assembled_of_assemble (h : assemble config env = .ok gateway) :
    Assembled config env gateway := by
  simp only [assemble, bind_eq_ok_iff, mapError_eq_ok_iff, pure, Except.pure,
    Except.ok.injEq] at h
  obtain ⟨-, -, authorizer, hauthorizer, -, -, rfl⟩ := h
  exact ⟨hauthorizer, rfl, rfl, ite_self _⟩

theorem registerServer_ne_empty (proxy : UpstreamProxy) (server : UpstreamServer) :
    (proxy.registerServer server).servers ≠ ∅ := by
  intro hempty
  have hmem : server.id ∈ (proxy.registerServer server).servers :=
    (AList.mem_insert _).mpr (.inl rfl)
  rw [hempty] at hmem
  exact AList.notMem_empty _ hmem

/-- There is always a server: the echo server is registered first. -/
theorem buildProxy_ne_empty (config : Config) : (buildProxy config).servers ≠ ∅ :=
  List.foldlRecOn (motive := fun proxy : UpstreamProxy => proxy.servers ≠ ∅) _ _
    (registerServer_ne_empty _ _) fun _ _ _ _ => registerServer_ne_empty _ _

theorem Assembled.permissive (h : Assembled config env gateway) :
    gateway.scopeEnforcer.permissive = true := by
  rw [h.scopeEnforcer]
  rfl

theorem Assembled.exists_defaultServerId (h : Assembled config env gateway) :
    ∃ server, gateway.proxy.defaultServerId = some server := by
  rw [h.proxy]
  exact UpstreamProxy.exists_defaultServerId (buildProxy_ne_empty config)

/-- If policies are enabled, there is an authorizer exactly when there is a policy file. -/
theorem Assembled.authorizer_isSome_iff (h : Assembled config env gateway)
    (henabled : config.policy.enabled = true) :
    gateway.authorizer.isSome ↔ (env.policyFile config.policy.policyFile).isSome := by
  have hload := h.authorizer
  unfold loadAuthorizer at hload
  rw [if_pos henabled] at hload
  match hfile : env.policyFile config.policy.policyFile with
  | some (.ok authz) =>
    rw [hfile] at hload
    simp [← Except.ok.inj hload]
  | some (.error e) =>
    rw [hfile] at hload
    cases hload
  | none =>
    rw [hfile] at hload
    simp [← Except.ok.inj hload]

variable {serde : SerdeJson} {sessions : SessionTable} {clients : Sse.Clients}
  {request : HttpRequest} {schema : Value → Value → Except McpError Unit} {sid : Option String}
  {message : JsonRpcMessage} {method server : String} {params : Option Value}
  {sent : JsonRpcMessage} {tr : GatewayTrace} {id : RequestId}

theorem Gateway.Answers.mono {tr' : GatewayTrace} (h : gateway.Answers schema tr')
    (hsub : tr <+: tr') : gateway.Answers schema tr :=
  fun op r hmem => h op r (hsub.subset hmem)

theorem AnsweredBy.answers (h : AnsweredBy (gateway.components schema).answer tr) :
    gateway.Answers schema tr :=
  fun op r hmem _ => h op r hmem

/-- A request that is forwarded has been let through by the components of the gateway. -/
theorem letThrough_of_steps (hgateway : Assembled config env gateway)
    (hanswers : gateway.Answers schema tr) {k : Continuation}
    (hrun : Steps (handleMessage gateway.router gateway.scopeEnforcer sid message) tr
      (.call (.forwardRequest server sent) k)) :
    ∃ id method params, sent = .request id method params ∧
      message.leftmost = some (.request id method params) ∧
      LetThrough gateway.router gateway.scopeEnforcer (gateway.components schema).answer method
        params ∧
      (method = methodToolsCall → ∃ P toolName entry, params = some P ∧
        toolNameOf P = .ok toolName ∧
          Cleared gateway.router gateway.scopeEnforcer sid P toolName entry tr) := by
  obtain ⟨-, id, method, params, rfl, hmsg, hcall⟩ :=
    (handleMessage_spec gateway.router gateway.scopeEnforcer sid message).may_of_steps hrun
  have hadmits := handleMessage_admits gateway.router gateway.scopeEnforcer sid message
  obtain ⟨id', method', params', hmsg', hadmitted⟩ := hadmits.may_of_steps hrun trivial
  obtain ⟨rfl, rfl, rfl⟩ := JsonRpcMessage.request.inj (Option.some.inj (hmsg.symm.trans hmsg'))
  have htool : method = methodToolsCall → ∃ P toolName entry, params = some P ∧
      toolNameOf P = .ok toolName ∧
        Cleared gateway.router gateway.scopeEnforcer sid P toolName entry tr := by
    intro hmethod
    obtain ⟨P, toolName, entry, hP, -, hcleared⟩ := hcall hmethod
    exact ⟨P, toolName, entry, hP, by simp [toolNameOf, hcleared.name], hcleared⟩
  refine ⟨id, method, params, rfl, hmsg, ?_, htool⟩
  exact
    { known := hadmitted.known
      forwarded := hadmitted.forwarded
      policy := fun hcfg => by
        obtain ⟨response, hmem, hallow⟩ := hadmitted.policy hcfg
        exact ⟨response, (hanswers _ _ hmem trivial).symm, hallow⟩
      server := hgateway.exists_defaultServerId
      tool := fun hmethod => by
        obtain ⟨P, toolName, entry, hP, hname, hcleared⟩ := htool hmethod
        refine ⟨P, toolName, entry, hP, hname, (hanswers _ _ hcleared.owner trivial).symm, ?_⟩
        exact fun hnull => (hanswers _ _ (hcleared.schema hnull) trivial).symm }

/-! ## The configuration decides -/

/-- Serving the request leaves the enabled controls in force, whatever the world answers. -/
def StaysInForce (config : Config) (gateway : Gateway)
    (schema : Value → Value → Except McpError Unit) (authenticated : Prop)
    (p : Prog GatewayOp GatewayOp.Reply Served) : Prop :=
  ∀ tr out, Steps p tr (.done out) → gateway.Answers schema tr → InForce config authenticated tr

variable {authenticated : Prop} {before after : GatewayTrace} {out : Served}
  {reply : Except McpError JsonRpcMessage}

/-- A message that is forwarded when a request is served. -/
theorem letThrough_of_run (hgateway : Assembled config env gateway)
    (hrun : Steps (gateway.serve serde config.server sessions clients request)
      (before ++ ⟨.forwardRequest server sent, reply⟩ :: after) (.done out))
    (hanswers : gateway.Answers schema (before ++ ⟨.forwardRequest server sent, reply⟩ :: after)) :
    ∃ sid message id method params,
      Routed serde config.server sessions clients request sid message ∧
      sent = .request id method params ∧
      message.leftmost = some (.request id method params) ∧
      LetThrough gateway.router gateway.scopeEnforcer (gateway.components schema).answer method
        params ∧
      (method = methodToolsCall → ∃ P toolName entry, params = some P ∧
        toolNameOf P = .ok toolName ∧
          Cleared gateway.router gateway.scopeEnforcer sid P toolName entry before) := by
  have hspec : Ensures (fun tr op => op.IsForward → ∃ sid message k,
      Routed serde config.server sessions clients request sid message ∧
        Steps (handleMessage gateway.router gateway.scopeEnforcer sid message) tr (.call op k))
      (fun _ _ => True) (gateway.serve serde config.server sessions clients request) [] := by
    refine serve_may (fun _ hfwd => absurd hfwd not_false) (fun _ hfwd => absurd hfwd not_false)
      fun sid message hrouted => ?_
    have hcalls := ensures_steps (handleMessage gateway.router gateway.scopeEnforcer sid message)
    refine (hcalls.mono_may fun tr op hcall _ => ?_).mono fun _ _ _ _ => trivial
    obtain ⟨k, hk⟩ := hcall
    exact ⟨sid, message, k, hrouted, hk⟩
  obtain ⟨k, hcall⟩ := hrun.exists_call
  obtain ⟨sid, message, k', hrouted, hrouter⟩ := hspec.may_of_steps hcall trivial
  obtain ⟨id, method, params, hsent, hmsg, hlet, htool⟩ :=
    letThrough_of_steps hgateway (hanswers.mono (List.prefix_append _ _)) hrouter
  exact ⟨sid, message, id, method, params, hrouted, hsent, hmsg, hlet, htool⟩

/-- Serving a request calls the components of the router only. -/
theorem wired_of_run (hrouted : Routed serde config.server sessions clients request sid message)
    (hrun : Steps (gateway.serve serde config.server sessions clients request) tr (.done out))
    {ev : Event GatewayOp.Reply} (hmem : ev ∈ tr) : Wired gateway.router sid ev.1 := by
  have hspec : Ensures (fun _ => Wired gateway.router sid) (fun _ _ => True)
      (gateway.serve serde config.server sessions clients request) [] := by
    refine serve_may (fun _ => trivial) (fun _ => trivial) fun sid' message' hrouted' => ?_
    obtain rfl := hrouted.unique hrouted'
    exact handleMessage_staysWired _ _ _ _ _
  obtain ⟨before, after, rfl⟩ := List.append_of_mem hmem
  obtain ⟨k, hcall⟩ := hrun.exists_call
  exact hspec.may_of_steps hcall

/-- A request that is let through is forwarded and answered in some run. -/
theorem exists_run_of_letThrough (hgateway : Assembled config env gateway)
    (hrouted : Routed serde config.server sessions clients request sid message)
    (hmsg : message.leftmost = some (.request id method params))
    (hlet : LetThrough gateway.router gateway.scopeEnforcer (gateway.components schema).answer
      method params) :
    ∃ tr before server response after out,
      tr = before ++ ⟨.forwardRequest server (.request id method params), .ok response⟩ :: after ∧
        Steps (gateway.serve serde config.server sessions clients request) tr (.done out) ∧
        gateway.Answers schema tr := by
  have hecpa : gateway.router.ecpaGuardrail = false := by
    rw [hgateway.router]
    rfl
  have hsession : ∀ sid scope reason lockedTo, (gateway.components schema).answer
      (.checkContextAccess sid scope) ≠ .ok (.deny reason lockedTo) := by
    intro sid scope reason lockedTo hdeny
    cases hdeny
  obtain ⟨server, hforwards⟩ : ∃ server, ForwardsBy (gateway.components schema).answer
      (handleMessage gateway.router gateway.scopeEnforcer sid message) server
      (.request id method params) :=
    handleMessage_forwardsBy hgateway.permissive hecpa hsession hmsg hlet
  obtain ⟨before, k, hbefore, hcall⟩ := serve_forwardsBy hrouted hforwards
  obtain ⟨after, out, hafter, hanswered⟩ := exists_steps_done (gateway.components schema).answer
    (k ((gateway.components schema).answer (.forwardRequest server (.request id method params))))
  refine ⟨_, before, server, _, after, out, rfl, hcall.trans (.call hafter),
    AnsweredBy.answers ?_⟩
  exact hbefore.append ((answeredBy_single _ _).append hanswered)

/-- What the configuration does not enable, if the controls stay in force for a request that is let
through. -/
theorem inForceWhen_of_staysInForce (hgateway : Assembled config env gateway)
    (hinForce : StaysInForce config gateway schema authenticated
      (gateway.serve serde config.server sessions clients request))
    (hrouted : Routed serde config.server sessions clients request sid message)
    (hmsg : message.leftmost = some (.request id method params))
    (hlet : LetThrough gateway.router gateway.scopeEnforcer (gateway.components schema).answer
      method params) : InForceWhen config env authenticated sid method := by
  obtain ⟨tr, before, server, response, after, out, rfl, hrun, hanswers⟩ :=
    exists_run_of_letThrough hgateway hrouted hmsg hlet
  have hrunInForce := hinForce _ _ hrun hanswers
  have hbefore {ev : Event GatewayOp.Reply} (hmem : ev ∈ before) :
      Wired gateway.router sid ev.1 :=
    wired_of_run hrouted hrun (List.mem_append_left _ hmem)
  have hafter {ev : Event GatewayOp.Reply} (hmem : ev ∈ after) :
      Wired gateway.router sid ev.1 :=
    wired_of_run hrouted hrun (List.mem_append_right _ (List.mem_cons_of_mem _ hmem))
  have hrouter := hgateway.router
  constructor
  case auth =>
    intro henabled
    by_contra hnot
    have hforwarded := hrunInForce.auth henabled hnot
      ⟨.forwardRequest server (.request id method params), .ok response⟩ (by simp)
    exact hforwarded trivial
  case ecpa =>
    rintro rfl
    by_contra henabled
    obtain ⟨ev, hmem, toolName, -, hop⟩ :=
      hrunInForce.ecpa (by simpa using henabled) _ _ _ _ _ rfl rfl
    have hwired := hbefore hmem
    rw [hop, hrouter] at hwired
    cases hwired
  case egress =>
    rintro rfl
    by_contra henabled
    obtain ⟨toolName, -, ev, hmem, hop⟩ :=
      hrunInForce.egress (by simpa using henabled) _ _ _ _ _ rfl rfl
    have hwired := hafter hmem
    rw [hop, hrouter] at hwired
    cases hwired
  case sessionLocking =>
    rintro rfl henabled
    obtain ⟨ev, hmem, toolName, sid', -, hop⟩ :=
      hrunInForce.sessionLocking henabled _ _ _ _ _ rfl rfl
    have hwired := hbefore hmem
    rw [hop] at hwired
    simp [hwired.2]
  case policy =>
    rintro rfl henabled
    obtain ⟨ev, hmem, toolName, question, -, hop, -⟩ :=
      hrunInForce.policy henabled _ _ _ _ _ rfl rfl
    have hwired := hbefore hmem
    rw [hop, hrouter] at hwired
    exact (hgateway.authorizer_isSome_iff henabled).mp hwired

/-- The controls are in force when a request is served that is let through only where the
configuration allows it. -/
theorem staysInForce_of_when (hgateway : Assembled config env gateway)
    (hwhen : ∀ sid message id method params,
      Routed serde config.server sessions clients request sid message →
        message.leftmost = some (.request id method params) →
          LetThrough gateway.router gateway.scopeEnforcer (gateway.components schema).answer
            method params → InForceWhen config env authenticated sid method) :
    StaysInForce config gateway schema authenticated
      (gateway.serve serde config.server sessions clients request) := by
  intro tr out hrun hanswers
  have hrouter := hgateway.router
  have hforwarded : ∀ before after server sent reply,
      tr = before ++ ⟨.forwardRequest server sent, reply⟩ :: after →
        ∃ sid id method params, sent = .request id method params ∧
          InForceWhen config env authenticated sid method ∧
          (method = methodToolsCall → ∃ P toolName entry, params = some P ∧
            toolNameOf P = .ok toolName ∧
              Cleared gateway.router gateway.scopeEnforcer sid P toolName entry before) := by
    rintro before after server sent reply rfl
    obtain ⟨sid, message, id, method, params, hrouted, hsent, hmsg, hlet, htool⟩ :=
      letThrough_of_run hgateway hrun hanswers
    exact ⟨sid, id, method, params, hsent, hwhen sid message id method params hrouted hmsg hlet,
      htool⟩
  constructor
  case auth =>
    rintro henabled hnot ⟨op, reply⟩ hmem hforward
    cases op with
    | forwardRequest server sent =>
      obtain ⟨before, after, htr⟩ := List.append_of_mem hmem
      obtain ⟨sid, id, method, params, -, hin, -⟩ := hforwarded _ _ _ _ _ htr
      exact hnot (hin.auth henabled)
    | _ => exact hforward
  case ecpa =>
    intro henabled before after server sent reply htr hmethod
    obtain ⟨sid, id, method, params, rfl, hin, -⟩ := hforwarded _ _ _ _ _ htr
    exact absurd henabled (by simp [hin.ecpa (Option.some.inj hmethod)])
  case egress =>
    intro henabled before after server sent response htr hmethod
    obtain ⟨sid, id, method, params, rfl, hin, -⟩ := hforwarded _ _ _ _ _ htr
    exact absurd henabled (by simp [hin.egress (Option.some.inj hmethod)])
  case sessionLocking =>
    intro henabled before after server sent reply htr hmethod
    obtain ⟨sid, id, method, params, rfl, hin, htool⟩ := hforwarded _ _ _ _ _ htr
    have hcall := Option.some.inj hmethod
    obtain ⟨P, toolName, entry, rfl, hname, hcleared⟩ := htool hcall
    obtain ⟨s, hs⟩ := Option.isSome_iff_exists.mp (hin.sessionLocking hcall henabled)
    have hsessions : gateway.router.sessions = true := by
      rw [hrouter]
      exact henabled
    obtain ⟨access, hmem, -⟩ := hcleared.session s hsessions hs
    exact ⟨_, hmem, toolName, s, hname, rfl⟩
  case policy =>
    intro henabled before after server sent reply htr hmethod
    obtain ⟨sid, id, method, params, rfl, hin, htool⟩ := hforwarded _ _ _ _ _ htr
    have hcall := Option.some.inj hmethod
    obtain ⟨P, toolName, entry, rfl, hname, hcleared⟩ := htool hcall
    have hauthorizer : gateway.router.authorizer = true := by
      rw [hrouter]
      exact (hgateway.authorizer_isSome_iff henabled).mpr (hin.policy hcall henabled)
    obtain ⟨question, response, hmem, haction, hresource, -⟩ := hcleared.policy hauthorizer
    exact ⟨_, hmem, toolName, question, hname, rfl, haction, hresource⟩

end Assembled

/-- The enabled controls stay in force exactly when the configuration enables none that a request
which is let through does without. -/
theorem controls_inForce_iff {config : Config} {env : Environment} {gateway : Gateway}
    (hgateway : assemble config env = .ok gateway) (serde : SerdeJson) (sessions : SessionTable)
    (clients : Sse.Clients) (request : HttpRequest)
    (schema : Value → Value → Except McpError Unit) {J : Jsonwebtoken} (jv : JwtValidator J.Key)
    (now : ℕ) :
    StaysInForce config gateway schema (request.Authenticated jv now)
        (gateway.serve serde config.server sessions clients request) ↔
      ∀ sid message id method params,
        Routed serde config.server sessions clients request sid message →
          message.leftmost = some (.request id method params) →
            LetThrough gateway.router gateway.scopeEnforcer (gateway.components schema).answer
              method params →
              InForceWhen config env (request.Authenticated jv now) sid method := by
  have hassembled := assembled_of_assemble hgateway
  constructor
  · intro hinForce sid message id method params hrouted hmsg hlet
    exact inForceWhen_of_staysInForce hassembled hinForce hrouted hmsg hlet
  · exact staysInForce_of_when hassembled

/-! ### A gateway with a session lock and policies -/

/-- The session lock and the policies are enabled. -/
def lockingConfig : Config where
  policy := { enabled := true }
  guardrails := { sessionLocking := true }

/-- The policy file allows everything. -/
def allowingEnvironment : Environment where
  prometheusExporter := .ok ()
  controlPlane := .ok ()
  policyFile _ := some (.ok openComponents.evaluate)
  now := 0

/-- What is assembled then. -/
def lockingGateway : Gateway where
  router := .withFullConfig "mcp-shield" "0.1.0" true true true
  registry := buildRegistry lockingConfig 0
  proxy := buildProxy lockingConfig
  authorizer := some openComponents.evaluate
  scopeEnforcer := .allowAll

/-- A tool call. -/
def timeValue : Value :=
  .object [("jsonrpc", .string "2.0"), ("id", .number (.posInt 1)),
    ("method", .string "tools/call"), ("params", .object [("name", .string "com.echo:get_time")])]

/-- The call, posted to an endpoint without any header. -/
def bareRequest (endpoint : Endpoint) : HttpRequest where
  endpoint := some endpoint
  headers := []
  clientId := some "client"
  body := timeValue.toJsonString.toUTF8

/-- A schema validator that accepts every value. -/
def acceptAll (_ _ : Value) : Except McpError Unit := .ok ()

theorem controls_inForce_iff_locking :
    StaysInForce lockingConfig lockingGateway acceptAll
      ((bareRequest .ssePost).Authenticated (J := Jsonwebtoken.ofSigned [])
        JwtValidator.shieldValidator 1700000000)
      (lockingGateway.serve (serdeFor timeValue) lockingConfig.server ∅ (AList.insert "client" 0 ∅)
        (bareRequest .ssePost)) := by
  have hgateway : assemble lockingConfig allowingEnvironment = .ok lockingGateway := rfl
  refine (controls_inForce_iff hgateway _ _ _ _ _ _ _).mpr fun sid message id method params
    hrouted _ _ => ?_
  cases hrouted with
  | mcp hhandler => cases hhandler
  | sse =>
    exact { auth := nofun, ecpa := fun _ => rfl, egress := fun _ => rfl,
            sessionLocking := fun _ _ => rfl, policy := fun _ _ => rfl }

/-! ### A gateway with everything enabled -/

/-- Every control is enabled. -/
def strictConfig : Config where
  auth := { enabled := true }
  policy := { enabled := true }
  guardrails := { ecpaEnabled := true, egressEnabled := true, sessionLocking := true }

/-- There is no policy file. -/
def bareEnvironment : Environment :=
  { allowingEnvironment with policyFile := fun _ => none }

/-- What is assembled then. -/
def strictGateway : Gateway where
  router := .withFullConfig "mcp-shield" "0.1.0" false true true
  registry := buildRegistry strictConfig 0
  proxy := buildProxy strictConfig
  authorizer := none
  scopeEnforcer := .allowAll

theorem assemble_strictConfig : assemble strictConfig bareEnvironment = .ok strictGateway := rfl

/-- A tool call that no header authenticates is forwarded. -/
theorem strictGateway_not_inForce :
    assemble strictConfig bareEnvironment = .ok strictGateway ∧
      ¬ StaysInForce strictConfig strictGateway acceptAll
        ((bareRequest .mcpPost).Authenticated (J := Jsonwebtoken.ofSigned [])
          JwtValidator.shieldValidator 1700000000)
        (strictGateway.serve (serdeFor timeValue) strictConfig.server ∅ ∅
          (bareRequest .mcpPost)) := by
  refine ⟨assemble_strictConfig, fun hinForce => ?_⟩
  have hbody : StreamableHttp.readBody (serdeFor timeValue) (bareRequest .mcpPost).body =
      .ok (.request (.integer 1) methodToolsCall
        (some (.object [("name", .string "com.echo:get_time")]))) := readBody_serdeFor rfl
  have hrouted : Routed (serdeFor timeValue) strictConfig.server ∅ ∅ (bareRequest .mcpPost) none
      (.request (.integer 1) methodToolsCall
        (some (.object [("name", .string "com.echo:get_time")]))) :=
    .mcp rfl hbody fun _ h => nomatch h
  have hlet : LetThrough strictGateway.router strictGateway.scopeEnforcer
      (strictGateway.components acceptAll).answer methodToolsCall
      (some (.object [("name", .string "com.echo:get_time")])) :=
    { known := .inl (by decide)
      forwarded := by decide
      policy := nofun
      server := ⟨_, rfl⟩
      tool := fun _ => ⟨_, _, _, rfl, rfl, rfl, fun _ => rfl⟩ }
  have hwhen := inForceWhen_of_staysInForce (assembled_of_assemble assemble_strictConfig) hinForce
    hrouted rfl hlet
  obtain ⟨value, _, _, _, hmem, -⟩ := hwhen.auth rfl
  cases hmem

end McpShield
