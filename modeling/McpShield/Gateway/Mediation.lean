import McpShield.Gateway.Stages

/-!
# Mediation

`handleMessage_spec` is the specification of the whole pipeline: a tool call is forwarded at most
once, and only when every gate has let it pass; what the client receives is the response of the
upstream server, inspected.  The theorems about the gates are read off it.
-/

open Effect Effect.Prog

namespace McpShield

/-! ## What is known when a tool call is forwarded -/

/-- The gates that a call of tool `toolName` with entry `entry` has passed. -/
structure Cleared (router : McpRouter) (enforcer : ScopeEnforcer) (sessionId : Option String)
    (params : Value) (toolName : String) (entry : RegisteredTool) (tr : GatewayTrace) : Prop where
  name : (params.get "name").bind Value.asStr = some toolName
  methodScope : enforcer.checkMethod methodToolsCall = .ok ()
  toolScope : enforcer.checkToolAccess toolName = .ok ()
  policy : router.authorizer = true → ∃ question response,
    ⟨.evaluate question, .ok response⟩ ∈ tr ∧ question.action = methodToolsCall ∧
      question.resource = toolName ∧ response.decision = .allow
  owner : ⟨.lookupAny toolName, .ok (some entry)⟩ ∈ tr
  schema : (argumentsOf params).isNull = false →
    ⟨.validate entry.tool.inputSchema (argumentsOf params), .ok ()⟩ ∈ tr
  constraints : router.ecpaGuardrail = true → ∃ result,
    ⟨.evaluateConstraints toolName (argumentsOf params), .ok result⟩ ∈ tr ∧
      result.satisfied = true
  session : ∀ sid, router.sessions = true → sessionId = some sid → ∃ access,
    ⟨.checkContextAccess sid (toolContext toolName), access⟩ ∈ tr ∧
      ∀ reason lockedTo, access ≠ .ok (.deny reason lockedTo)

/-- The calls `handleMessage` may make: any call that forwards nothing, one request that is no tool
call, or one tool call that passed the gates. -/
def MayForward (router : McpRouter) (enforcer : ScopeEnforcer) (sessionId : Option String)
    (message : JsonRpcMessage) (tr : GatewayTrace) : GatewayOp → Prop
  | .forwardRequest server sent =>
      NoForward tr ∧ ∃ id method params,
        sent = .request id method params ∧ message.leftmost = some sent ∧
          (method = methodToolsCall → ∃ P toolName entry, params = some P ∧
            entry.serverId = server ∧
            Cleared router enforcer sessionId P toolName entry tr)
  | _ => True

/-- What the client receives for an answered tool call. -/
def Delivered (router : McpRouter) (tr : GatewayTrace) (r : Except McpError JsonRpcMessage) :
    Prop :=
  ∀ server sent upstream, ⟨.forwardRequest server sent, .ok upstream⟩ ∈ tr →
    sent.method = some methodToolsCall →
      ∃ toolName out, r = .ok out ∧ Inspected router toolName server upstream out tr

theorem mayForward_of_quiet {router : McpRouter} {enforcer : ScopeEnforcer}
    {sessionId : Option String} {message : JsonRpcMessage} {tr : GatewayTrace} {op : GatewayOp}
    (h : Quiet tr op) : MayForward router enforcer sessionId message tr op := by
  cases op with
  | forwardRequest => exact absurd trivial h
  | _ => trivial

theorem delivered_of_noForward {router : McpRouter} {tr : GatewayTrace}
    {r : Except McpError JsonRpcMessage} (h : NoForward tr) : Delivered router tr r :=
  fun _ _ _ hmem _ => absurd trivial (h _ hmem)

section Pipeline

variable {router : McpRouter} {enforcer : ScopeEnforcer} {sessionId : Option String}
  {message : JsonRpcMessage} {h : GatewayTrace} {α : Type}

/-! ## Sequencing after a quiet stage -/

/-- A quiet program adds no forwarding call. -/
theorem Quiet.forwards {post : GatewayTrace → α → Prop} {p : Prog GatewayOp GatewayOp.Reply α}
    (hp : Ensures Quiet post p h) :
    Ensures Quiet (fun h' a => (∀ ev ∈ h', ev.1.IsForward → ev ∈ h) ∧ post h' a) p h := by
  refine hp.and_invariant (fun tr op r hI hop ev hev hfwd => ?_) fun _ hev _ => hev
  rcases List.mem_append.mp hev with hev | hev
  · exact hI ev hev hfwd
  · obtain rfl := List.mem_singleton.mp hev
    exact absurd hfwd hop

theorem Quiet.noForward {post : GatewayTrace → α → Prop} {p : Prog GatewayOp GatewayOp.Reply α}
    (hp : Ensures Quiet post p h) (hno : NoForward h) :
    Ensures Quiet (fun h' a => NoForward h' ∧ post h' a) p h :=
  (Quiet.forwards hp).mono fun _ _ _ hmid =>
    ⟨fun ev hev hfwd => hno ev (hmid.1 ev hev hfwd) hfwd, hmid.2⟩

/-- After a quiet stage that lets the call pass, the rest of the pipeline runs with what the stage
has established; a refusal forwards nothing. -/
theorem Quiet.then {mid : GatewayTrace → α → Prop} {x : GatewayM α}
    {f : α → GatewayM JsonRpcMessage} (hx : Ensures Quiet (onOk mid) x.run h) (hno : NoForward h)
    (hf : ∀ h' a, h <+: h' → NoForward h' → mid h' a →
      Ensures (MayForward router enforcer sessionId message) (Delivered router) (f a).run h') :
    Ensures (MayForward router enforcer sessionId message) (Delivered router) (x >>= f).run h := by
  refine Ensures.bindExcept ((Quiet.noForward hx hno).mono_may fun _ _ => mayForward_of_quiet)
    (fun h' e _ hmid => delivered_of_noForward hmid.1) ?_
  intro h' a hh' hmid
  exact hf h' a hh' hmid.1 hmid.2

/-- A pure check: if it succeeds the pipeline goes on. -/
theorem check_then {x : Except McpError α} {f : α → GatewayM JsonRpcMessage} (hno : NoForward h)
    (hf : ∀ a, x = .ok a →
      Ensures (MayForward router enforcer sessionId message) (Delivered router) (f a).run h) :
    Ensures (MayForward router enforcer sessionId message) (Delivered router)
      (Prog.result x >>= f).run h :=
  Ensures.result_bind (fun _ _ => delivered_of_noForward hno) hf

/-! ## Forwarding -/

/-- All forwarding calls of the trace are the call `ev`. -/
def OnlyForward (ev : Event GatewayOp.Reply) (tr : GatewayTrace) : Prop :=
  ∀ ev' ∈ tr, ev'.1.IsForward → ev' = ev

theorem NoForward.onlyForward (hno : NoForward h) (ev : Event GatewayOp.Reply) :
    OnlyForward ev (h ++ [ev]) := by
  intro ev' hev' hfwd
  rcases List.mem_append.mp hev' with hev' | hev'
  · exact absurd hfwd (hno ev' hev')
  · exact List.mem_singleton.mp hev'

theorem Quiet.onlyForward {post : GatewayTrace → α → Prop}
    {p : Prog GatewayOp GatewayOp.Reply α} {ev : Event GatewayOp.Reply}
    (hp : Ensures Quiet post p h) (honly : OnlyForward ev h) :
    Ensures Quiet (fun h' a => OnlyForward ev h' ∧ post h' a) p h :=
  (Quiet.forwards hp).mono fun _ _ _ hmid =>
    ⟨fun ev' hev' hfwd => honly ev' (hmid.1 ev' hev' hfwd) hfwd, hmid.2⟩

/-- Equal forwarding calls agree in the server, the message and the reply. -/
theorem forward_inj {s s' : String} {m m' : JsonRpcMessage} {r r' : Except McpError JsonRpcMessage}
    (heq : (⟨.forwardRequest s m, r⟩ : Event GatewayOp.Reply) = ⟨.forwardRequest s' m', r'⟩) :
    s = s' ∧ m = m' ∧ r = r' := by
  obtain ⟨hop, hr⟩ := Sigma.mk.inj heq
  obtain ⟨rfl, rfl⟩ := GatewayOp.forwardRequest.inj hop
  exact ⟨rfl, rfl, eq_of_heq hr⟩

/-- The forwarded call of a tool and the inspection of its response. -/
theorem forwardToolCall_spec {id : RequestId} {P : Value} {toolName : String}
    {entry : RegisteredTool} (hno : NoForward h)
    (hmay : MayForward router enforcer sessionId message h
      (.forwardRequest entry.serverId (.request id methodToolsCall (some P)))) :
    Ensures (MayForward router enforcer sessionId message) (Delivered router)
      (forwardToolCall router id P toolName entry).run h := by
  refine ⟨hmay, fun reply => ?_⟩
  have honly := hno.onlyForward
    ⟨.forwardRequest entry.serverId (.request id methodToolsCall (some P)), reply⟩
  cases reply with
  | error e =>
    intro server sent upstream hmem _
    exact absurd (forward_inj (honly _ hmem trivial)).2.2 (by simp)
  | ok response =>
    refine ((Quiet.onlyForward inspectResponse_spec honly).mono_may
      fun _ _ => mayForward_of_quiet).mono ?_
    rintro h' r - ⟨honly', out, rfl, hins⟩ server sent upstream hmem -
    obtain ⟨rfl, rfl, hreply⟩ := forward_inj (honly' _ hmem trivial)
    obtain rfl := Except.ok.inj hreply
    exact ⟨toolName, out, rfl, hins⟩

/-- A request for the default server. -/
theorem proxyToUpstream_spec {id : RequestId} {method : String} {params : Option Value}
    (hno : NoForward h) (hmsg : message.leftmost = some (.request id method params))
    (hmethod : method ≠ methodToolsCall) :
    Ensures (MayForward router enforcer sessionId message) (Delivered router)
      (proxyToUpstream id method params).run h := by
  refine ⟨trivial, fun server => ?_⟩
  have hno' : NoForward (h ++ [⟨.defaultServerId, server⟩]) := hno.append not_false
  cases server with
  | none => exact delivered_of_noForward hno'
  | some serverId =>
    refine ⟨⟨hno', id, method, params, rfl, hmsg, fun hm => absurd hm hmethod⟩, fun reply => ?_⟩
    have honly := hno'.onlyForward ⟨.forwardRequest serverId (.request id method params), reply⟩
    intro server sent upstream hmem hsent
    obtain ⟨rfl, rfl, -⟩ := forward_inj (honly _ hmem trivial)
    exact absurd (Option.some.inj hsent) hmethod

/-! ## The pipeline -/

/-- The pipeline of a tool call. -/
theorem handleToolsCall_spec {id : RequestId} {params : Option Value} (hno : NoForward h)
    (hmsg : message.leftmost = some (.request id methodToolsCall params))
    (hmethod : enforcer.checkMethod methodToolsCall = .ok ())
    (hpolicy : router.authorizer = true → ∃ response,
      ⟨.evaluate (authorizationRequest enforcer methodToolsCall params), .ok response⟩ ∈ h ∧
        response.decision = .allow) :
    Ensures (MayForward router enforcer sessionId message) (Delivered router)
      (handleToolsCall router id params enforcer sessionId).run h := by
  refine check_then hno fun toolName hname => ?_
  cases params with
  | none => simp [toolNameOf, Value.get, Value.emptyObject, Value.findField] at hname
  | some P =>
    have hname' : (P.get "name").bind Value.asStr = some toolName := by
      unfold toolNameOf at hname
      split at hname <;> simp_all
    refine check_then hno fun _ htool => ?_
    refine Quiet.then lookupTool_spec hno fun h₁ entry hh₁ hno₁ howner => ?_
    refine Quiet.then checkSchema_spec hno₁ fun h₂ _ hh₂ hno₂ hschema => ?_
    refine Quiet.then checkConstraints_spec hno₂ fun h₃ _ hh₃ hno₃ hconstraints => ?_
    refine Quiet.then checkSession_spec hno₃ fun h₄ _ hh₄ hno₄ hsession => ?_
    refine forwardToolCall_spec hno₄
      ⟨hno₄, id, methodToolsCall, some P, rfl, hmsg, fun _ => ⟨P, toolName, entry, rfl, rfl, ?_⟩⟩
    exact
      { name := hname'
        methodScope := hmethod
        toolScope := htool
        policy := fun hcfg => by
          obtain ⟨response, hmem, hallow⟩ := hpolicy hcfg
          refine ⟨_, response, (hh₁.trans (hh₂.trans (hh₃.trans hh₄))).subset hmem, rfl, ?_,
            hallow⟩
          simp [authorizationRequest, hname']
        owner := (hh₂.trans (hh₃.trans hh₄)).subset howner
        schema := fun hnull => (hh₃.trans hh₄).subset (hschema hnull)
        constraints := fun hcfg => by
          obtain ⟨result, hmem, hsat⟩ := hconstraints hcfg
          exact ⟨result, hh₄.subset hmem, hsat⟩
        session := hsession }

/-- A stage that only asks and answers. -/
theorem quiet_spec {x : GatewayM JsonRpcMessage} (hno : NoForward h)
    (hx : Ensures Quiet (fun _ _ => True) x.run h) :
    Ensures (MayForward router enforcer sessionId message) (Delivered router) x.run h :=
  ((Quiet.noForward hx hno).mono_may fun _ _ => mayForward_of_quiet).mono
    fun _ _ _ hmid => delivered_of_noForward hmid.1

theorem dispatch_spec {id : RequestId} {method : String} {params : Option Value}
    (hno : NoForward h) (hmsg : message.leftmost = some (.request id method params))
    (hmethod : enforcer.checkMethod method = .ok ())
    (hpolicy : router.authorizer = true → ∃ response,
      ⟨.evaluate (authorizationRequest enforcer method params), .ok response⟩ ∈ h ∧
        response.decision = .allow) :
    Ensures (MayForward router enforcer sessionId message) (Delivered router)
      (dispatch router id method params enforcer sessionId).run h := by
  unfold dispatch
  split_ifs with hinit hping hlist hcall hres hprompts hshutdown hinitialized
  · exact quiet_spec hno handleInitialize_spec
  · exact delivered_of_noForward hno
  · exact quiet_spec hno ⟨not_false, fun _ => trivial⟩
  · subst hcall
    exact handleToolsCall_spec hno hmsg hmethod hpolicy
  · exact proxyToUpstream_spec hno hmsg hcall
  · exact proxyToUpstream_spec hno hmsg hcall
  · exact delivered_of_noForward hno
  · exact delivered_of_noForward hno
  · exact proxyToUpstream_spec hno hmsg hcall

theorem handleRequest_spec {id : RequestId} {method : String} {params : Option Value}
    (hno : NoForward h) (hmsg : message.leftmost = some (.request id method params)) :
    Ensures (MayForward router enforcer sessionId message) (Delivered router)
      (handleRequest router id method params enforcer sessionId).run h := by
  unfold handleRequest
  split
  · exact delivered_of_noForward hno
  · refine check_then hno fun _ hmethod => ?_
    refine Quiet.then checkPolicy_spec hno fun h' _ _ hno' hpolicy => ?_
    exact dispatch_spec hno' hmsg hmethod hpolicy

theorem route_spec (hno : NoForward h) (hmsg : message.leftmost = some message) :
    Ensures (MayForward router enforcer sessionId message) (Delivered router)
      (route router message enforcer sessionId).run h := by
  cases message with
  | request id method params => exact handleRequest_spec hno hmsg
  | _ => exact delivered_of_noForward hno

/-- What is delivered is not changed by what is recorded of it. -/
theorem recorded_spec {x : GatewayM JsonRpcMessage}
    (hx : Ensures (MayForward router enforcer sessionId message) (Delivered router) x.run h) :
    Ensures (MayForward router enforcer sessionId message) (Delivered router)
      (x.run >>= record router message enforcer sessionId) h := by
  refine hx.bind fun h' r _ hdel => ?_
  refine ((Quiet.forwards record_spec).mono_may fun _ _ => mayForward_of_quiet).mono ?_
  rintro h'' _ hh'' ⟨hold, rfl⟩ server sent upstream hmem hsent
  obtain ⟨toolName, out, hout, hins⟩ := hdel server sent upstream (hold _ hmem trivial) hsent
  exact ⟨toolName, out, hout, hins.mono hh''⟩

end Pipeline

/-- The whole pipeline, for every message. -/
theorem handleMessage_spec (router : McpRouter) (enforcer : ScopeEnforcer)
    (sessionId : Option String) : ∀ message,
    Ensures (MayForward router enforcer sessionId message) (Delivered router)
      (handleMessage router enforcer sessionId message) []
  | .batch (first :: _) => handleMessage_spec router enforcer sessionId first
  | .batch [] => recorded_spec (delivered_of_noForward noForward_nil)
  | .notification _ _ => recorded_spec (route_spec noForward_nil rfl)
  | .request _ _ _ => recorded_spec (route_spec noForward_nil rfl)
  | .success _ _ => recorded_spec (route_spec noForward_nil rfl)
  | .error _ _ => recorded_spec (route_spec noForward_nil rfl)

/-! ## Complete mediation -/

/-- The rest of the pipeline once a call is answered. -/
abbrev Continuation : Type :=
  Except McpError JsonRpcMessage → Prog GatewayOp GatewayOp.Reply (Except McpError JsonRpcMessage)

/-- A forwarded tool call is the message itself and has passed the gates. -/
theorem cleared_of_steps {router : McpRouter} {enforcer : ScopeEnforcer}
    {sessionId : Option String} {message : JsonRpcMessage} {tr : GatewayTrace} {server : String}
    {id : RequestId} {P : Value} {k : Continuation}
    (hrun : Steps (handleMessage router enforcer sessionId message) tr
      (.call (.forwardRequest server (.request id methodToolsCall (some P))) k)) :
    message.leftmost = some (.request id methodToolsCall (some P)) ∧
      ∃ toolName entry, entry.serverId = server ∧
        Cleared router enforcer sessionId P toolName entry tr := by
  obtain ⟨-, id', method, params, hsent, hmsg, hcall⟩ :=
    (handleMessage_spec router enforcer sessionId message).may_of_steps hrun
  obtain ⟨rfl, rfl, rfl⟩ := JsonRpcMessage.request.inj hsent
  obtain ⟨P', toolName, entry, hP, hserver, hcleared⟩ := hcall rfl
  obtain rfl := Option.some.inj hP
  exact ⟨hmsg, toolName, entry, hserver, hcleared⟩

/-- A request is forwarded at most once.  If it is a tool call, the message is that very call, the
server owns the tool, and every gate has let the call pass. -/
theorem toolsCall_mediated {router : McpRouter} {enforcer : ScopeEnforcer}
    {sessionId : Option String} {message : JsonRpcMessage} {R : ToolRegistry} {tr : GatewayTrace}
    {server : String} {sent : JsonRpcMessage} {k : Continuation}
    (hrun : Steps (handleMessage router enforcer sessionId message) tr
      (.call (.forwardRequest server sent) k))
    (hregistry : ∀ name found, ⟨.lookupAny name, found⟩ ∈ tr → found = R.lookupAny name) :
    NoForward tr ∧ ∀ id P, sent = .request id methodToolsCall (some P) →
      message.leftmost = some (.request id methodToolsCall (some P)) ∧
        ∃ toolName entry, R.lookup toolName = some entry ∧ entry.serverId = server ∧
          Cleared router enforcer sessionId P toolName entry tr := by
  refine ⟨((handleMessage_spec router enforcer sessionId message).may_of_steps hrun).1, ?_⟩
  rintro id P rfl
  obtain ⟨hmsg, toolName, entry, hserver, hcleared⟩ := cleared_of_steps hrun
  have hentry := ToolRegistry.lookup_of_lookupAny (hregistry _ _ hcleared.owner).symm
  exact ⟨hmsg, toolName, entry, hentry, hserver, hcleared⟩

/-! ### A run in which every gate is open -/

/-- A tool that takes any object. -/
def echoTool : Tool :=
  { name := "com.example:echo", description := some "Echoes a message",
    inputSchema := .object [("type", .string "object")], annotations := none }

/-- A registry with one tool. -/
def echoRegistry : ToolRegistry := (ToolRegistry.new.registerTool echoTool "echo" 0).2

/-- Components that let every call pass; the upstream servers answer with an empty result. -/
def openComponents : Components where
  registry := echoRegistry
  servers := .new
  sessions := (InMemorySessionManager.new.createSession none "s" 0 0).2
  validate _ _ := .ok ()
  evaluate _ := .ok { decision := .allow, decidingPolicies := [], diagnostics := [] }
  evaluateConstraints _ _ := .ok { satisfied := true, evaluations := [], summary := "" }
  upstream _ _ := .ok (.success (.integer 1) .emptyObject)
  sanitizeResponse result :=
    .ok { modified := false, sanitizedContent := result.content, detectedPatterns := [] }

/-- A router with all optional components. -/
def fullRouter : McpRouter :=
  { serverName := "mcp-shield", serverVersion := "0.1.0", authorizer := true, sessions := true,
    auditProducer := true, ecpaGuardrail := true, egressInspector := true }

/-- A router without optional components. -/
def plainRouter : McpRouter :=
  { serverName := "mcp-shield", serverVersion := "0.1.0", authorizer := false, sessions := false,
    auditProducer := false, ecpaGuardrail := false, egressInspector := false }

/-- Parameters that call the tool without arguments. -/
def echoParams : Value := .object [("name", .string "com.example:echo")]

/-- A batch whose first message calls the tool. -/
def echoBatch : JsonRpcMessage :=
  .batch [.request (.integer 1) methodToolsCall (some echoParams)]

/-- The seven calls before the tool call of the batch is forwarded. -/
def echoTrace : GatewayTrace :=
  (stepWith openComponents.answer 7
    (handleMessage fullRouter (.new [scopeToolsCall]) (some "s") echoBatch)).1

theorem steps_echoTrace : ∃ k : Continuation,
    Steps (handleMessage fullRouter (.new [scopeToolsCall]) (some "s") echoBatch) echoTrace
      (.call (.forwardRequest "echo" (.request (.integer 1) methodToolsCall (some echoParams)))
        k) :=
  ⟨_, steps_stepWith openComponents.answer 7
    (handleMessage fullRouter (.new [scopeToolsCall]) (some "s") echoBatch)⟩

theorem toolsCall_mediated_echo : NoForward echoTrace ∧
    ∀ id P, JsonRpcMessage.request (.integer 1) methodToolsCall (some echoParams) =
        .request id methodToolsCall (some P) →
      echoBatch.leftmost = some (.request id methodToolsCall (some P)) ∧
        ∃ toolName entry, echoRegistry.lookup toolName = some entry ∧ entry.serverId = "echo" ∧
          Cleared fullRouter (.new [scopeToolsCall]) (some "s") P toolName entry echoTrace := by
  obtain ⟨k, hrun⟩ := steps_echoTrace
  exact toolsCall_mediated hrun fun name found hmem => eq_answer_of_mem_stepWith hmem

end McpShield
