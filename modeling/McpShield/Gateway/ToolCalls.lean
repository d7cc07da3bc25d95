import McpShield.Gateway.Mediation
import McpShield.Protocol.Schema

/-!
# Which tool calls are forwarded

Consequences of the mediation for the owner of a tool, for the arguments of a call and for the
scopes of the caller, with the registry, the schema validator and the scope enforcer in the place of
the components.
-/

open Effect Effect.Prog

namespace McpShield

variable {router : McpRouter} {enforcer : ScopeEnforcer} {sessionId : Option String}
  {message : JsonRpcMessage} {R : ToolRegistry} {tr : GatewayTrace} {server : String}

/-- What a forwarded call of a tool has passed, with the registry's entry of that tool. -/
theorem cleared_of_forwarded {id : RequestId} {P : Value} {k : Continuation}
    (hrun : Steps (handleMessage router enforcer sessionId message) tr
      (.call (.forwardRequest server (.request id methodToolsCall (some P))) k))
    (hregistry : ∀ name found, ⟨.lookupAny name, found⟩ ∈ tr → found = R.lookupAny name)
    {toolName : String} (hname : (P.get "name").bind Value.asStr = some toolName) :
    ∃ entry, R.lookup toolName = some entry ∧ entry.serverId = server ∧
      Cleared router enforcer sessionId P toolName entry tr := by
  obtain ⟨-, toolName', entry, hserver, hcleared⟩ := cleared_of_steps hrun
  obtain rfl := Option.some.inj (hname.symm.trans hcleared.name)
  exact ⟨entry, ToolRegistry.lookup_of_lookupAny (hregistry _ _ hcleared.owner).symm, hserver,
    hcleared⟩

/-! ## The owner of a tool -/

/-- Entry `e` holds the name `q`: lookups give it, no tool can be registered under `q` in any
spelling, and calls of `q` go to the server of `e`, which only the removal of that server or of
everything can change. -/
structure Holds (R : ToolRegistry) (q : String) (e : RegisteredTool) : Prop where
  found : R.lookup q = some e
  taken : ∀ tool serverId now pfx name,
    parseToolName tool.name R.enforcePrefixFormat = .ok (pfx, name) → qualify pfx name = q →
      ∃ err, R.registerTool tool serverId now = (.error err, R)
  routed : ∀ router enforcer sessionId message tr server id P (k : Continuation),
    Steps (handleMessage router enforcer sessionId message) tr
        (.call (.forwardRequest server (.request id methodToolsCall (some P))) k) →
      (∀ name found, ⟨.lookupAny name, found⟩ ∈ tr → found = R.lookupAny name) →
      (P.get "name").bind Value.asStr = some q → server = e.serverId
  ended : ∀ op, (registryMachine.step R op).2.lookup q ≠ some e →
    op = .unregisterServer e.serverId ∨ op = .clear

/-- A registered tool holds its name as long as its server is not unregistered and the registry is
not cleared. -/
theorem ownership_lasts (hR : registryMachine.Reachable ToolRegistry.IsNew R) {q : String}
    {e : RegisteredTool} (he : R.lookup q = some e) {ops : List RegistryOp}
    (hops : ∀ op ∈ ops, ToolRegistry.Keeps e.serverId op) :
    Holds (registryMachine.run R ops) q e := by
  have hlater := ToolRegistry.lookup_run (ToolRegistry.inv_of_reachable hR) he hops
  have hinv := ToolRegistry.inv_of_reachable (hR.run ops)
  refine ⟨hlater, fun tool serverId now pfx name hparse hq => ?_, ?_, fun op hop => ?_⟩
  · exact ToolRegistry.registerTool_error_of_taken hparse (by simp [hq, hlater]) serverId now
  · intro router enforcer sessionId message tr server id P k hrun hregistry hname
    obtain ⟨entry, hentry, hserver, -⟩ := cleared_of_forwarded hrun hregistry hname
    obtain rfl := Option.some.inj (hlater.symm.trans hentry)
    exact hserver.symm
  · by_contra hkeeps
    exact hop (ToolRegistry.lookup_step hinv hlater (not_or.mp hkeeps))

/-- The entry of the echo tool. -/
def echoEntry : RegisteredTool :=
  { qualifiedName := "com.example:echo", pfx := "com.example", name := "echo", tool := echoTool,
    serverId := "echo", registeredAt := 0 }

theorem echoRegistry_reachable : registryMachine.Reachable ToolRegistry.IsNew echoRegistry :=
  ⟨.new, [.registerTool echoTool "echo" 0], ⟨true, [], rfl⟩, rfl⟩

/-- Another server tries to take the name and is removed. -/
theorem ownership_lasts_echo :
    Holds (registryMachine.run echoRegistry [.registerTool echoTool "evil" 1,
      .lookup "com.example:echo", .unregisterServer "evil"]) "com.example:echo" echoEntry := by
  refine ownership_lasts echoRegistry_reachable rfl fun op hop => ?_
  simp only [List.mem_cons, List.not_mem_nil, or_false] at hop
  rcases hop with rfl | rfl | rfl <;> simp [ToolRegistry.Keeps, echoEntry]

/-! ## The arguments of a call -/

section Schema

variable {J : JsonSchema}

/-- The arguments of a forwarded call are an instance of the tool's input schema, unless they are
null and null is none, if no other schema shares the cache key. -/
theorem arguments_valid_iff {ops : List ValidatorOp} {id : RequestId} {P : Value}
    {k : Continuation} (hrun : Steps (handleMessage router enforcer sessionId message) tr
      (.call (.forwardRequest server (.request id methodToolsCall (some P))) k))
    (hregistry : ∀ name found, ⟨.lookupAny name, found⟩ ∈ tr → found = R.lookupAny name)
    (hvalidator : ∀ schema inst result, ⟨.validate schema inst, result⟩ ∈ tr →
      (((validatorMachine J).run .new ops).validate schema inst).1 = some result)
    {toolName : String} (hname : (P.get "name").bind Value.asStr = some toolName)
    {entry : RegisteredTool} (hentry : R.lookup toolName = some entry)
    (hkey : SchemaValidator.KeyUnshared ops entry.tool.inputSchema) :
    J.IsInstance entry.tool.inputSchema (argumentsOf P) ↔
      (argumentsOf P = .null → J.IsInstance entry.tool.inputSchema .null) := by
  obtain ⟨entry', hentry', -, hcleared⟩ := cleared_of_forwarded hrun hregistry hname
  obtain rfl := Option.some.inj (hentry.symm.trans hentry')
  refine ⟨fun h hnull => hnull ▸ h, fun h => ?_⟩
  cases hnull : (argumentsOf P).isNull with
  | true =>
    have heq := Value.isNull_iff.mp hnull
    rw [heq]
    exact h heq
  | false =>
    have hanswer := hvalidator _ _ _ (hcleared.schema hnull)
    rw [SchemaValidator.validate_run_eq hkey] at hanswer
    exact SchemaValidator.isInstance_of_validateOnce hanswer

/-- A call without arguments of a tool that takes any object. -/
theorem arguments_valid_iff_echo :
    SchemaValidator.typeKeyword.IsInstance echoTool.inputSchema (argumentsOf echoParams) ↔
      (argumentsOf echoParams = .null →
        SchemaValidator.typeKeyword.IsInstance echoTool.inputSchema .null) := by
  have hrun := steps_stepWith openComponents.answer 2 (handleMessage plainRouter
    (.new [scopeToolsCall]) none (.request (.integer 1) methodToolsCall (some echoParams)))
  have hkey : SchemaValidator.KeyUnshared [] echoEntry.tool.inputSchema := by
    intro other hother
    simp [SchemaValidator.liveSchemas] at hother
  refine arguments_valid_iff hrun (fun name found hmem => eq_answer_of_mem_stepWith hmem)
    (fun schema inst result hmem => ?_) rfl (R := echoRegistry) rfl hkey
  -- the only validation is that of the empty object
  have htrace : (stepWith openComponents.answer 2 (handleMessage plainRouter
      (.new [scopeToolsCall]) none (.request (.integer 1) methodToolsCall (some echoParams)))).1 =
      [⟨.lookupAny "com.example:echo", .ok (some echoEntry)⟩,
        ⟨.validate echoTool.inputSchema .emptyObject, .ok ()⟩] := rfl
  rw [htrace] at hmem
  rcases List.mem_cons.mp hmem with h | h
  · cases h
  · cases List.mem_singleton.mp h
    rfl

/-- Parameters that call the tool with null arguments. -/
def nullParams : Value := .object [("name", .string "com.example:echo"), ("arguments", .null)]

/-- A call with null arguments is forwarded, though the tool takes objects only. -/
theorem null_arguments_forwarded :
    (∃ (tr : GatewayTrace) (k : Continuation),
      Steps (handleMessage plainRouter (.new [scopeToolsCall]) none
          (.request (.integer 1) methodToolsCall (some nullParams))) tr
        (.call (.forwardRequest "echo"
          (.request (.integer 1) methodToolsCall (some nullParams))) k) ∧
        (∀ name found, ⟨.lookupAny name, found⟩ ∈ tr → found = echoRegistry.lookupAny name) ∧
        ∀ schema inst result, ⟨.validate schema inst, result⟩ ∉ tr) ∧
      ¬ SchemaValidator.typeKeyword.IsInstance echoTool.inputSchema (argumentsOf nullParams) := by
  have hrun := steps_stepWith openComponents.answer 1 (handleMessage plainRouter
    (.new [scopeToolsCall]) none (.request (.integer 1) methodToolsCall (some nullParams)))
  refine ⟨⟨_, _, hrun, fun name found hmem => eq_answer_of_mem_stepWith hmem, ?_⟩, ?_⟩
  · intro schema inst result hmem
    cases List.mem_singleton.mp hmem
  · rintro ⟨v, hv, hok⟩
    obtain rfl := Except.ok.inj hv
    cases hok

end Schema

/-! ## The scopes of the caller -/

/-- Some components let the call of a tool through to a server. -/
def Forwardable (router : McpRouter) (enforcer : ScopeEnforcer) (sessionId : Option String)
    (id : RequestId) (P : Value) : Prop :=
  ∃ (tr : GatewayTrace) (server : String) (k : Continuation),
    Steps (handleMessage router enforcer sessionId (.request id methodToolsCall (some P))) tr
      (.call (.forwardRequest server (.request id methodToolsCall (some P))) k)

/-- A call that passes the scope checks can be forwarded. -/
theorem forwardable_of_scopes {id : RequestId} {P : Value} {toolName : String}
    (hname : (P.get "name").bind Value.asStr = some toolName)
    (hmethod : enforcer.checkMethod methodToolsCall = .ok ())
    (htool : enforcer.checkToolAccess toolName = .ok ()) (entry : RegisteredTool) :
    Forwardable router enforcer sessionId id P := by
  obtain ⟨tr₁, hpolicy⟩ := checkPolicy_canSucceed router enforcer methodToolsCall (some P)
  obtain ⟨tr₂, hlookup⟩ := lookupTool_canSucceed toolName entry
  obtain ⟨tr₃, hschema⟩ := checkSchema_canSucceed entry (argumentsOf P)
  obtain ⟨tr₄, hconstraints⟩ := checkConstraints_canSucceed router toolName (argumentsOf P)
  obtain ⟨tr₅, hsession⟩ := checkSession_canSucceed router sessionId toolName (argumentsOf P)
  have hname' : toolNameOf P = .ok toolName := by simp [toolNameOf, hname]
  have hcall : ∃ k, Steps (handleToolsCall router id (some P) enforcer sessionId).run
      ([] ++ ([] ++ (tr₂ ++ (tr₃ ++ (tr₄ ++ (tr₅ ++ [])))))) (.call
        (.forwardRequest entry.serverId (.request id methodToolsCall (some P))) k) := by
    refine ⟨_, Steps.bind_ok (a := toolName) ?_ (Steps.bind_ok (a := ()) ?_ (hlookup.bind_ok
      (hschema.bind_ok (hconstraints.bind_ok (hsession.bind_ok (.refl _))))))⟩
    · rw [Option.getD_some, hname']
      exact .refl _
    · rw [htool]
      exact .refl _
  obtain ⟨k, hcall⟩ := hcall
  have hrequest : Steps (handleRequest router id methodToolsCall (some P) enforcer sessionId).run
      ([] ++ (tr₁ ++ _)) _ := Steps.bind_ok (by rw [hmethod]; exact .refl _) (hpolicy.bind_ok hcall)
  exact ⟨_, _, _, hrequest.bind_right _⟩

/-- One of the four scopes that are to admit a tool. -/
def HasToolScope (enforcer : ScopeEnforcer) (pfx tool : String) : Prop :=
  scopeAdmin ∈ enforcer.grantedScopes ∨ scopeToolsCall ∈ enforcer.grantedScopes ∨
    ScopeEnforcer.toolScope pfx ∈ enforcer.grantedScopes ∨
    ScopeEnforcer.toolScope tool ∈ enforcer.grantedScopes

/-- The scope checks admit a registered tool exactly with one of the four scopes if and only if the
client is administrator, may call all tools, or has no scope for the namespace or the tool. -/
theorem toolScopes_admit_iff (hp : enforcer.permissive = false)
    (hR : registryMachine.Reachable ToolRegistry.IsNew R) {tool : String} {e : RegisteredTool}
    (he : R.lookup tool = some e) {P : Value}
    (hname : (P.get "name").bind Value.asStr = some tool) (id : RequestId) :
    (Forwardable router enforcer sessionId id P ↔ HasToolScope enforcer e.pfx tool) ↔
      scopeAdmin ∈ enforcer.grantedScopes ∨ scopeToolsCall ∈ enforcer.grantedScopes ∨
        (ScopeEnforcer.toolScope e.pfx ∉ enforcer.grantedScopes ∧
          ScopeEnforcer.toolScope tool ∉ enforcer.grantedScopes) := by
  have hinv := ToolRegistry.inv_of_reachable hR
  have hkey : tool = e.pfx ++ ":" ++ e.name := (hinv.key_eq he).2
  have hcolon := not_mem_of_parseToolName (hinv.parsed he)
  have hforward : Forwardable router enforcer sessionId id P ↔
      scopeToolsCall ∈ enforcer.grantedScopes ∨ scopeAdmin ∈ enforcer.grantedScopes := by
    rw [← ScopeEnforcer.checkMethod_toolsCall_iff hp]
    constructor
    · rintro ⟨tr, server, k, hrun⟩
      obtain ⟨-, toolName, entry, -, hcleared⟩ := cleared_of_steps hrun
      exact hcleared.methodScope
    · intro hmethod
      have hscopes := (ScopeEnforcer.checkMethod_toolsCall_iff hp).mp hmethod
      have htool : enforcer.checkToolAccess tool = .ok () := by
        rw [hkey, ScopeEnforcer.checkToolAccess_iff hp hcolon]
        rcases hscopes with h | h
        · exact .inr (.inl h)
        · exact .inl h
      exact forwardable_of_scopes hname hmethod htool e
  rw [hforward, HasToolScope]
  by_cases hcall : scopeToolsCall ∈ enforcer.grantedScopes
  · simp [hcall]
  · by_cases hadmin : scopeAdmin ∈ enforcer.grantedScopes
    · simp [hadmin]
    · simp [hcall, hadmin]

/-- A client that may call all tools. -/
theorem toolScopes_admit_iff_echo :
    (Forwardable plainRouter (.new [scopeToolsCall]) none (.integer 1) echoParams ↔
        HasToolScope (.new [scopeToolsCall]) "com.example" "com.example:echo") ↔
      scopeAdmin ∈ (ScopeEnforcer.new [scopeToolsCall]).grantedScopes ∨
        scopeToolsCall ∈ (ScopeEnforcer.new [scopeToolsCall]).grantedScopes ∨
        (ScopeEnforcer.toolScope "com.example" ∉
            (ScopeEnforcer.new [scopeToolsCall]).grantedScopes ∧
          ScopeEnforcer.toolScope "com.example:echo" ∉
            (ScopeEnforcer.new [scopeToolsCall]).grantedScopes) :=
  toolScopes_admit_iff (e := echoEntry) rfl echoRegistry_reachable rfl rfl (.integer 1)

/-- A client with the scope for the namespace of a tool may not call it. -/
theorem namespace_scope_not_admitted :
    ¬ (Forwardable plainRouter (.new ["mcp:tools:call:com.example"]) none (.integer 1)
        echoParams ↔
      HasToolScope (.new ["mcp:tools:call:com.example"]) "com.example" "com.example:echo") := by
  intro hiff
  have hscope : HasToolScope (.new ["mcp:tools:call:com.example"]) "com.example"
      "com.example:echo" := .inr (.inr (.inl (by decide)))
  obtain ⟨tr, server, k, hrun⟩ := hiff.mpr hscope
  obtain ⟨-, toolName, entry, -, hcleared⟩ := cleared_of_steps hrun
  have hmethod := hcleared.methodScope
  rw [ScopeEnforcer.checkMethod_toolsCall_iff rfl] at hmethod
  exact absurd hmethod (by decide)

end McpShield
