import McpShield.EnabledControls
import McpShield.Gateway.Interleaving

/-!
# Tool calls of the assembled gateway

`main` registers the tools of the echo server and no others, and nobody registers a tool later.  So a
tool call of the assembled gateway reaches the server `echo`, whichever upstream servers are
configured.
-/

open Effect Effect.Prog

namespace McpShield

/-! ## The registry -/

/-- A registered tool is one of the echo server, under its own name. -/
def OnlyEcho (R : ToolRegistry) : Prop :=
  ∀ q e, R.lookup q = some e →
    e.serverId = "echo" ∧ e.tool ∈ EchoServer.listTools ∧ q = e.tool.name

/-- The names of the tools of the echo server are in the form in which they are kept. -/
theorem qualify_echo : ∀ tool ∈ EchoServer.listTools, ∀ enforcePrefix pfx name,
    parseToolName tool.name enforcePrefix = .ok (pfx, name) → qualify pfx name = tool.name := by
  have hparse : ∀ tool ∈ EchoServer.listTools, ∃ pfx name, qualify pfx name = tool.name ∧
      ∀ enforcePrefix, parseToolName tool.name enforcePrefix = .ok (pfx, name) := by
    simp only [EchoServer.listTools, List.forall_mem_cons, List.not_mem_nil, false_implies,
      implies_true, and_true]
    refine ⟨⟨"com.echo", "echo", rfl, ?_⟩, ⟨"com.echo", "add", rfl, ?_⟩,
      ⟨"com.echo", "get_time", rfl, ?_⟩, ⟨"com.echo", "uppercase", rfl, ?_⟩⟩
    all_goals
      intro enforcePrefix
      cases enforcePrefix <;> rfl
  intro tool htool enforcePrefix pfx name hok
  obtain ⟨pfx', name', hname, hok'⟩ := hparse tool htool
  obtain ⟨rfl, rfl⟩ := Prod.mk.inj (Except.ok.inj ((hok' enforcePrefix).symm.trans hok))
  exact hname

theorem onlyEcho_registerTool {R : ToolRegistry} (hR : OnlyEcho R) {tool : Tool}
    (htool : tool ∈ EchoServer.listTools) (now : DateTime) :
    OnlyEcho (R.registerTool tool "echo" now).2 := by
  intro q e he
  rcases R.registerTool_cases tool "echo" now with ⟨err, h⟩ | ⟨pfx, name, hparse, -, -, h⟩
  · rw [h] at he
    exact hR q e he
  · rw [h] at he
    rcases ToolRegistry.lookup_addTool_cases he with ⟨rfl, rfl⟩ | hold
    · exact ⟨rfl, htool, qualify_echo tool htool _ _ _ hparse⟩
    · exact hR q e hold

theorem onlyEcho_withConfig (enforcePrefixFormat : Bool) (allowedPrefixes : List String) :
    OnlyEcho (.withConfig enforcePrefixFormat allowedPrefixes) := by
  intro q e he
  simp [ToolRegistry.lookup, ToolRegistry.withConfig] at he

theorem onlyEcho_buildRegistry (config : Config) (now : DateTime) :
    OnlyEcho (buildRegistry config now) := by
  unfold buildRegistry
  split
  · exact List.foldlRecOn (motive := OnlyEcho) _ _ (onlyEcho_withConfig _ _)
      fun R hR tool htool => onlyEcho_registerTool hR htool now
  · exact onlyEcho_withConfig _ _

/-- Without the echo server and with other upstream servers no tool is registered. -/
theorem echo_configured {config : Config} {now : DateTime} {q : String} {e : RegisteredTool}
    (he : (buildRegistry config now).lookup q = some e) :
    config.proxy.upstreams.entries.isEmpty = true ∨ hasEchoUpstream config = true := by
  unfold buildRegistry at he
  split at he
  · next h => simpa using h
  · simp [ToolRegistry.lookup, ToolRegistry.withConfig] at he

/-! ## The proxy -/

/-- The server that is registered for a configured upstream. -/
def configuredServer (id : String) (upstream : UpstreamConfig) : UpstreamServer :=
  { id, transport := .ofName upstream.transport, url := upstream.url, isEcho := upstream.echoServer }

theorem lookup_registerServer (proxy : UpstreamProxy) (server : UpstreamServer) (id : String) :
    (proxy.registerServer server).servers.lookup id =
      if id = server.id then some server else proxy.servers.lookup id := by
  by_cases hid : id = server.id
  · subst hid
    rw [if_pos rfl]
    exact AList.lookup_insert _
  · rw [if_neg hid]
    exact AList.lookup_insert_ne hid

/-- The echo server in the proxy is the configured upstream of that name, if there is one. -/
theorem lookup_buildProxy {config : Config} {server : UpstreamServer}
    (h : (buildProxy config).servers.lookup "echo" = some server) :
    server.isEcho = true ∨
      ∃ upstream, config.proxy.upstreams.lookup "echo" = some upstream ∧
        server = configuredServer "echo" upstream := by
  have hfold : ∀ (entries : List (Sigma fun _ : String => UpstreamConfig)) (proxy : UpstreamProxy),
      (entries.foldl (fun proxy e => proxy.registerServer (configuredServer e.1 e.2))
        proxy).servers.lookup "echo" = some server →
      proxy.servers.lookup "echo" = some server ∨
        ∃ upstream, ⟨"echo", upstream⟩ ∈ entries ∧ server = configuredServer "echo" upstream := by
    intro entries
    induction entries with
    | nil => exact fun proxy h => .inl h
    | cons e entries ih =>
      intro proxy h
      obtain ⟨id, upstream⟩ := e
      rcases ih _ h with hold | ⟨upstream', hmem, heq⟩
      · rw [lookup_registerServer] at hold
        split at hold
        · next hid =>
          obtain rfl : "echo" = id := hid
          exact .inr ⟨upstream, List.mem_cons_self, (Option.some.inj hold).symm⟩
        · exact .inl hold
      · exact .inr ⟨upstream', List.mem_cons_of_mem _ hmem, heq⟩
  rcases hfold _ _ h with hbuilt | ⟨upstream, hmem, heq⟩
  · rw [lookup_registerServer, if_pos rfl] at hbuilt
    obtain rfl := Option.some.inj hbuilt
    exact .inl rfl
  · exact .inr ⟨upstream, AList.mem_lookup_iff.mpr hmem, heq⟩

/-- A post goes to the URL of the server, which is not an echo server. -/
def PostsTo (proxy : UpstreamProxy) (serverId : String) (_ : ProxyTrace) : ProxyOp → Prop
  | .post url _ => ∃ server, proxy.servers.lookup serverId = some server ∧
      server.isEcho = false ∧ server.url = some url
  | _ => True

section Posts

variable {serde : SerdeJson} {proxy : UpstreamProxy} {serverId : String} {message : JsonRpcMessage}
  {h : ProxyTrace}

theorem echoResult_postsTo {method : String} {params : Value} :
    Ensures (PostsTo proxy serverId) (fun _ _ => True) (echoResult method params).run h := by
  unfold echoResult
  split_ifs
  on_goal 3 =>
    unfold echoCall
    dsimp only
    split_ifs
    on_goal 3 => exact ⟨trivial, fun _ => trivial⟩
  all_goals trivial

theorem forwardRequest_postsTo :
    Ensures (PostsTo proxy serverId) (fun _ _ => True)
      (proxy.forwardRequest serde serverId message).run h := by
  refine ⟨trivial, fun permit => ?_⟩
  cases permit with
  | false => trivial
  | true =>
    cases hserver : proxy.servers.lookup serverId with
    | none => trivial
    | some server =>
      by_cases hecho : server.isEcho
      · simp only [hecho, if_true]
        exact Ensures.bindExcept echoResult_postsTo (fun _ _ _ _ => trivial) fun _ _ _ _ => trivial
      · have hhttp : Ensures (PostsTo proxy serverId) (fun _ _ => True) (do
            let url ← Prog.result (UpstreamProxy.urlOf serverId server)
            UpstreamProxy.forwardToHttp serde url message : ProxyM JsonRpcMessage).run
            (h ++ [⟨.acquire, true⟩]) := by
          refine Ensures.result_bind (fun _ _ => trivial) fun url hurl => ?_
          unfold UpstreamProxy.urlOf at hurl
          split at hurl
          · next url' heq =>
            obtain rfl := Except.ok.inj hurl
            exact ⟨⟨server, hserver, by simpa using hecho, heq⟩, fun _ => trivial⟩
          · cases hurl
        simp only [hecho]
        cases server.transport with
        | streamableHttp => exact hhttp
        | sse => exact hhttp
        | stdio => trivial

end Posts

/-! ## The assembled gateway -/

section Assembled

variable {config : Config} {env : Environment} {gateway : Gateway} {serde : SerdeJson}
  {router : McpRouter} {tasks : ℕ → Task} {s s' : Shared} {h h' : History}
  {Q : ℕ → Prog ServerOp ServerOp.Reply TaskOutcome}

theorem registry_of_assemble (hassemble : assemble config env = .ok gateway) :
    gateway.registry = buildRegistry config env.now := by
  simp only [assemble, bind_eq_ok_iff, mapError_eq_ok_iff, pure, Except.pure,
    Except.ok.injEq] at hassemble
  obtain ⟨-, -, authorizer, -, -, -, rfl⟩ := hassemble
  rfl

/-- The call changes no registry. -/
def KeepsRegistry (ev : Event ServerOp.Reply) : Prop := ∀ op, ev.1 ≠ .shared (.registry op)

/-- A call on the registry is a task of its own. -/
theorem Task.At.keepsRegistry {task : Task} {tr : List (Event ServerOp.Reply)}
    {q : Prog ServerOp ServerOp.Reply TaskOutcome} (hat : task.At router tr q)
    (htask : ∀ op, task ≠ .shared (.registry op)) : ∀ ev ∈ tr, KeepsRegistry ev := by
  cases hat with
  | message hsteps =>
    intro ev hev op heq
    obtain ⟨gev, -, rfl⟩ := List.mem_map.mp hev
    cases heq
  | waiting => exact fun ev hev => absurd hev List.not_mem_nil
  | @answered op r =>
    intro ev hev op' heq
    obtain rfl := List.mem_singleton.mp hev
    exact htask op' (congrArg Task.shared (ServerOp.shared.inj heq))

theorem TasksRun.keepsRegistry (htasks : ∀ i op, tasks i ≠ .shared (.registry op))
    (hrun : TasksRun router tasks s h Q s') : ∀ ev ∈ h.map Prod.snd, KeepsRegistry ev := by
  intro ev hev
  obtain ⟨⟨i, ev⟩, hmem, rfl⟩ := List.mem_map.mp hev
  exact (Task.at_of_steps (hrun.thread i)).keepsRegistry (htasks i) ev (mem_callsOf.mpr hmem)

/-- While the assembled gateway serves its clients, a tool call is forwarded to the server `echo`
only, for a tool of the echo server under its full name, and only if an echo server or no upstream
at all has been configured.  It leaves the gateway only for the URL of an upstream that is itself
called `echo`. -/
theorem tool_calls_reach_echo (hassemble : assemble config env = .ok gateway)
    (hregistry : s.registry = gateway.registry)
    (htasks : ∀ i op, tasks i ≠ .shared (.registry op)) {i : ℕ} {server : String} {id : RequestId}
    {P : Value} {reply : Except McpError JsonRpcMessage}
    (hrun : TasksRun gateway.router tasks s (h ++ (i, ⟨.gateway (.forwardRequest server
      (.request id methodToolsCall (some P))), reply⟩) :: h') Q s') :
    server = "echo" ∧
      (∃ tool ∈ EchoServer.listTools, (P.get "name").bind Value.asStr = some tool.name) ∧
      (config.proxy.upstreams.entries.isEmpty = true ∨ hasEchoUpstream config = true) ∧
      ∀ tr url body k, Steps (gateway.proxy.forwardRequest serde server
          (.request id methodToolsCall (some P))).run tr (.call (.post url body) k) →
        ∃ upstream, config.proxy.upstreams.lookup "echo" = some upstream ∧
          upstream.url = some url ∧ upstream.echoServer = false := by
  have hkeeps := hrun.keepsRegistry htasks
  obtain ⟨enforcer, sessionId, message, toolName, -, hgates⟩ := passedGates_of_call hrun
  obtain ⟨entry, found, rfl, ⟨h₁, h₂, s₁, hh, hserves, hentry⟩, -⟩ := hgates.owned
  have hsame : s₁.registry = s.registry := by
    refine hserves.invariant (I := fun s₁ => s₁.registry = s.registry) (P := KeepsRegistry) rfl
      (fun ev hev => hkeeps ev ?_) fun s₁ op r s₂ hserve hkept hs₁ => ?_
    · rw [hh, List.append_assoc, List.map_append]
      exact List.mem_append_left _ hev
    · rcases Shared.registry_serve hserve with ⟨call, hop, -⟩ | hsame
      · exact absurd hop (hkept call)
      · exact hsame.trans hs₁
  rw [hsame, hregistry, registry_of_assemble hassemble] at hentry
  obtain ⟨hecho, htool, rfl⟩ := onlyEcho_buildRegistry config env.now toolName entry hentry
  refine ⟨hecho, ⟨entry.tool, htool, hgates.name⟩, echo_configured hentry, ?_⟩
  intro tr url body k hsteps
  obtain ⟨upstreamServer, hlookup, hnot, hurl⟩ := forwardRequest_postsTo.may_of_steps hsteps
  rw [hecho, (assembled_of_assemble hassemble).proxy] at hlookup
  rcases lookup_buildProxy hlookup with his | ⟨upstream, hconfigured, rfl⟩
  · exact absurd (hnot.symm.trans his) Bool.false_ne_true
  · exact ⟨upstream, hconfigured, hurl, hnot⟩

/-! ### An upstream that takes the place of the echo server -/

/-- An upstream server at a URL. -/
def webUpstream : UpstreamConfig where
  url := some "http://localhost:9000/mcp"

/-- Another server is configured under the name `echo`, and the echo server under another one. -/
def takenConfig : Config where
  proxy := { upstreams := AList.insert "echo" webUpstream <|
               AList.insert "local" { echoServer := true } ∅ }

/-- What is assembled then. -/
def takenGateway : Gateway where
  router := .withFullConfig "mcp-shield" "0.1.0" false false true
  registry := buildRegistry takenConfig 0
  proxy := buildProxy takenConfig
  authorizer := none
  scopeEnforcer := .allowAll

/-- A call of a tool of the echo server. -/
def timeParams : Value := .object [("name", .string "com.echo:get_time")]

/-- Two clients call the tool. -/
def timeTasks (_ : ℕ) : Task :=
  .message .allowAll none (.request (.integer 1) methodToolsCall (some timeParams))

def takenShared : Shared where
  registry := takenGateway.registry
  sessions := .new
  audit := { buffer := [] }

/-- The call is posted to the other server. -/
theorem tool_calls_reach_echo_taken :
    "echo" = "echo" ∧
      (∃ tool ∈ EchoServer.listTools,
        (timeParams.get "name").bind Value.asStr = some tool.name) ∧
      (takenConfig.proxy.upstreams.entries.isEmpty = true ∨ hasEchoUpstream takenConfig = true) ∧
      ∀ tr url body k, Steps (takenGateway.proxy.forwardRequest (serdeFor .null) "echo"
          (.request (.integer 1) methodToolsCall (some timeParams))).run tr
            (.call (.post url body) k) →
        ∃ upstream, takenConfig.proxy.upstreams.lookup "echo" = some upstream ∧
          upstream.url = some url ∧ upstream.echoServer = false := by
  have hassemble : assemble takenConfig bareEnvironment = .ok takenGateway := rfl
  have htasks : ∀ i op, timeTasks i ≠ .shared (.registry op) := by
    intro i op heq
    unfold timeTasks at heq
    cases heq
  have hbefore := interleaves_runSchedule (Shared.serve_answer openComponents)
    (fun i => (timeTasks i).program takenGateway.router) takenShared [0, 1, 1, 0]
  exact tool_calls_reach_echo hassemble rfl htasks
    (hbefore.trans (.step (i := 1) rfl (Shared.serve_answer openComponents _ _) (.refl _ _)))

end Assembled

end McpShield
