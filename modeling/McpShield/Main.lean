import McpShield.Config
import McpShield.TestServer.Echo
import McpShield.Transport.Sse

/-!
# The assembled gateway

`main` assembles the gateway from its configuration and serves HTTP requests with it.
-/

open Effect

namespace McpShield

/-! ## Start-up -/

/-- A Cedar authorizer. -/
abbrev CedarAuthorizer : Type := AuthorizationRequest → Except CedarError AuthorizationResponse

/-- What `main` finds when it starts: whether the exporter of the metrics and the control plane come
up, the authorizer that the policy file at a path is loaded to, if there is one, and the time. -/
structure Environment where
  prometheusExporter : Except String Unit
  controlPlane : Except String Unit
  policyFile : String → Option (Except CedarError CedarAuthorizer)
  now : DateTime

/-- The router that `with_full_config` builds; it has no guardrails. -/
def McpRouter.withFullConfig (serverName serverVersion : String)
    (authorizer sessions auditProducer : Bool) : McpRouter :=
  { serverName, serverVersion, authorizer, sessions, auditProducer, ecpaGuardrail := false,
    egressInspector := false }

/-- Check if the config includes an echo upstream. -/
def hasEchoUpstream (config : Config) : Bool :=
  config.proxy.upstreams.entries.any fun e => e.2.echoServer

/-- The registry with the tools of the echo server, if it is configured or there are no upstreams.
A tool that is refused is left out. -/
def buildRegistry (config : Config) (now : DateTime) : ToolRegistry :=
  let registry :=
    ToolRegistry.withConfig config.registry.enforcePrefixFormat config.registry.allowedPrefixes
  if config.proxy.upstreams.entries.isEmpty || hasEchoUpstream config then
    EchoServer.listTools.foldl (fun R tool => (R.registerTool tool "echo" now).2) registry
  else registry

/-- The transport that a configured name stands for. -/
def UpstreamTransport.ofName : String → UpstreamTransport
  | "sse" => sse
  | "stdio" => stdio
  | _ => streamableHttp

/-- The proxy with the echo server and the configured upstreams. -/
def buildProxy (config : Config) : UpstreamProxy :=
  let echo : UpstreamServer :=
    { id := "echo", transport := .streamableHttp, url := none, isEcho := true }
  config.proxy.upstreams.entries.foldl
    (fun proxy e => proxy.registerServer
      { id := e.1, transport := .ofName e.2.transport, url := e.2.url, isEcho := e.2.echoServer })
    (UpstreamProxy.new.registerServer echo)

/-- The authorizer, if policies are enabled; without the policy file there is none. -/
def loadAuthorizer (config : PolicyConfig)
    (policyFile : String → Option (Except CedarError CedarAuthorizer)) :
    Except CedarError (Option CedarAuthorizer) :=
  if config.enabled then
    match policyFile config.policyFile with
    | some (.ok authz) => .ok (some authz)
    | some (.error e) => .error e
    | none => .ok none
  else .ok none

/-- The gateway as it is assembled. -/
structure Gateway where
  router : McpRouter
  registry : ToolRegistry
  proxy : UpstreamProxy
  authorizer : Option CedarAuthorizer
  scopeEnforcer : ScopeEnforcer

/-- What `main` does before it serves requests; an error ends it. -/
def assemble (config : Config) (env : Environment) : Except String Gateway := do
  env.prometheusExporter
  let authorizer ← (loadAuthorizer config.policy env.policyFile).mapError CedarError.display
  let sessions := config.guardrails.sessionLocking
  let auditProducer := true
  env.controlPlane
  pure
    { router := .withFullConfig config.server.serverInfo.name config.server.serverInfo.version
        authorizer.isSome sessions auditProducer
      registry := buildRegistry config env.now
      proxy := buildProxy config
      authorizer
      scopeEnforcer := if config.auth.enabled then .allowAll else .allowAll }

/-! ## Requests -/

/-- The handlers that know the router. -/
inductive Endpoint where
  | mcpPost
  | mcpDelete
  | sseGet
  | ssePost
deriving DecidableEq

/-- The handlers that the app routes requests to. -/
def endpoints (server : ServerConfig) : List Endpoint :=
  if server.enableHttp then
    if server.enableSse then [.mcpPost, .mcpDelete, .sseGet, .ssePost] else [.mcpPost, .mcpDelete]
  else []

/-- The bytes of a header. -/
abbrev HeaderValue : Type := List UInt8

/-- `HeaderValue::to_str`: the text, if all characters are visible ASCII. -/
def HeaderValue.toStr (value : HeaderValue) : Option String :=
  if value.all fun b => 32 ≤ b && b < 127 || b == 9 then
    some (String.ofList (value.map fun b => Char.ofNat b.toNat))
  else none

/-- A request: the handler that its method and its path lead to, unless they lead to one that does
not know the router; its headers by lower-case name; the client that its query names; its body. -/
structure HttpRequest where
  endpoint : Option Endpoint
  headers : List (String × HeaderValue)
  clientId : Option String
  body : ByteArray

/-- The session that the header names. -/
def HttpRequest.sessionId (request : HttpRequest) : Option String :=
  (request.headers.lookup "mcp-session-id").bind HeaderValue.toStr

/-- The handler of a request in an app. -/
def HttpRequest.handler (server : ServerConfig) (request : HttpRequest) : Option Endpoint :=
  request.endpoint.filter fun endpoint => endpoint ∈ endpoints server

/-- What becomes of a request. -/
inductive Served where
  | posted (response : HttpResponse) (update : StreamableHttp.SessionUpdate)
  | deleted (response : HttpResponse) (sessions : SessionTable)
  | opened (clientId : String)
  | sent (sent : Sse.Sent)
  | unrouted

/-- Serve a request. -/
def Gateway.serve (serde : SerdeJson) (gateway : Gateway) (server : ServerConfig)
    (sessions : SessionTable) (clients : Sse.Clients) (request : HttpRequest) :
    Prog GatewayOp GatewayOp.Reply Served :=
  match request.handler server with
  | some .mcpPost => do
      let out ← StreamableHttp.handleMcpPost serde gateway.router gateway.scopeEnforcer sessions
        request.sessionId request.body
      pure (.posted out.1 out.2)
  | some .mcpDelete =>
      let out := StreamableHttp.handleMcpDelete sessions request.sessionId
      pure (.deleted out.1 out.2)
  | some .sseGet =>
      match request.clientId with
      | some clientId => pure (.opened clientId)
      | none => do
          let clientId : String ← Prog.perform GatewayOp.newUuid
          pure (.opened clientId)
  | some .ssePost => do
      let out ← Sse.handleSsePost serde gateway.router gateway.scopeEnforcer clients
        request.clientId request.body
      pure (.sent out)
  | none => pure .unrouted

end McpShield
