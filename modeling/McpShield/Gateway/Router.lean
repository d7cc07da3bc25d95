import McpShield.Auth.Scope
import McpShield.Gateway.Proxy
import McpShield.Gateway.Registry
import McpShield.Guardrail.Basic
import McpShield.Lib.Effect
import McpShield.Policy.Cedar
import McpShield.Protocol.Jsonrpc
import McpShield.Session.State
import McpShield.Telemetry.Producer

/-!
# The request router

The pipeline of the gateway, as a program over the components it calls: method validation, scopes,
Cedar policy, registry lookup, schema validation, constraints, session lock, forwarding and egress
inspection.  The components are not fixed here: any of them may answer in any way, and may change
between two calls.
-/

open Effect

namespace McpShield

/-! ## The components -/

/-- The calls of the router on its components, on the clock and on the generator of ids. -/
inductive GatewayOp where
  | parseInitializeParams (params : Value)
  | lookupAny (name : String)
  | listTools
  | validate (schema inst : Value)
  | evaluate (request : AuthorizationRequest)
  | evaluateConstraints (toolName : String) (arguments : Value)
  | checkContextAccess (sessionId : String) (scope : ContextScope)
  | logToolCall (sessionId : String) (record : ToolCallRecord)
  | defaultServerId
  | forwardRequest (serverId : String) (message : JsonRpcMessage)
  | sanitizeResponse (result : InspectableResult)
  | publishAuditEvent (event : AuditEvent)
  | recordRequest (method transport status : String) (duration : ℕ)
  | incrementBlockedRequest (reason : String)
  | incrementValidationFailure (reason : String)
  | newUuid
  | utcNow
  | utcNowRfc3339
  | elapsed

/-- The answers to the calls.  Durations are in nanoseconds.  A call that panics has no answer: a run
stops before it. -/
def GatewayOp.Reply : GatewayOp → Type
  | parseInitializeParams _ => Except String InitializeParams
  | lookupAny _ => Except McpError (Option RegisteredTool)
  | listTools => List Tool
  | validate _ _ => Except McpError Unit
  | evaluate _ => Except CedarError AuthorizationResponse
  | evaluateConstraints _ _ => Except EcpaError ConstraintResult
  | checkContextAccess _ _ => Except SessionError AccessCheckResult
  | logToolCall _ _ => Except SessionError Unit
  | defaultServerId => Option String
  | forwardRequest _ _ => Except McpError JsonRpcMessage
  | sanitizeResponse _ => Except GuardrailError InspectionResult
  | publishAuditEvent _ => Except ProducerError Unit
  | recordRequest .. => Unit
  | incrementBlockedRequest _ => Unit
  | incrementValidationFailure _ => Unit
  | newUuid => String
  | utcNow => DateTime
  | utcNowRfc3339 => String
  | elapsed => ℕ

/-- The calls made so far with their answers. -/
abbrev GatewayTrace : Type := List (Event GatewayOp.Reply)

/-- A computation of the gateway. -/
abbrev GatewayM : Type → Type := ExceptT McpError (Prog GatewayOp GatewayOp.Reply)

/-- The router: its server information, and which optional components it has. -/
structure McpRouter where
  serverName : String
  serverVersion : String
  authorizer : Bool
  sessions : Bool
  auditProducer : Bool
  ecpaGuardrail : Bool
  egressInspector : Bool

/-- Call a component. -/
def ask (op : GatewayOp) : GatewayM op.Reply := Prog.request op

/-! ## Notifications -/

/-- Handle a notification; the list-changed arms differ from the last one in their log only. -/
def handleNotification (method : String) : Except McpError JsonRpcMessage :=
  if method = methodInitialized then .error (.invalidRequest
    "notifications/initialized is a notification and should not receive a response")
  else if method = methodExited then .error (.invalidRequest
    "notifications/exited is a notification and should not receive a response")
  else .error (.invalidRequest "Notification should not receive a response")

/-! ## The stages of a tool call -/

/-- The name of the called tool. -/
def toolNameOf (params : Value) : Except McpError String :=
  match (params.get "name").bind Value.asStr with
  | some name => .ok name
  | none => .error (.invalidParams "tools/call requires a 'name' parameter")

/-- The arguments of the call, an empty object if there are none. -/
def argumentsOf (params : Value) : Value := (params.get "arguments").getD .emptyObject

/-- The registry's entry for the tool. -/
def lookupTool (toolName : String) : GatewayM RegisteredTool := do
  let found ← ask (.lookupAny toolName)
  let entry ← Prog.result found
  match entry with
  | some registered => pure registered
  | none => throw (.methodNotFound s!"Tool '{toolName}' not found in registry")

/-- Validate the arguments against the tool's input schema; null arguments are not validated. -/
def checkSchema (registered : RegisteredTool) (arguments : Value) : GatewayM Unit :=
  if arguments.isNull then pure ()
  else do
    let result ← ask (.validate registered.tool.inputSchema arguments)
    match result with
    | .ok () => pure ()
    | .error e => do
        let _ ← ask (.incrementValidationFailure "schema_mismatch")
        throw e

/-- The explanations of the violated predicates. -/
def violations (result : ConstraintResult) : String :=
  "; ".intercalate
    ((result.evaluations.filter fun e => !e.satisfied).map PredicateEvaluation.explanation)

/-- Evaluate the constraints of the tool. -/
def checkConstraints (router : McpRouter) (toolName : String) (arguments : Value) :
    GatewayM Unit :=
  if router.ecpaGuardrail then do
    let answer ← ask (.evaluateConstraints toolName arguments)
    match answer with
    | .ok result =>
        if result.satisfied then pure ()
        else do
          let _ ← ask (.incrementBlockedRequest "ecpa_violation")
          let explanations := violations result
          throw (.ecpaViolation s!"ePCA constraint violated: {explanations}")
    | .error e => do
        let _ ← ask (.incrementBlockedRequest "ecpa_error")
        let text := e.display
        throw (.ecpaViolation s!"ePCA evaluation failed: {text}")
  else pure ()

/-- The context a tool belongs to: the text before the first colon of its name, as private. -/
def toolContext (toolName : String) : ContextScope :=
  { contextType := "mcp_tool", identifier := Str.before toolName ':', visibility := .private }

/-- Check the session lock and record the call.  An error of the session manager is not an
obstacle. -/
def checkSession (router : McpRouter) (sessionId : Option String) (toolName : String)
    (arguments : Value) : GatewayM Unit :=
  match router.sessions, sessionId with
  | true, some sid => do
      let access ← ask (.checkContextAccess sid (toolContext toolName))
      match access with
      | .ok (.deny reason lockedTo) => do
          let _ ← ask (.incrementBlockedRequest "session_lock")
          let visibility := lockedTo.visibility.asStr
          throw (.sessionLocked
            s!"Session locked to {visibility} context '{lockedTo.identifier}'. {reason}")
      | _ => do
          let timestamp ← ask .utcNow
          let _ ← ask (.logToolCall sid { toolName, arguments, timestamp })
          pure ()
  | _, _ => pure ()

/-- What the egress inspector is shown of a response: the content blocks of a result, or the whole
result if it has no array of them. -/
def inspectedContent : JsonRpcMessage → List Value
  | .success _ result =>
      match (result.get "content").bind Value.asArray with
      | some blocks => blocks
      | none => [result]
  | _ => []

/-- The response with sanitized content; a result without content stays as it is. -/
def rebuildResponse (response : JsonRpcMessage) (sanitizedContent : List Value) :
    JsonRpcMessage :=
  match response with
  | .success id result => .success id (result.assign "content" (.array sanitizedContent))
  | _ => response

/-- Inspect the response of an upstream server.  An error of the inspector is not an obstacle. -/
def inspectResponse (router : McpRouter) (toolName serverId : String)
    (response : JsonRpcMessage) : GatewayM JsonRpcMessage :=
  if router.egressInspector && !(inspectedContent response).isEmpty then do
    let inspection ← ask (.sanitizeResponse
      { toolName, content := inspectedContent response, serverId })
    match inspection with
    | .ok result =>
        if result.modified then pure (rebuildResponse response result.sanitizedContent)
        else pure response
    | .error _ => pure response
  else pure response

/-- Send the call to the server that owns the tool. -/
def forwardToolCall (router : McpRouter) (id : RequestId) (params : Value) (toolName : String)
    (registered : RegisteredTool) : GatewayM JsonRpcMessage := do
  let reply ← ask (.forwardRequest registered.serverId
    (.request id methodToolsCall (some params)))
  match reply with
  | .ok response => inspectResponse router toolName registered.serverId response
  | .error e => throw e

/-- Handle `tools/call`. -/
def handleToolsCall (router : McpRouter) (id : RequestId) (params : Option Value)
    (enforcer : ScopeEnforcer) (sessionId : Option String) : GatewayM JsonRpcMessage := do
  let params := params.getD .emptyObject
  let toolName ← Prog.result (toolNameOf params)
  Prog.result (enforcer.checkToolAccess toolName)
  let registered ← lookupTool toolName
  checkSchema registered (argumentsOf params)
  checkConstraints router toolName (argumentsOf params)
  checkSession router sessionId toolName (argumentsOf params)
  forwardToolCall router id params toolName registered

/-! ## The other requests -/

/-- The parameters of an `initialize` request without any. -/
def defaultInitializeParams : Value :=
  .object [("protocolVersion", .string mcpProtocolVersion), ("capabilities", .emptyObject),
    ("clientInfo", .object [("name", .string "unknown"), ("version", .string "0.0.0")])]

/-- The result of `initialize`. -/
def initializeResult (router : McpRouter) : Value :=
  .object [("protocolVersion", .string mcpProtocolVersion),
    ("capabilities", .object [("tools", .object [("listChanged", .bool true)]),
      ("resources", .emptyObject), ("prompts", .emptyObject)]),
    ("serverInfo", .object [("name", .string router.serverName),
      ("version", .string router.serverVersion)]),
    ("instructions", .string
      "MCP-Shield security gateway. All requests are validated, authenticated, and authorized.")]

/-- Handle `initialize`. -/
def handleInitialize (router : McpRouter) (id : RequestId) (params : Option Value) :
    GatewayM JsonRpcMessage := do
  let parsed ← ask (.parseInitializeParams (params.getD defaultInitializeParams))
  match parsed with
  | .ok _ => pure (.successResponse id (initializeResult router))
  | .error e => throw (.invalidParams s!"Invalid initialize params: {e}")

/-- Handle `tools/list`. -/
def handleToolsList (id : RequestId) : GatewayM JsonRpcMessage := do
  let tools ← ask .listTools
  pure (.successResponse id (.object [("tools", .array (List.map Tool.toValue tools))]))

/-- Send a request to the default upstream server. -/
def proxyToUpstream (id : RequestId) (method : String) (params : Option Value) :
    GatewayM JsonRpcMessage := do
  let server ← ask .defaultServerId
  match server with
  | some serverId => do
      let reply ← ask (.forwardRequest serverId (.request id method params))
      Prog.result reply
  | none => throw (.upstreamError "No upstream servers configured")

/-! ## Requests -/

/-- The policy question a request raises. -/
def authorizationRequest (enforcer : ScopeEnforcer) (method : String) (params : Option Value) :
    AuthorizationRequest :=
  { principal := enforcer.grantedScopes.head?.getD "anonymous"
    action := method
    resource := ((params.bind fun p => p.get "name").bind Value.asStr).getD "any"
    context :=
      if enforcer.grantedScopes.isEmpty then ∅
      else AList.insert "scopes" (Value.ofStrings enforcer.grantedScopes) ∅ }

/-- Ask the Cedar authorizer. -/
def checkPolicy (router : McpRouter) (enforcer : ScopeEnforcer) (method : String)
    (params : Option Value) : GatewayM Unit :=
  if router.authorizer then do
    let answer ← ask (.evaluate (authorizationRequest enforcer method params))
    match answer with
    | .ok response =>
        if response.decision = .deny then do
          let _ ← ask (.incrementBlockedRequest "cedar_deny")
          let diagnostics := ", ".intercalate response.diagnostics
          throw (.scopeDenied s!"Cedar policy denied: {diagnostics}")
        else pure ()
    | .error e => do
        let _ ← ask (.incrementBlockedRequest "cedar_error")
        let text := e.display
        throw (.internalError s!"Policy evaluation failed: {text}")
  else pure ()

/-- Hand a request to the handler of its method. -/
def dispatch (router : McpRouter) (id : RequestId) (method : String) (params : Option Value)
    (enforcer : ScopeEnforcer) (sessionId : Option String) : GatewayM JsonRpcMessage :=
  if method = methodInitialize then handleInitialize router id params
  else if method = methodPing then pure (.successResponse id .emptyObject)
  else if method = methodToolsList then handleToolsList id
  else if method = methodToolsCall then handleToolsCall router id params enforcer sessionId
  else if method = methodResourcesList then proxyToUpstream id method params
  else if method = methodPromptsList then proxyToUpstream id method params
  else if method = methodShutdown then pure (.successResponse id .emptyObject)
  else if method = methodInitialized then throw (.invalidRequest
    "notifications/initialized should be a notification (no id)")
  else proxyToUpstream id method params

/-- Handle a request. -/
def handleRequest (router : McpRouter) (id : RequestId) (method : String) (params : Option Value)
    (enforcer : ScopeEnforcer) (sessionId : Option String) : GatewayM JsonRpcMessage :=
  if !isValidMethod method && !Str.startsWith method "notifications/" then
    pure (.methodNotFoundResponse id method)
  else do
    Prog.result (enforcer.checkMethod method)
    checkPolicy router enforcer method params
    dispatch router id method params enforcer sessionId

/-! ## Messages -/

/-- The decision an audit event reports. -/
def auditDecision : Except McpError JsonRpcMessage → AuthDecision
  | .ok _ => .allow
  | .error e =>
      if e.code = -32005 then .block
      else if e.code = -32006 then .block
      else if e.code = -32002 then .denyPolicy
      else if Str.containsStr e.display "Scope denied" then .deny
      else .deny

/-- Publish the audit event of a message; a failure of the producer is ignored. -/
def publishAudit (router : McpRouter) (message : JsonRpcMessage) (enforcer : ScopeEnforcer)
    (sessionId : Option String) (result : Except McpError JsonRpcMessage) :
    Prog GatewayOp GatewayOp.Reply Unit :=
  if router.auditProducer then do
    let eventId ← Prog.perform GatewayOp.newUuid
    let timestamp ← Prog.perform GatewayOp.utcNowRfc3339
    let duration : ℕ ← Prog.perform GatewayOp.elapsed
    let _ ← Prog.perform (GatewayOp.publishAuditEvent
      { eventId
        timestamp
        method := message.method.getD ""
        requestId := message.id.map RequestId.display
        sessionId
        principal := enforcer.grantedScopes.head?.or sessionId
        scopes := enforcer.grantedScopes
        decision := auditDecision result
        requestPayload := some message.toValue
        responsePayload := result.toOption.map JsonRpcMessage.toValue
        errorCode := match result with
          | .ok _ => none
          | .error e => some e.code
        durationMs := UInt64.ofNat (duration / 1000000)
        transport :=
          if (sessionId.map fun s => Str.startsWith s "stdio").getD false then "stdio"
          else "http" })
    pure ()
  else pure ()

/-- Route a message that is not a batch of at least one message. -/
def route (router : McpRouter) (message : JsonRpcMessage) (enforcer : ScopeEnforcer)
    (sessionId : Option String) : GatewayM JsonRpcMessage :=
  match message with
  | .notification method _ => Prog.result (handleNotification method)
  | .request id method params => handleRequest router id method params enforcer sessionId
  | .success _ _ | .error _ _ => throw (.invalidRequest
      "Gateway received a response message. Only requests and notifications are expected.")
  | .batch _ => throw (.invalidRequest "Empty batch")

/-- Record the outcome of a message in the metrics and the audit log. -/
def record (router : McpRouter) (message : JsonRpcMessage) (enforcer : ScopeEnforcer)
    (sessionId : Option String) (result : Except McpError JsonRpcMessage) :
    Prog GatewayOp GatewayOp.Reply (Except McpError JsonRpcMessage) := do
  let duration : ℕ ← Prog.perform GatewayOp.elapsed
  let _ ← Prog.perform (GatewayOp.recordRequest (message.method.getD "") "gateway"
    (match result with
      | .ok _ => "success"
      | .error _ => "error") duration)
  publishAudit router message enforcer sessionId result
  pure result

/-- Route a message through the pipeline.  Of a batch, only the first message is routed. -/
def handleMessage (router : McpRouter) (enforcer : ScopeEnforcer) (sessionId : Option String) :
    JsonRpcMessage → Prog GatewayOp GatewayOp.Reply (Except McpError JsonRpcMessage)
  | .batch (first :: _) => handleMessage router enforcer sessionId first
  | message => do
      let result ← (route router message enforcer sessionId).run
      record router message enforcer sessionId result

/-! ## Components that do not change -/

/-- Components whose answers depend on the question alone. -/
structure Components where
  registry : ToolRegistry
  servers : UpstreamProxy
  sessions : InMemorySessionManager
  validate : Value → Value → Except McpError Unit
  evaluate : AuthorizationRequest → Except CedarError AuthorizationResponse
  evaluateConstraints : String → Value → Except EcpaError ConstraintResult
  upstream : String → JsonRpcMessage → Except McpError JsonRpcMessage
  sanitizeResponse : InspectableResult → Except GuardrailError InspectionResult

/-- The answers of such components, with a clock that stands still. -/
def Components.answer (c : Components) : (op : GatewayOp) → op.Reply
  | .parseInitializeParams _ => .ok { protocolVersion := mcpProtocolVersion }
  | .lookupAny name => c.registry.lookupAny name
  | .listTools => c.registry.listTools
  | .validate schema inst => c.validate schema inst
  | .evaluate question => c.evaluate question
  | .evaluateConstraints toolName arguments => c.evaluateConstraints toolName arguments
  | .checkContextAccess sid scope => c.sessions.checkContextAccess sid scope
  | .logToolCall sid record => (c.sessions.logToolCall sid record 0).1
  | .defaultServerId => c.servers.defaultServerId
  | .forwardRequest serverId message => c.upstream serverId message
  | .sanitizeResponse result => c.sanitizeResponse result
  | .publishAuditEvent _ => .ok ()
  | .recordRequest .. => ()
  | .incrementBlockedRequest _ => ()
  | .incrementValidationFailure _ => ()
  | .newUuid => "00000000-0000-4000-8000-000000000000"
  | .utcNow => (0 : DateTime)
  | .utcNowRfc3339 => "1970-01-01T00:00:00+00:00"
  | .elapsed => (0 : ℕ)

end McpShield
