import Mathlib.Data.List.AList
import McpShield.Lib.Effect
import McpShield.Protocol.Message
import McpShield.Protocol.Parse

/-!
# The upstream proxy

The upstream servers the proxy knows, and how a request is forwarded to one of them: to the
built-in echo server, or over HTTP to a server that may answer with anything.
-/

open Effect

namespace McpShield

/-- The transport of an upstream server. -/
inductive UpstreamTransport where
  | streamableHttp
  | sse
  | stdio
deriving DecidableEq, Repr

/-- The configuration of an upstream server. -/
structure UpstreamServer where
  id : String
  transport : UpstreamTransport
  url : Option String
  isEcho : Bool
deriving DecidableEq, Repr

/-- The upstream servers.  The order of the entries is the iteration order of the map. -/
structure UpstreamProxy where
  servers : AList fun _ : String => UpstreamServer

namespace UpstreamProxy

def new : UpstreamProxy := { servers := ∅ }

/-- Add a server, or replace the one with its id. -/
def registerServer (p : UpstreamProxy) (server : UpstreamServer) : UpstreamProxy :=
  { servers := p.servers.insert server.id server }

/-- The first server id in iteration order. -/
def defaultServerId (p : UpstreamProxy) : Option String := p.servers.keys.head?

theorem exists_defaultServerId {p : UpstreamProxy} (h : p.servers ≠ ∅) :
    ∃ server, p.defaultServerId = some server := by
  unfold defaultServerId
  cases hk : p.servers.keys with
  | nil => exact absurd (AList.ext (List.map_eq_nil_iff.mp hk)) h
  | cons server rest => exact ⟨server, rfl⟩

end UpstreamProxy

/-! ## The outside world -/

/-- The outcome of an HTTP exchange: it fails, its body cannot be read, or it has a status, the text
of the status, and a body. -/
inductive HttpOutcome where
  | sendError (e : String)
  | textError (e : String)
  | response (status : ℕ) (statusText body : String)

/-- The calls of the proxy: for a free slot, for an HTTP exchange, and on the clock. -/
inductive ProxyOp where
  | acquire
  | post (url body : String)
  | utcNowRfc3339

/-- The answers to the calls. -/
def ProxyOp.Reply : ProxyOp → Type
  | acquire => Bool
  | post _ _ => HttpOutcome
  | utcNowRfc3339 => String

/-- The calls made so far with their answers. -/
abbrev ProxyTrace : Type := List (Event ProxyOp.Reply)

/-- A computation of the proxy. -/
abbrev ProxyM : Type → Type := ExceptT McpError (Prog ProxyOp ProxyOp.Reply)

/-! ## The echo server -/

/-- A result with one text block. -/
def textResult (text : String) : Value :=
  .object [("content", .array [.object [("type", .string "text"), ("text", .string text)]])]

/-- The tools the echo server lists. -/
def echoTools : Value :=
  .object [("tools", .array [
    .object [("name", .string "com.echo:echo"),
      ("description", .string "Echoes back the input message"),
      ("inputSchema", .object [("type", .string "object"),
        ("properties", .object [("message", .object [("type", .string "string"),
          ("description", .string "Message to echo")])]),
        ("required", .array [.string "message"])])],
    .object [("name", .string "com.echo:add"),
      ("description", .string "Adds two numbers together"),
      ("inputSchema", .object [("type", .string "object"),
        ("properties", .object [("a", .object [("type", .string "integer")]),
          ("b", .object [("type", .string "integer")])]),
        ("required", .array [.string "a", .string "b"])])],
    .object [("name", .string "com.echo:get_time"),
      ("description", .string "Returns the current server time"),
      ("inputSchema", .object [("type", .string "object"), ("properties", .emptyObject)])]])]

/-- The result of `initialize`; the protocol version is the one asked for. -/
def echoInitialize (params : Value) : Value :=
  .object [
    ("protocolVersion",
      .string (((params.get "protocolVersion").bind Value.asStr).getD "2025-03-26")),
    ("capabilities", .object [("tools", .object [("listChanged", .bool true)]),
      ("resources", .emptyObject), ("prompts", .emptyObject)]),
    ("serverInfo", .object [("name", .string "mcp-shield-echo"), ("version", .string "0.1.0")])]

/-- Call a tool of the echo server. -/
def echoCall (params : Value) : ProxyM Value :=
  let toolName := ((params.get "name").bind Value.asStr).getD "unknown"
  let arguments := (params.get "arguments").getD .null
  if toolName = "com.echo:echo" then
    let msg := ((arguments.get "message").bind Value.asStr).getD "no message"
    pure (textResult s!"Echo: {msg}")
  else if toolName = "com.echo:add" then
    -- the sum wraps around in a release build, which does not check for overflow
    let a : Int64 := ((arguments.get "a").bind Value.asI64).getD 0
    let b : Int64 := ((arguments.get "b").bind Value.asI64).getD 0
    let sum := a + b
    pure (textResult s!"{a.toInt} + {b.toInt} = {sum.toInt}")
  else if toolName = "com.echo:get_time" then do
    let now : String ← Prog.request ProxyOp.utcNowRfc3339
    pure (textResult now)
  else throw (.methodNotFound s!"Echo server: unknown tool '{toolName}'")

/-- The result of the echo server for a message. -/
def echoResult (method : String) (params : Value) : ProxyM Value :=
  if method = "initialize" then pure (echoInitialize params)
  else if method = "tools/list" then pure echoTools
  else if method = "tools/call" then echoCall params
  else if method = "ping" then pure .emptyObject
  else if method = "resources/list" then pure (.object [("resources", .array [])])
  else if method = "prompts/list" then pure (.object [("prompts", .array [])])
  else throw (.methodNotFound s!"Echo server: unknown method '{method}'")

namespace UpstreamProxy

/-- Forward a message to the echo server. -/
def forwardToEcho (message : JsonRpcMessage) : ProxyM JsonRpcMessage := do
  let result ← echoResult (message.method.getD "") (message.params.getD .null)
  pure (.successResponse (message.id.getD .null) result)

/-! ## Forwarding -/

/-- `StatusCode::is_success`. -/
def isSuccessStatus (status : ℕ) : Bool := 200 ≤ status && status < 300

/-- What is made of the outcome of an exchange. -/
def readReply (serde : SerdeJson) : HttpOutcome → Except McpError JsonRpcMessage
  | .sendError e => .error (.upstreamError s!"Upstream HTTP request failed: {e}")
  | .textError e => .error (.upstreamError s!"Failed to read upstream response: {e}")
  | .response status statusText body =>
      if !isSuccessStatus status && status ≠ 202 then
        .error (.upstreamError s!"Upstream returned HTTP {statusText}: {body}")
      else
        match serde.fromStr body with
        | .error e => .error (.parseError s!"Invalid JSON from upstream: {e}")
        | .ok raw =>
            match JsonRpcMessage.parse serde raw with
            | .ok message => .ok message
            | .error e =>
                let text := e.display
                .error (.upstreamError s!"Invalid JSON-RPC from upstream: {text}")

/-- Forward a message to an HTTP server. -/
def forwardToHttp (serde : SerdeJson) (url : String) (message : JsonRpcMessage) :
    ProxyM JsonRpcMessage := do
  let outcome ← Prog.request (ProxyOp.post url message.toJsonString)
  Prog.result (readReply serde outcome)

/-- The URL of a server. -/
def urlOf (serverId : String) (server : UpstreamServer) : Except McpError String :=
  match server.url with
  | some url => .ok url
  | none => .error (.upstreamError s!"No URL configured for server {serverId}")

/-- Forward a message to a server. -/
def forwardRequest (serde : SerdeJson) (p : UpstreamProxy) (serverId : String)
    (message : JsonRpcMessage) : ProxyM JsonRpcMessage := do
  let permit : Bool ← Prog.request ProxyOp.acquire
  if !permit then throw (.upstreamError "Upstream concurrency limit reached")
  else
    match p.servers.lookup serverId with
    | none => throw (.upstreamError s!"Unknown upstream server: {serverId}")
    | some server =>
        if server.isEcho then forwardToEcho message
        else
          match server.transport with
          | .streamableHttp => do
              let url ← Prog.result (urlOf serverId server)
              forwardToHttp serde url message
          | .sse => do
              -- the messages of the client are posted as over HTTP
              let url ← Prog.result (urlOf serverId server)
              forwardToHttp serde url message
          | .stdio => throw (.upstreamError "Stdio upstream transport not yet implemented")

end UpstreamProxy

end McpShield
