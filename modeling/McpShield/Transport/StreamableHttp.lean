import McpShield.Gateway.Router
import McpShield.Protocol.Parse

/-!
# The streamable HTTP transport

One message a POST.  The session header, if there is one, must name a session of the table; an
`initialize` that succeeds opens a new session.
-/

open Effect

namespace McpShield

/-- A session of the transport. -/
structure SessionState where
  createdAt : DateTime
  lastActivity : DateTime
  initialized : Bool
deriving DecidableEq

/-- The sessions by id. -/
abbrev SessionTable : Type := AList fun _ : String => SessionState

/-- A response: its status, the session header, and its JSON body. -/
structure HttpResponse where
  status : ℕ
  sessionId : Option String
  body : Option Value

namespace StreamableHttp

/-! ## Responses -/

/-- A response without the session header. -/
def respond (status : ℕ) (body : Option Value) : HttpResponse :=
  { status, sessionId := none, body }

/-- An error reply for no request in particular. -/
def errorReply (code : Int64) (message : String) : Value :=
  .object [("jsonrpc", .string "2.0"), ("id", .null),
    ("error", .object [("code", .ofInt code), ("message", .string message)])]

/-- `parse_error_response`. -/
def parseErrorResponse (message : String) : HttpResponse :=
  respond 200 (errorReply (-32700) message)

/-- `jsonrpc_error_response`. -/
def jsonrpcErrorResponse (code : Int64) (message : String) : HttpResponse :=
  respond 200 (errorReply code message)

/-- `error_response`. -/
def errorResponse (status : ℕ) (message : String) : HttpResponse :=
  respond status (Value.object [("error", .string message)])

/-- The response for a session that is not in the table. -/
def unknownSession : HttpResponse :=
  respond 404 (Value.object [("jsonrpc", .string "2.0"),
    ("error", .object [("code", .ofInt (-32000)),
      ("message", .string "Unknown or expired session")])])

/-! ## The handler -/

/-- The message of a body. -/
def readBody (serde : SerdeJson) (body : ByteArray) : Except HttpResponse JsonRpcMessage :=
  match String.fromUTF8? body with
  | none => .error (errorResponse 400 "Invalid UTF-8 in request body")
  | some text =>
      match serde.fromStr text with
      | .error e => .error (parseErrorResponse s!"Invalid JSON: {e}")
      | .ok raw =>
          match JsonRpcMessage.parse serde raw with
          | .error e => .error (jsonrpcErrorResponse e.code e.display)
          | .ok message => .ok message

/-- What a handler does to the session table when it has routed its message. -/
inductive SessionUpdate where
  | keep
  | create (sid : String) (session : SessionState)
  | touch (sid : String) (now : DateTime)

/-- The table after an update; a session that has been removed in the meantime is not touched. -/
def SessionUpdate.apply (sessions : SessionTable) : SessionUpdate → SessionTable
  | keep => sessions
  | create sid session => sessions.insert sid session
  | touch sid now =>
      match sessions.lookup sid with
      | some session => sessions.insert sid { session with lastActivity := now, initialized := true }
      | none => sessions

/-- Route a message and build the response to it. -/
def routeMessage (router : McpRouter) (enforcer : ScopeEnforcer) (sessionId : Option String)
    (message : JsonRpcMessage) :
    Prog GatewayOp GatewayOp.Reply (HttpResponse × SessionUpdate) := do
  let result ← handleMessage router enforcer sessionId message
  match result with
  | .error e =>
      if Str.containsStr e.display "notification" then pure (respond 202 none, .keep)
      else pure (jsonrpcErrorResponse e.code e.display, .keep)
  | .ok reply =>
      if message.method = some "initialize" then do
        let sid : String ← Prog.perform GatewayOp.newUuid
        let createdAt : DateTime ← Prog.perform GatewayOp.utcNow
        let lastActivity : DateTime ← Prog.perform GatewayOp.utcNow
        pure ({ status := 200, sessionId := some sid, body := some reply.toValue },
          .create sid { createdAt, lastActivity, initialized := false })
      else
        match sessionId with
        | some sid => do
            let now : DateTime ← Prog.perform GatewayOp.utcNow
            pure (respond 200 (some reply.toValue), .touch sid now)
        | none => pure (respond 200 (some reply.toValue), .keep)

/-- `handle_mcp_post`: the response, and what happens to the session table. -/
def handleMcpPost (serde : SerdeJson) (router : McpRouter) (enforcer : ScopeEnforcer)
    (sessions : SessionTable) (sessionId : Option String) (body : ByteArray) :
    Prog GatewayOp GatewayOp.Reply (HttpResponse × SessionUpdate) :=
  match readBody serde body with
  | .error response => pure (response, .keep)
  | .ok message =>
      match sessionId with
      | some sid =>
          if sid ∈ sessions then routeMessage router enforcer (some sid) message
          else pure (unknownSession, .keep)
      | none => routeMessage router enforcer none message

/-- `handle_mcp_delete`: the response, and the table afterwards. -/
def handleMcpDelete (sessions : SessionTable) (sessionId : Option String) :
    HttpResponse × SessionTable :=
  let notFound := errorResponse 404 "Session not found"
  match sessionId with
  | some sid =>
      if sid ∈ sessions then
        (respond 200 (some (.object [("status", .string "terminated")])), sessions.erase sid)
      else (notFound, sessions)
  | none => (notFound, sessions)

end StreamableHttp

end McpShield
