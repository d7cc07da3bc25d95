import McpShield.Transport.StreamableHttp

/-!
# The SSE transport

Messages are posted, and replies are sent over the event stream of the client.  The response to the
POST itself carries no reply.
-/

open Effect

namespace McpShield.Sse

/-- The event stream of a client. -/
abbrev ChannelId : Type := ℕ

/-- The streams of the connected clients. -/
abbrev Clients : Type := AList fun _ : String => ChannelId

/-- The response to a POST, and the messages sent over event streams. -/
abbrev Sent : Type := HttpResponse × List (ChannelId × JsonRpcMessage)

/-- A channel is registered for the client. -/
def Registered (clients : Clients) (clientId : Option String) : Prop :=
  ∃ client tx, clientId = some client ∧ clients.lookup client = some tx

/-- The messages that go out: a send fails if the stream of its channel has been dropped. -/
def delivered (dropped : List ChannelId) (sent : List (ChannelId × JsonRpcMessage)) :
    List JsonRpcMessage :=
  (sent.filter fun message => message.1 ∉ dropped).map Prod.snd

/-- The response to a POST that has been taken. -/
def accepted : HttpResponse := StreamableHttp.respond 202 none

/-- Route a message of a client and send the reply. -/
def routeMessage (router : McpRouter) (enforcer : ScopeEnforcer) (clientId : String)
    (tx : ChannelId) (message : JsonRpcMessage) : Prog GatewayOp GatewayOp.Reply Sent := do
  let result ← handleMessage router enforcer (some clientId) message
  match result with
  | .ok response => pure (accepted, [(tx, response)])
  | .error e =>
      if !message.isNotification && !Str.containsStr e.display "notification" then
        pure (accepted, [(tx, .error .null (.new e.code e.display))])
      else pure (accepted, [])

/-- `handle_sse_post`. -/
def handleSsePost (serde : SerdeJson) (router : McpRouter) (enforcer : ScopeEnforcer)
    (clients : Clients) (clientId : Option String) (body : ByteArray) :
    Prog GatewayOp GatewayOp.Reply Sent :=
  match clientId with
  | none =>
      pure (StreamableHttp.errorResponse 400 "Missing client_id query parameter", [])
  | some clientId =>
      match clients.lookup clientId with
      | none => pure (StreamableHttp.errorResponse 404 "Unknown or disconnected client", [])
      | some tx =>
          match String.fromUTF8? body with
          | none =>
              pure (StreamableHttp.errorResponse 400 "Invalid UTF-8 in request body", [])
          | some text =>
              match serde.fromStr text with
              | .error _ => pure (accepted, [(tx, .parseErrorResponse)])
              | .ok raw =>
                  match JsonRpcMessage.parse serde raw with
                  | .error e =>
                      pure (accepted, [(tx, .error .null (.new e.code e.display))])
                  | .ok message => routeMessage router enforcer clientId tx message

end McpShield.Sse
