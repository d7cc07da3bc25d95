import McpShield.Gateway.Router
import McpShield.Protocol.Parse

/-!
# The stdio transport

One message a line.  The loop reads a line, routes it under the session `stdio`, and writes the
reply; an error whose text speaks of a notification is not written.
-/

open Effect

namespace McpShield

/-- What the loop does with one line: the messages it writes to stdout. -/
def StdioTransport.handleLine (serde : SerdeJson) (router : McpRouter) (enforcer : ScopeEnforcer)
    (line : String) : Prog GatewayOp GatewayOp.Reply (List JsonRpcMessage) :=
  let trimmed := Str.trim line
  if trimmed = "" then pure []
  else
    match JsonRpcMessage.fromStr serde trimmed with
    | .error _ => pure [.parseErrorResponse]
    | .ok message => do
        let result ← handleMessage router enforcer (some "stdio") message
        match result with
        | .ok response => pure [response]
        | .error e =>
            if !Str.containsStr e.display "notification" then
              pure [.error .null (.new e.code e.display)]
            else pure []

end McpShield
