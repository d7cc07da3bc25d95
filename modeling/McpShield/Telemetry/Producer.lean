import McpShield.Protocol.Json

/-!
# Audit events
-/

namespace McpShield

/-- The authorization decision of an audit event. -/
inductive AuthDecision where
  | allow
  | deny
  | denyPolicy
  | block
deriving DecidableEq, Repr

/-- An audit event. -/
structure AuditEvent where
  eventId : String
  timestamp : String
  method : String
  requestId : Option String
  sessionId : Option String
  principal : Option String
  scopes : List String
  decision : AuthDecision
  requestPayload : Option Value
  responsePayload : Option Value
  errorCode : Option Int64
  durationMs : UInt64
  transport : String

/-- The errors of an event producer. -/
inductive ProducerError where
  | kafka (msg : String)
  | serialization (msg : String)
  | channelFull
  | notConnected
deriving DecidableEq, Repr

/-- A producer that holds events in memory. -/
structure BufferingProducer where
  buffer : List AuditEvent

namespace BufferingProducer

def new : BufferingProducer := { buffer := [] }

/-- Add an event to the buffer; this never fails. -/
def publishAuditEvent (p : BufferingProducer) (event : AuditEvent) :
    Except ProducerError Unit × BufferingProducer :=
  (.ok (), { buffer := p.buffer ++ [event] })

/-- The buffered events and the empty buffer. -/
def drain (p : BufferingProducer) : List AuditEvent × BufferingProducer := (p.buffer, new)

end BufferingProducer

end McpShield
