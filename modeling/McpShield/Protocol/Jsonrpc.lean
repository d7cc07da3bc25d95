import McpShield.Error

/-!
# JSON-RPC 2.0 messages
-/

namespace McpShield

def jsonrpcVersion : String := "2.0"

/-- The error object of an error response. -/
structure JsonRpcErrorObj where
  code : Int64
  message : String
  data : Option Value

/-- The object without `data`. -/
def JsonRpcErrorObj.new (code : Int64) (message : String) : JsonRpcErrorObj :=
  { code, message, data := none }

def JsonRpcErrorObj.toValue (e : JsonRpcErrorObj) : Value :=
  .object ([("code", .ofInt e.code), ("message", .string e.message)] ++
    (e.data.map fun d => ("data", d)).toList)

/-- A parsed JSON-RPC 2.0 message. -/
inductive JsonRpcMessage where
  | request (id : RequestId) (method : String) (params : Option Value)
  | notification (method : String) (params : Option Value)
  | success (id : RequestId) (result : Value)
  | error (id : RequestId) (err : JsonRpcErrorObj)
  | batch (messages : List JsonRpcMessage)

namespace JsonRpcMessage

/-- The id of a request or a response. -/
def id : JsonRpcMessage → Option RequestId
  | request id _ _ => some id
  | success id _ => some id
  | error id _ => some id
  | notification _ _ => none
  | batch _ => none

/-- The method of a request or a notification. -/
def method : JsonRpcMessage → Option String
  | request _ method _ => some method
  | notification method _ => some method
  | _ => none

/-- The parameters of a request or a notification. -/
def params : JsonRpcMessage → Option Value
  | request _ _ params => params
  | notification _ params => params
  | _ => none

/-- The message as a JSON value. -/
def toValue : JsonRpcMessage → Value
  | request id method params =>
      let obj := Value.object
        [("jsonrpc", .string jsonrpcVersion), ("id", id.toValue), ("method", .string method)]
      match params with
      | some p => obj.insert "params" p
      | none => obj
  | notification method params =>
      let obj := Value.object [("jsonrpc", .string jsonrpcVersion), ("method", .string method)]
      match params with
      | some p => obj.insert "params" p
      | none => obj
  | success id result =>
      .object [("jsonrpc", .string jsonrpcVersion), ("id", id.toValue), ("result", result)]
  | error id err =>
      .object [("jsonrpc", .string jsonrpcVersion), ("id", id.toValue), ("error", err.toValue)]
  | batch messages => .array (messages.map toValue)

/-- The message as a JSON text. -/
def toJsonString (m : JsonRpcMessage) : String := m.toValue.toJsonString

/-- The reply to a request with an unknown method. -/
def methodNotFoundResponse (id : RequestId) (method : String) : JsonRpcMessage :=
  error id (.new methodNotFoundCode s!"Method not found: {method}")

/-- A success reply. -/
def successResponse (id : RequestId) (result : Value) : JsonRpcMessage := success id result

/-- The reply to a text that is no message. -/
def parseErrorResponse : JsonRpcMessage := error .null (.new parseErrorCode "Parse error")

/-- `is_notification`. -/
def isNotification : JsonRpcMessage → Bool
  | notification _ _ => true
  | _ => false

/-- The messages of a batch, or the single message. -/
def flatten : JsonRpcMessage → List JsonRpcMessage
  | batch messages => messages
  | m => [m]

/-- The message that a batch stands for when only its first element is processed: the leftmost
element that is not itself a batch. -/
def leftmost : JsonRpcMessage → Option JsonRpcMessage
  | batch [] => none
  | batch (m :: _) => m.leftmost
  | m => some m

end JsonRpcMessage

end McpShield
