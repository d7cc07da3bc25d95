import McpShield.Protocol.Json

/-!
# MCP methods and tools
-/

namespace McpShield

def mcpProtocolVersion : String := "2025-03-26"

def methodInitialize : String := "initialize"
def methodInitialized : String := "notifications/initialized"
def methodPing : String := "ping"
def methodToolsList : String := "tools/list"
def methodToolsCall : String := "tools/call"
def methodResourcesList : String := "resources/list"
def methodResourcesRead : String := "resources/read"
def methodPromptsList : String := "prompts/list"
def methodPromptsGet : String := "prompts/get"
def methodLogging : String := "notifications/message"
def methodProgress : String := "notifications/progress"
def methodToolsListChanged : String := "notifications/tools/list_changed"
def methodResourcesListChanged : String := "notifications/resources/list_changed"
def methodPromptsListChanged : String := "notifications/prompts/list_changed"
def methodCompletionComplete : String := "completion/complete"
def methodSamplingCreate : String := "sampling/createMessage"
def methodShutdown : String := "shutdown"
def methodExited : String := "notifications/exited"

/-- All valid MCP methods. -/
def validMethods : List String :=
  [methodInitialize, methodInitialized, methodPing, methodToolsList, methodToolsCall,
    methodResourcesList, methodResourcesRead, methodPromptsList, methodPromptsGet, methodLogging,
    methodProgress, methodToolsListChanged, methodResourcesListChanged, methodPromptsListChanged,
    methodCompletionComplete, methodSamplingCreate, methodShutdown, methodExited]

/-- Whether a method is a known MCP method. -/
def isValidMethod (method : String) : Bool := validMethods.contains method

/-- Hints about a tool's behaviour. -/
structure ToolAnnotations where
  readOnlyHint : Option Bool
  destructiveHint : Option Bool
  idempotentHint : Option Bool
  openWorldHint : Option Bool
  title : Option String

/-- A tool definition. -/
structure Tool where
  name : String
  description : Option String
  inputSchema : Value
  annotations : Option ToolAnnotations

/-- A member that is left out when its value is `None`. -/
def optionalField (key : String) (v : Option Value) : List (String × Value) :=
  (v.map fun v => (key, v)).toList

def ToolAnnotations.toValue (a : ToolAnnotations) : Value :=
  .object (optionalField "readOnlyHint" (a.readOnlyHint.map .bool) ++
    optionalField "destructiveHint" (a.destructiveHint.map .bool) ++
    optionalField "idempotentHint" (a.idempotentHint.map .bool) ++
    optionalField "openWorldHint" (a.openWorldHint.map .bool) ++
    optionalField "title" (a.title.map .string))

def Tool.toValue (t : Tool) : Value :=
  .object ([("name", .string t.name)] ++ optionalField "description" (t.description.map .string) ++
    [("inputSchema", t.inputSchema)] ++
    optionalField "annotations" (t.annotations.map ToolAnnotations.toValue))

/-- `chrono::DateTime<Utc>`, in nanoseconds since the epoch. -/
abbrev DateTime : Type := ℤ

/-- What the `initialize` handler reads of its parameters. -/
structure InitializeParams where
  protocolVersion : String

end McpShield
