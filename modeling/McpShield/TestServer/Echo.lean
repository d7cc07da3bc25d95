import McpShield.Protocol.Message

/-!
# The echo test server

The tools that `main` registers for the built-in echo server, and the calls of them.
-/

namespace McpShield.EchoServer

/-- The annotations of a tool that changes nothing. -/
def readOnly (title : String) (idempotent : Bool) : ToolAnnotations :=
  { readOnlyHint := some true, destructiveHint := some false, idempotentHint := some idempotent,
    openWorldHint := some false, title := some title }

/-- The schema of one property. -/
def property (type description : String) : Value :=
  .object [("type", .string type), ("description", .string description)]

/-- The list of tools provided by the echo server. -/
def listTools : List Tool :=
  [{ name := "com.echo:echo"
     description := some "Echoes back the input message as text."
     inputSchema := .object [("type", .string "object"),
       ("properties", .object [("message", property "string" "The message to echo back")]),
       ("required", .array [.string "message"])]
     annotations := some (readOnly "Echo" true) },
    { name := "com.echo:add"
      description := some "Adds two integers and returns the sum."
      inputSchema := .object [("type", .string "object"),
        ("properties", .object [("a", property "integer" "First addend"),
          ("b", property "integer" "Second addend")]),
        ("required", .array [.string "a", .string "b"])]
      annotations := some (readOnly "Add" true) },
    { name := "com.echo:get_time"
      description := some "Returns the current server time in RFC 3339 format."
      inputSchema := .object [("type", .string "object"), ("properties", .emptyObject),
        ("additionalProperties", .bool false)]
      annotations := some (readOnly "Get Time" false) },
    { name := "com.echo:uppercase"
      description := some "Converts a string to uppercase."
      inputSchema := .object [("type", .string "object"),
        ("properties", .object [("text", property "string" "The text to convert")]),
        ("required", .array [.string "text"])]
      annotations := some (readOnly "Uppercase" true) }]

/-- A result with one text block. -/
def textContent (text : String) : Value :=
  .object [("content", .array [.object [("type", .string "text"), ("text", .string text)]])]

/-- An argument that has to be there and to be of a type. -/
def required {α : Type} (arguments : Value) (key : String) (read : Value → Option α) :
    Except String α :=
  match (arguments.get key).bind read with
  | some a => .ok a
  | none => .error s!"Missing required argument '{key}'"

/-- Handle a tool call.  The mapping to upper case is that of the Unicode tables of the standard
library. -/
def handleToolCall (toUppercase : String → String) (now : String) (name : String)
    (arguments : Value) : Except String Value :=
  if name = "com.echo:echo" then do
    let message ← required arguments "message" Value.asStr
    pure (textContent s!"Echo: {message}")
  else if name = "com.echo:add" then do
    -- the sum wraps around in a release build, which does not check for overflow
    let a : Int64 ← required arguments "a" Value.asI64
    let b : Int64 ← required arguments "b" Value.asI64
    let sum := a + b
    pure (textContent s!"{a.toInt} + {b.toInt} = {sum.toInt}")
  else if name = "com.echo:get_time" then pure (textContent now)
  else if name = "com.echo:uppercase" then do
    let text ← required arguments "text" Value.asStr
    pure (textContent (toUppercase text))
  else .error s!"Unknown tool: {name}"

end McpShield.EchoServer
