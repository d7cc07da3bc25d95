import McpShield.Gateway.Proxy
import McpShield.TestServer.Echo

/-!
# The two echo servers

The tools of the echo server are registered from the list of one module and called in another, which
knows one tool less and does not refuse arguments that it cannot read.  `echoesAgree_iff` says for
which tools and valid arguments the two modules agree.
-/

open Effect Effect.Prog

namespace McpShield

/-! ## Valid arguments -/

/-- The number has no fraction: an integer, or a float whose digits after the point, but for zeros
at their end, are no more than its exponent shifts away. -/
def Number.isIntegral : Number → Bool
  | posInt _ => true
  | negInt _ => true
  | float text =>
      let fraction := ((Str.after (Str.before text 'e') '.').getD "").toList.rdropWhile (· == '0')
      let exponent := ((Str.after text 'e').bind String.toInt?).getD 0
      fraction.length ≤ exponent

/-- The value is of a type of JSON Schema. -/
def Value.hasType (type : String) : Value → Bool
  | null => type == "null"
  | bool _ => type == "boolean"
  | number n => type == "number" || (type == "integer" && n.isIntegral)
  | string _ => type == "string"
  | array _ => type == "array"
  | object _ => type == "object"

/-- The value is valid under the keywords of the echo server's schemas. -/
inductive SchemaValid : Value → Value → Prop
  | intro {schema inst : Value}
      (type : ∀ type, schema.get "type" = some (.string type) → inst.hasType type = true)
      (required : ∀ names key, schema.get "required" = some (.array names) →
        .string key ∈ names → inst.isObject = true → (inst.get key).isSome = true)
      (properties : ∀ key sub v, (schema.get "properties").bind (·.get key) = some sub →
        inst.get key = some v → SchemaValid sub v)
      (closed : schema.get "additionalProperties" = some (.bool false) → ∀ key,
        (inst.get key).isSome = true → ((schema.get "properties").bind (·.get key)).isSome = true) :
      SchemaValid schema inst

/-! ## Agreement -/

/-- The message is a call of the tool with the arguments. -/
structure JsonRpcMessage.IsCallOf (message : JsonRpcMessage) (name : String) (arguments : Value) :
    Prop where
  method : message.method = some methodToolsCall
  params : ∃ params, message.params = some params ∧ params.get "name" = some (.string name) ∧
    params.get "arguments" = some arguments

/-- What one server answers with a result, the other answers with a success that has it, and what
one refuses, the other refuses. -/
structure EchoesAgree (toUppercase : String → String) (now : String) (message : JsonRpcMessage)
    (name : String) (arguments : Value) : Prop where
  result : ∀ v, EchoServer.handleToolCall toUppercase now name arguments = .ok v →
    (UpstreamProxy.forwardToEcho message).run = done (.ok (.success (message.id.getD .null) v))
  failure : ∀ text, EchoServer.handleToolCall toUppercase now name arguments = .error text →
    ∃ e, (UpstreamProxy.forwardToEcho message).run = done (.error e)

section Calls

variable {message : JsonRpcMessage} {name now : String} {arguments : Value}
  {toUppercase : String → String}

/-! ## The server that is called -/

theorem forwardToEcho_call (h : message.IsCallOf name arguments) :
    ∃ params, params.get "name" = some (.string name) ∧ params.get "arguments" = some arguments ∧
      UpstreamProxy.forwardToEcho message = (do
        let result ← echoCall params
        pure (.successResponse (message.id.getD .null) result)) := by
  obtain ⟨hmethod, params, hparams, hname, harguments⟩ := h
  refine ⟨params, hname, harguments, ?_⟩
  rw [UpstreamProxy.forwardToEcho, hmethod, hparams]
  rfl

theorem run_echo (h : message.IsCallOf "com.echo:echo" arguments) :
    (UpstreamProxy.forwardToEcho message).run = done (.ok (.success (message.id.getD .null)
      (let msg := ((arguments.get "message").bind Value.asStr).getD "no message"
       textResult s!"Echo: {msg}"))) := by
  obtain ⟨params, hname, harguments, hrun⟩ := forwardToEcho_call h
  rw [hrun, echoCall, hname, harguments]
  rfl

theorem run_add (h : message.IsCallOf "com.echo:add" arguments) :
    (UpstreamProxy.forwardToEcho message).run = done (.ok (.success (message.id.getD .null)
      (let a : Int64 := ((arguments.get "a").bind Value.asI64).getD 0
       let b : Int64 := ((arguments.get "b").bind Value.asI64).getD 0
       textResult s!"{a.toInt} + {b.toInt} = {(a + b).toInt}"))) := by
  obtain ⟨params, hname, harguments, hrun⟩ := forwardToEcho_call h
  rw [hrun, echoCall, hname, harguments]
  rfl

theorem run_uppercase (h : message.IsCallOf "com.echo:uppercase" arguments) :
    (UpstreamProxy.forwardToEcho message).run =
      done (.error (.methodNotFound "Echo server: unknown tool 'com.echo:uppercase'")) := by
  obtain ⟨params, hname, harguments, hrun⟩ := forwardToEcho_call h
  rw [hrun, echoCall, hname, harguments]
  rfl

/-! ## Where they agree -/

theorem echoesAgree_echo {text : String} (h : message.IsCallOf "com.echo:echo" arguments)
    (htext : arguments.get "message" = some (.string text)) :
    EchoesAgree toUppercase now message "com.echo:echo" arguments := by
  have hhandle : EchoServer.handleToolCall toUppercase now "com.echo:echo" arguments =
      .ok (EchoServer.textContent s!"Echo: {text}") := by
    rw [EchoServer.handleToolCall, if_pos rfl, EchoServer.required, htext]
    rfl
  refine ⟨fun v hv => ?_, fun e he => ?_⟩
  · rw [← Except.ok.inj (hhandle.symm.trans hv), run_echo h, htext]
    rfl
  · cases hhandle.symm.trans he

/-- Arguments that are no integers within the range of an `i64` count as zero in one server and are
refused by the other. -/
theorem echoesAgree_add_iff (h : message.IsCallOf "com.echo:add" arguments) :
    EchoesAgree toUppercase now message "com.echo:add" arguments ↔
      ∀ key ∈ ["a", "b"], ((arguments.get key).bind Value.asI64).isSome = true := by
  have hrun := run_add h
  have hhandle : EchoServer.handleToolCall toUppercase now "com.echo:add" arguments = (do
      let a : Int64 ← EchoServer.required arguments "a" Value.asI64
      let b : Int64 ← EchoServer.required arguments "b" Value.asI64
      pure (EchoServer.textContent s!"{a.toInt} + {b.toInt} = {(a + b).toInt}")) := rfl
  have hrefuse : ∀ text, EchoServer.handleToolCall toUppercase now "com.echo:add" arguments =
      .error text → ¬ EchoesAgree toUppercase now message "com.echo:add" arguments := by
    intro text htext hagree
    obtain ⟨e, he⟩ := hagree.failure text htext
    cases hrun.symm.trans he
  simp only [List.forall_mem_cons, List.not_mem_nil, false_implies, implies_true, and_true]
  unfold EchoServer.required at hhandle
  cases ha : (arguments.get "a").bind Value.asI64 with
  | none =>
    rw [ha] at hhandle
    simp only [Option.isSome_none, Bool.false_eq_true, false_and, iff_false]
    exact hrefuse _ hhandle
  | some a =>
    cases hb : (arguments.get "b").bind Value.asI64 with
    | none =>
      rw [ha, hb] at hhandle
      simp only [Option.isSome_none, Bool.false_eq_true, and_false, iff_false]
      exact hrefuse _ hhandle
    | some b =>
      rw [ha, hb] at hhandle hrun
      refine iff_of_true ⟨fun v hv => ?_, fun e he => ?_⟩ ⟨rfl, rfl⟩
      · rw [← Except.ok.inj (hhandle.symm.trans hv)]
        exact hrun
      · cases hhandle.symm.trans he

/-- The tool is not known to the server that is called. -/
theorem not_echoesAgree_uppercase {text : String}
    (h : message.IsCallOf "com.echo:uppercase" arguments)
    (htext : arguments.get "text" = some (.string text)) :
    ¬ EchoesAgree toUppercase now message "com.echo:uppercase" arguments := by
  intro hagree
  have hhandle : EchoServer.handleToolCall toUppercase now "com.echo:uppercase" arguments =
      .ok (EchoServer.textContent (toUppercase text)) := by
    rw [EchoServer.handleToolCall, if_neg (by decide), if_neg (by decide), if_neg (by decide),
      if_pos rfl, EchoServer.required, htext]
    rfl
  cases (run_uppercase h).symm.trans (hagree.result _ hhandle)

/-! ## All tools -/

/-- A required property of type `string` is a string of a valid object. -/
theorem SchemaValid.exists_string {schema inst sub : Value} {names : List Value} {key : String}
    (h : SchemaValid schema inst) (hobject : schema.get "type" = some (.string "object"))
    (hnames : schema.get "required" = some (.array names)) (hkey : .string key ∈ names)
    (hsub : (schema.get "properties").bind (·.get key) = some sub)
    (hstring : sub.get "type" = some (.string "string")) :
    ∃ text, inst.get key = some (.string text) := by
  obtain ⟨htype, hrequired, hproperties, -⟩ := h
  have hisObject : inst.isObject = true := by
    have htyped := htype "object" hobject
    cases inst with
    | object fields => rfl
    | number n => cases n <;> cases htyped
    | _ => cases htyped
  obtain ⟨v, hv⟩ := Option.isSome_iff_exists.mp (hrequired names key hnames hkey hisObject)
  obtain ⟨hsubtype, -⟩ := hproperties key sub v hsub hv
  have htyped := hsubtype "string" hstring
  cases v with
  | string text => exact ⟨text, hv⟩
  | number n => cases n <;> cases htyped
  | _ => cases htyped

/-- On valid arguments of a tool other than the clock, the two servers agree exactly when the tool
is not `uppercase` and, for `add`, both numbers are integers within the range of an `i64`. -/
theorem echoesAgree_iff {tool : Tool} (htool : tool ∈ EchoServer.listTools)
    (hclock : tool.name ≠ "com.echo:get_time") (hvalid : SchemaValid tool.inputSchema arguments)
    (h : message.IsCallOf tool.name arguments) :
    EchoesAgree toUppercase now message tool.name arguments ↔
      tool.name ≠ "com.echo:uppercase" ∧ (tool.name = "com.echo:add" →
        ∀ key ∈ ["a", "b"], ((arguments.get key).bind Value.asI64).isSome = true) := by
  simp only [EchoServer.listTools, List.mem_cons, List.not_mem_nil, or_false] at htool
  rcases htool with rfl | rfl | rfl | rfl
  · obtain ⟨text, htext⟩ := hvalid.exists_string rfl rfl List.mem_cons_self rfl rfl
    exact iff_of_true (echoesAgree_echo h htext) ⟨by decide, fun hadd => absurd hadd (by decide)⟩
  · rw [echoesAgree_add_iff h]
    exact ⟨fun hfits => ⟨by decide, fun _ => hfits⟩, fun hfits => hfits.2 rfl⟩
  · exact absurd rfl hclock
  · obtain ⟨text, htext⟩ := hvalid.exists_string rfl rfl List.mem_cons_self rfl rfl
    exact iff_of_false (not_echoesAgree_uppercase h htext) fun hno => hno.1 rfl

end Calls

/-! ## Calls -/

/-- A request that calls a tool. -/
def toolRequest (name : String) (arguments : Value) : JsonRpcMessage :=
  .request (.integer 1) methodToolsCall
    (some (.object [("name", .string name), ("arguments", arguments)]))

theorem isCallOf_toolRequest (name : String) (arguments : Value) :
    (toolRequest name arguments).IsCallOf name arguments :=
  ⟨rfl, _, rfl, rfl, rfl⟩

theorem schemaValid_property {type description : String} {v : Value} (h : v.hasType type = true) :
    SchemaValid (EchoServer.property type description) v := by
  refine ⟨fun type' htype => ?_, fun _ _ hnames => ?_, fun _ _ _ hsub => ?_, fun hclosed => ?_⟩
  · obtain rfl : type = type' := Value.string.inj (Option.some.inj htype)
    exact h
  · cases hnames
  · cases hsub
  · cases hclosed

/-- An object is valid if it has the required members and those with a schema are valid. -/
theorem schemaValid_object {properties fields : List (String × Value)} {names : List Value}
    (hrequired : ∀ key, .string key ∈ names → (Value.findField key fields).isSome = true)
    (hproperties : ∀ key sub v, Value.findField key properties = some sub →
      Value.findField key fields = some v → SchemaValid sub v) :
    SchemaValid (.object [("type", .string "object"), ("properties", .object properties),
      ("required", .array names)]) (.object fields) := by
  refine ⟨fun type htype => ?_, fun names' key hnames hkey _ => ?_, hproperties, fun hclosed => ?_⟩
  · obtain rfl : "object" = type := Value.string.inj (Option.some.inj htype)
    rfl
  · obtain rfl : names = names' := Value.array.inj (Option.some.inj hnames)
    exact hrequired key hkey
  · cases hclosed

/-- The tool that adds. -/
def addTool : Tool := EchoServer.listTools[1]

/-- The tool that only one server knows. -/
def uppercaseTool : Tool := EchoServer.listTools[3]

/-- The arguments of a sum. -/
def addends (a b : Number) : Value := .object [("a", .number a), ("b", .number b)]

theorem schemaValid_addends {a b : Number} (ha : a.isIntegral = true) (hb : b.isIntegral = true) :
    SchemaValid addTool.inputSchema (addends a b) := by
  have hinteger : ∀ {n : Number}, n.isIntegral = true →
      (Value.number n).hasType "integer" = true := fun hn => by
    rw [Value.hasType, hn]
    rfl
  refine schemaValid_object (fun key hkey => ?_) fun key sub v hsub hv => ?_
  · simp only [List.mem_cons, Value.string.injEq, List.not_mem_nil, or_false] at hkey
    rcases hkey with rfl | rfl <;> rfl
  · simp only [Value.findField] at hsub hv
    split_ifs at hsub hv
    · cases hsub
      cases hv
      exact schemaValid_property (hinteger ha)
    · cases hsub
      cases hv
      exact schemaValid_property (hinteger hb)

theorem schemaValid_words (text : String) :
    SchemaValid uppercaseTool.inputSchema (.object [("text", .string text)]) := by
  refine schemaValid_object (fun key hkey => ?_) fun key sub v hsub hv => ?_
  · simp only [List.mem_cons, Value.string.injEq, List.not_mem_nil, or_false] at hkey
    rw [hkey]
    rfl
  · simp only [Value.findField] at hsub hv
    split_ifs at hsub hv
    cases hsub
    cases hv
    exact schemaValid_property rfl

theorem echoesAgree_iff_sum :
    EchoesAgree String.toUpper "" (toolRequest addTool.name (addends (.posInt 5) (.posInt 3)))
        addTool.name (addends (.posInt 5) (.posInt 3)) ↔
      addTool.name ≠ "com.echo:uppercase" ∧ (addTool.name = "com.echo:add" → ∀ key ∈ ["a", "b"],
        (((addends (.posInt 5) (.posInt 3)).get key).bind Value.asI64).isSome = true) :=
  echoesAgree_iff (List.getElem_mem _) (by decide) (schemaValid_addends rfl rfl)
    (isCallOf_toolRequest _ _)

/-- The tool `uppercase` is listed and not known, and an addend beyond an `i64` counts as zero. -/
theorem uppercase_and_large_not_agree :
    (SchemaValid uppercaseTool.inputSchema (.object [("text", .string "hello world")]) ∧
      ¬ EchoesAgree String.toUpper ""
        (toolRequest uppercaseTool.name (.object [("text", .string "hello world")])) uppercaseTool.name
        (.object [("text", .string "hello world")])) ∧
      SchemaValid addTool.inputSchema (addends (.posInt 9223372036854775808) (.posInt 1)) ∧
        ¬ EchoesAgree String.toUpper ""
          (toolRequest addTool.name (addends (.posInt 9223372036854775808) (.posInt 1))) addTool.name
          (addends (.posInt 9223372036854775808) (.posInt 1)) := by
  refine ⟨⟨schemaValid_words _, not_echoesAgree_uppercase (isCallOf_toolRequest _ _) rfl⟩,
    schemaValid_addends rfl rfl, fun h => ?_⟩
  have hfits := (echoesAgree_add_iff (isCallOf_toolRequest _ _)).mp h "a" List.mem_cons_self
  exact absurd hfits (by decide)

end McpShield
