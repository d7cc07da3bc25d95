import McpShield.Error
import McpShield.Lib.Machine
import McpShield.Lib.Memo

/-!
# Schema validation

Tool arguments are validated against the tool's input schema by compiled validators, which are kept
in a cache.  The cache key is the serialized schema, cut after 1024 bytes, so two schemas may have
the same key: `validate_eq_validateOnce` says when the cache is transparent all the same.
-/

namespace McpShield

def supportedDialects : List String :=
  ["https://json-schema.org/draft/2020-12/schema", "http://json-schema.org/draft/2020-12/schema"]

/-- The `jsonschema` crate: compiling a schema, and validating an instance.  A compilation error is
its text; a validation error is an instance path and a text. -/
structure JsonSchema where
  Validator : Type
  validatorFor : Value → Except String Validator
  validate : Validator → Value → Except (List (String × String)) Unit

/-- An instance is valid under a schema. -/
def JsonSchema.IsInstance (J : JsonSchema) (schema inst : Value) : Prop :=
  ∃ v, J.validatorFor schema = .ok v ∧ J.validate v inst = .ok ()

/-- The cache of compiled validators. -/
structure SchemaValidator (J : JsonSchema) where
  cache : Memo.Table String J.Validator

namespace SchemaValidator

variable {J : JsonSchema}

/-- A validator with an empty cache. -/
def new : SchemaValidator J := { cache := ∅ }

/-- Check the `$schema` declaration. -/
def checkDialect (schema : Value) : Except McpError Unit :=
  match (schema.get "$schema").bind Value.asStr with
  | none => .ok ()
  | some dialect =>
      if dialect ∈ supportedDialects ∨ dialect = "" then .ok ()
      else .error (.schemaInvalid
        s!"Unsupported JSON Schema dialect: \"{dialect}\". MCP-Shield supports JSON Schema 2020-12 (draft/2020-12). Attempting best-effort validation.")

/-- Compile a schema. -/
def compileSchema (J : JsonSchema) (schema : Value) : Except McpError J.Validator :=
  (J.validatorFor schema).mapError fun e => .schemaInvalid s!"Failed to compile schema: {e}"

/-- The cache key of a schema; `none` is the panic of a cut inside a character. -/
def schemaKey (schema : Value) : Option String :=
  let json := schema.toJsonString
  if Str.len json > 1024 then (Str.sliceTo json 1024).map fun start => s!"schema:{start}"
  else some s!"schema:{json}"

/-- One validation error as text. -/
def errorDetail (e : String × String) : String := if e.1 = "" then e.2 else s!"{e.1}: {e.2}"

/-- Validate an instance with a compiled validator. -/
def validateWith (v : J.Validator) (inst : Value) : Except McpError Unit :=
  (J.validate v inst).mapError fun errors =>
    let details := "; ".intercalate (errors.map errorDetail)
    .invalidParams s!"Schema validation failed: {details}"

/-- Validate an instance against a schema; no answer is a panic. -/
def validate (sv : SchemaValidator J) (schema inst : Value) :
    Option (Except McpError Unit) × SchemaValidator J :=
  match checkDialect schema with
  | .error e => (some (.error e), sv)
  | .ok () =>
      match schemaKey schema with
      | none => (none, sv)
      | some key =>
          let (validator, cache) := Memo.fetch (compileSchema J) sv.cache key schema
          (some (validator.bind fun v => validateWith v inst), { cache })

/-- Compile a schema into the cache; no answer is a panic. -/
def precompile (sv : SchemaValidator J) (schema : Value) :
    Option (Except McpError Unit) × SchemaValidator J :=
  match schemaKey schema with
  | none => (none, sv)
  | some key =>
      let (validator, cache) := Memo.fetch (compileSchema J) sv.cache key schema
      (some (validator.map fun _ => ()), { cache })

/-- Empty the cache. -/
def clearCache (_ : SchemaValidator J) : SchemaValidator J := { cache := ∅ }

/-- Validation with a cache of its own. -/
def validateOnce (J : JsonSchema) (schema inst : Value) : Option (Except McpError Unit) :=
  ((new : SchemaValidator J).validate schema inst).1

end SchemaValidator

/-- The calls on a validator. -/
inductive ValidatorOp where
  | validate (schema inst : Value)
  | precompile (schema : Value)
  | clearCache

/-- The validator as a machine; the answer of `clearCache` is a success. -/
def validatorMachine (J : JsonSchema) :
    Machine (SchemaValidator J) ValidatorOp (Option (Except McpError Unit)) where
  step sv
    | .validate schema inst => sv.validate schema inst
    | .precompile schema => sv.precompile schema
    | .clearCache => (some (.ok ()), sv.clearCache)

namespace SchemaValidator

variable {J : JsonSchema}

/-! ## What a validation answers -/

theorem isInstance_iff {schema inst : Value} :
    J.IsInstance schema inst ↔
      ((compileSchema J schema).bind fun v => validateWith v inst) = .ok () := by
  unfold JsonSchema.IsInstance compileSchema validateWith
  cases hc : J.validatorFor schema with
  | error e => simp [Except.bind, Except.mapError]
  | ok v => cases hv : J.validate v inst <;> simp [Except.bind, Except.mapError, hv]

/-- The answer of a validation, with what the table gives for the schema. -/
theorem validate_answer (sv : SchemaValidator J) {schema : Value} (inst : Value)
    (hd : checkDialect schema = .ok ()) {key : String} (hk : schemaKey schema = some key) :
    (sv.validate schema inst).1 =
      some ((Memo.fetch (compileSchema J) sv.cache key schema).1.bind
        fun v => validateWith v inst) := by
  simp [validate, hd, hk]

theorem fetch_new (key : String) (schema : Value) :
    (Memo.fetch (compileSchema J) (new : SchemaValidator J).cache key schema).1 =
      compileSchema J schema := by
  have hsound : Memo.Sound schemaKey (compileSchema J) [] (new : SchemaValidator J).cache :=
    Memo.Sound.empty
  exact hsound.fetch_eq (by simp)

/-- If the table gives the compiled schema, the validation answers as one without a cache. -/
theorem validate_eq_of_fetch {sv : SchemaValidator J} {schema : Value} (inst : Value)
    (h : ∀ key, schemaKey schema = some key →
      (Memo.fetch (compileSchema J) sv.cache key schema).1 = compileSchema J schema) :
    (sv.validate schema inst).1 = validateOnce J schema inst := by
  unfold validateOnce
  cases hd : checkDialect schema with
  | error e => simp [validate, hd]
  | ok _ =>
    cases hk : schemaKey schema with
    | none => simp [validate, hd, hk]
    | some key =>
      rw [validate_answer sv inst hd hk, validate_answer new inst hd hk, h key hk,
        fetch_new key schema]

/-- A validation without a cache that succeeds has found a valid instance. -/
theorem isInstance_of_validateOnce {schema inst : Value}
    (h : validateOnce J schema inst = some (.ok ())) : J.IsInstance schema inst := by
  unfold validateOnce at h
  cases hd : checkDialect schema with
  | error e => simp [validate, hd] at h
  | ok _ =>
    cases hk : schemaKey schema with
    | none => simp [validate, hd, hk] at h
    | some key =>
      rw [validate_answer new inst hd hk, fetch_new key schema] at h
      exact isInstance_iff.mpr (Option.some.inj h)

/-! ## Runs -/

/-- The schemas used since the cache was last cleared, the last one first. -/
def liveSchemas : List ValidatorOp → List Value :=
  List.foldl (fun used op =>
    match op with
    | .validate schema _ => schema :: used
    | .precompile schema => schema :: used
    | .clearCache => []) []

theorem liveSchemas_append (ops : List ValidatorOp) (op : ValidatorOp) :
    liveSchemas (ops ++ [op]) =
      match op with
      | .validate schema _ => schema :: liveSchemas ops
      | .precompile schema => schema :: liveSchemas ops
      | .clearCache => [] := by
  rw [liveSchemas, List.foldl_append]
  rfl

/-- No other schema used since the cache was last cleared has the cache key of `schema`. -/
def KeyUnshared (ops : List ValidatorOp) (schema : Value) : Prop :=
  ∀ other ∈ liveSchemas ops, ∀ key, schemaKey other = some key → schemaKey schema = some key →
    other = schema

/-- The cache holds compiled schemas out of `used`. -/
abbrev CacheSound (used : List Value) (sv : SchemaValidator J) : Prop :=
  Memo.Sound schemaKey (compileSchema J) used sv.cache

theorem CacheSound.validate {used : List Value} {sv : SchemaValidator J} (h : CacheSound used sv)
    (schema inst : Value) : CacheSound (schema :: used) (sv.validate schema inst).2 := by
  have hold : CacheSound (schema :: used) sv := h.mono (List.subset_cons_self schema used)
  unfold SchemaValidator.validate
  cases hd : checkDialect schema with
  | error e => exact hold
  | ok _ =>
    cases hk : schemaKey schema with
    | none => exact hold
    | some key => exact Memo.Sound.fetch h hk

theorem CacheSound.precompile {used : List Value} {sv : SchemaValidator J}
    (h : CacheSound used sv) (schema : Value) :
    CacheSound (schema :: used) (sv.precompile schema).2 := by
  unfold SchemaValidator.precompile
  cases hk : schemaKey schema with
  | none => exact h.mono (List.subset_cons_self schema used)
  | some key => exact Memo.Sound.fetch h hk

/-- After every run, the cache holds compiled schemas of those used since it was last cleared. -/
theorem cacheSound_run (ops : List ValidatorOp) :
    CacheSound (liveSchemas ops) ((validatorMachine J).run new ops) := by
  induction ops using List.reverseRecOn with
  | nil => exact Memo.Sound.empty
  | append_singleton ops op ih =>
    rw [Machine.run_append, liveSchemas_append]
    cases op with
    | validate schema inst => exact ih.validate schema inst
    | precompile schema => exact ih.precompile schema
    | clearCache => exact Memo.Sound.empty

/-- After a run, a schema whose key is not shared is validated as without a cache. -/
theorem validate_run_eq {ops : List ValidatorOp} {schema : Value} (h : KeyUnshared ops schema)
    (inst : Value) :
    (((validatorMachine J).run new ops).validate schema inst).1 = validateOnce J schema inst :=
  validate_eq_of_fetch inst fun key hk =>
    (cacheSound_run ops).fetch_eq fun other hother hkey => h other hother key hkey hk

/-! ## Transparency of the cache -/

/-- The keyword `type` alone, for objects and strings. -/
def typeKeyword : JsonSchema where
  Validator := Value
  validatorFor schema := .ok schema
  validate schema inst :=
    match (schema.get "type").bind Value.asStr with
    | some "object" =>
        if inst.isObject then .ok ()
        else .error [("", s!"{inst.toJsonString} is not of type \"object\"")]
    | some "string" =>
        if inst.asStr.isSome then .ok ()
        else .error [("", s!"{inst.toJsonString} is not of type \"string\"")]
    | _ => .ok ()

/-- A schema with a description before its `type`. -/
def describedSchema (description type : String) : Value :=
  .object [("description", .string description), ("type", .string type)]

/-- In a run in which no validated schema shares its key, every validation answers as one without a
cache. -/
theorem validate_eq_validateOnce (J : JsonSchema) {ops : List ValidatorOp}
    (hops : ∀ pre schema inst post, ops = pre ++ .validate schema inst :: post →
      KeyUnshared pre schema) {pre : List ValidatorOp} {schema inst : Value}
    {post : List ValidatorOp} (hsplit : ops = pre ++ .validate schema inst :: post) :
    ((validatorMachine J).answers new ops)[pre.length]? = some (validateOnce J schema inst) := by
  have hkey := hops pre schema inst post hsplit
  rw [hsplit, Machine.answers_getElem?]
  exact congrArg some (validate_run_eq hkey inst)

/-- Two schemas with different keys, validated one after the other. -/
theorem validate_eq_validateOnce_short :
    ((validatorMachine typeKeyword).answers new
        [.validate (describedSchema "a" "object") .emptyObject,
          .validate (describedSchema "a" "string") .emptyObject])[1]? =
      some (validateOnce typeKeyword (describedSchema "a" "string") .emptyObject) := by
  have hkeys : schemaKey (describedSchema "a" "object") ≠
      schemaKey (describedSchema "a" "string") := by decide
  have hlast : [ValidatorOp.validate (describedSchema "a" "object") .emptyObject,
      .validate (describedSchema "a" "string") .emptyObject] =
        [.validate (describedSchema "a" "object") .emptyObject] ++
          .validate (describedSchema "a" "string") .emptyObject :: [] := rfl
  refine validate_eq_validateOnce typeKeyword
    (fun pre schema inst post hsplit other hother key hk hk' => ?_) hlast
  match pre, hsplit with
  | [], _ => simp [liveSchemas] at hother
  | [_], hsplit =>
    simp only [List.cons_append, List.nil_append, List.cons.injEq,
      ValidatorOp.validate.injEq] at hsplit
    obtain ⟨rfl, ⟨rfl, -⟩, -⟩ := hsplit
    obtain rfl : other = describedSchema "a" "object" := by simpa [liveSchemas] using hother
    exact absurd (hk.trans hk'.symm) hkeys
  | _ :: _ :: _, hsplit => simp at hsplit

/-! ## Two schemas with one key -/

/-- What the serialization of such a schema begins with, for a description without escapes. -/
def describedStart (description : String) : List Char :=
  '\x7b' :: (Value.quote "description" ++ ':' :: '"' :: description.toList)

theorem toJsonString_describedSchema {description : String}
    (h : ∀ c ∈ description.toList, Value.escapeChar c = [c]) (type : String) :
    ∃ rest, (describedSchema description type).toJsonString =
      String.ofList (describedStart description ++ rest) := by
  have hquote : Value.quote description = '"' :: (description.toList ++ ['"']) := by
    rw [Value.quote, List.flatMap_congr h, List.flatMap_singleton']
  refine ⟨['"'] ++ ',' :: Value.fieldsChars [("type", .string type)], ?_⟩
  simp [describedSchema, Value.toJsonString, Value.toChars, Value.fieldsChars, hquote,
    describedStart]

/-- With a long description, the key does not depend on the type. -/
theorem schemaKey_describedSchema {description : String}
    (h : ∀ c ∈ description.toList, Value.escapeChar c = [c] ∧ c.utf8Size = 1)
    (hlen : 1024 ≤ description.toList.length) (type : String) :
    schemaKey (describedSchema description type) =
      some s!"schema:{String.ofList ((describedStart description).take 1024)}" := by
  obtain ⟨rest, hrest⟩ := toJsonString_describedSchema (fun c hc => (h c hc).1) type
  have hlength : 1024 < (describedStart description).length := by
    simp only [describedStart, List.length_cons, List.length_append]
    omega
  have hquote : (Value.quote "description").all (fun c => c.utf8Size = 1) = true := by decide
  have hascii : ∀ c ∈ describedStart description, c.utf8Size = 1 := by
    intro c hc
    simp only [describedStart, List.mem_cons, List.mem_append] at hc
    rcases hc with rfl | hc | rfl | rfl | hc
    · decide
    · exact of_decide_eq_true (List.all_eq_true.mp hquote c hc)
    · decide
    · decide
    · exact (h c hc).2
  have hlong : Str.len (String.ofList (describedStart description ++ rest)) > 1024 := by
    refine lt_of_lt_of_le ?_ (Str.length_le_len _)
    rw [String.toList_ofList, List.length_append]
    omega
  rw [schemaKey, hrest, if_pos hlong, Str.sliceTo_of_ascii_append hascii (by omega)]
  rfl

/-- An object is valid under the second of two schemas with one key, whose type is string. -/
theorem validate_describedSchema {description : String}
    (h : ∀ c ∈ description.toList, Value.escapeChar c = [c] ∧ c.utf8Size = 1)
    (hlen : 1024 ≤ description.toList.length) :
    ((validatorMachine typeKeyword).answers new
        [.validate (describedSchema description "object") .emptyObject,
          .validate (describedSchema description "string") .emptyObject])[1]? =
      some (some (.ok ())) := by
  have hobject := schemaKey_describedSchema h hlen "object"
  have hstring := schemaKey_describedSchema h hlen "string"
  generalize s!"schema:{String.ofList ((describedStart description).take 1024)}" = key
    at hobject hstring
  have hfirst : Memo.fetch (compileSchema typeKeyword) (new : SchemaValidator typeKeyword).cache key
      (describedSchema description "object") =
        (.ok (describedSchema description "object"),
          AList.insert key (describedSchema description "object") ∅) :=
    Memo.fetch_of_computed (AList.lookup_empty key) rfl
  have hsecond : Memo.fetch (compileSchema typeKeyword)
      (AList.insert key (describedSchema description "object") ∅) key
      (describedSchema description "string") =
        (.ok (describedSchema description "object"),
          AList.insert key (describedSchema description "object") ∅) :=
    Memo.fetch_of_lookup (AList.lookup_insert ∅)
  have hd : ∀ type, checkDialect (describedSchema description type) = .ok () := fun type => rfl
  simp only [validatorMachine, Machine.answers_cons, validate, hd, hobject, hstring, hfirst,
    hsecond]
  rfl

theorem validateOnce_describedSchema (description : String) :
    validateOnce typeKeyword (describedSchema description "string") .emptyObject ≠
      some (.ok ()) := by
  intro hvalid
  obtain ⟨v, hv, hok⟩ := isInstance_of_validateOnce hvalid
  obtain rfl := Except.ok.inj hv
  simp [typeKeyword, describedSchema, Value.get, Value.findField, Value.asStr,
    Value.emptyObject] at hok

theorem validate_ne_validateOnce :
    ((validatorMachine typeKeyword).answers new
        [.validate (describedSchema (String.ofList (List.replicate 1024 'a')) "object")
            .emptyObject,
          .validate (describedSchema (String.ofList (List.replicate 1024 'a')) "string")
            .emptyObject])[1]? ≠
      some (validateOnce typeKeyword
        (describedSchema (String.ofList (List.replicate 1024 'a')) "string") .emptyObject) := by
  have hplain : ∀ c ∈ (String.ofList (List.replicate 1024 'a')).toList,
      Value.escapeChar c = [c] ∧ c.utf8Size = 1 := by
    intro c hc
    rw [String.toList_ofList] at hc
    rw [List.eq_of_mem_replicate hc]
    decide
  have hlen : 1024 ≤ (String.ofList (List.replicate 1024 'a')).toList.length := by
    rw [String.toList_ofList, List.length_replicate]
  rw [validate_describedSchema hplain hlen]
  exact fun h => validateOnce_describedSchema _ (Option.some.inj h).symm

end SchemaValidator

end McpShield
