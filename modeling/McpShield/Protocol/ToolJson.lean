import McpShield.Protocol.Params

/-!
# Tools as JSON

What a list of tools is written as, and what it is read back as.
-/

namespace McpShield

open Serde

/-! ## Records -/

namespace Serde

/-- The members of a record, without those that are left out. -/
def record (fields : List (String × Option Value)) : List (String × Value) :=
  fields.flatMap fun field => optionalField field.1 field.2

theorem findField_record_of_not_mem {key : String} {fields : List (String × Option Value)}
    (h : key ∉ fields.map Prod.fst) : Value.findField key (record fields) = none := by
  induction fields with
  | nil => rfl
  | cons field fields ih =>
    simp only [List.map_cons, List.mem_cons, not_or] at h
    rw [record, List.flatMap_cons, findField_optionalField_append (Ne.symm h.1)]
    exact ih h.2

theorem findField_record_cons_self {key : String} {v : Option Value}
    {fields : List (String × Option Value)} (h : key ∉ fields.map Prod.fst) :
    Value.findField key (record ((key, v) :: fields)) = v := by
  have hrest := findField_record_of_not_mem h
  cases v with
  | none => simpa [record, optionalField] using hrest
  | some v => simp [record, optionalField, Value.findField]

/-- A record of differently named fields is read as it has been written. -/
theorem members_record {fields : List (String × Option Value)}
    (h : (fields.map Prod.fst).Nodup) :
    members (fields.map Prod.fst) (.object (record fields)) = some (fields.map Prod.snd) := by
  rw [members, Option.some.injEq]
  induction fields with
  | nil => rfl
  | cons field fields ih =>
    obtain ⟨hnew, hrest⟩ := List.nodup_cons.mp h
    rw [List.map_cons, List.map_cons, List.map_cons, findField_record_cons_self hnew]
    refine congrArg _ (Eq.trans (List.map_congr_left fun key hkey => ?_) (ih hrest))
    have hne : field.1 ≠ key := fun heq => hnew (heq ▸ hkey)
    exact findField_optionalField_append hne

/-- An optional field is read as it has been written, if nothing is written as null. -/
theorem optional_map {α : Type} {read : Value → Option α} {write : α → Value}
    (hread : ∀ a, read (write a) = some a) (hnull : ∀ a, write a ≠ .null) (o : Option α) :
    optional read (o.map write) = some o := by
  cases o with
  | none => rfl
  | some a =>
    rw [Option.map_some, optional, hread, Option.map_some]
    exact hnull a

end Serde

/-! ## Tools -/

/-- `Value::as_bool`. -/
def Value.asBool : Value → Option Bool
  | bool b => some b
  | _ => none

def ToolAnnotations.fromValue (v : Value) : Option ToolAnnotations :=
  (members [camelCase "read_only_hint", camelCase "destructive_hint", camelCase "idempotent_hint",
      camelCase "open_world_hint", camelCase "title"] v).bind fun
    | [readOnlyHint, destructiveHint, idempotentHint, openWorldHint, title] => do
        let readOnlyHint ← optional Value.asBool readOnlyHint
        let destructiveHint ← optional Value.asBool destructiveHint
        let idempotentHint ← optional Value.asBool idempotentHint
        let openWorldHint ← optional Value.asBool openWorldHint
        let title ← optional Value.asStr title
        pure { readOnlyHint, destructiveHint, idempotentHint, openWorldHint, title }
    | _ => none

def Tool.fromValue (v : Value) : Option Tool :=
  (members [camelCase "name", camelCase "description", camelCase "input_schema",
      camelCase "annotations"] v).bind fun
    | [name, description, inputSchema, annotations] => do
        let name ← name.bind Value.asStr
        let description ← optional Value.asStr description
        let inputSchema ← inputSchema
        let annotations ← optional ToolAnnotations.fromValue annotations
        pure { name, description, inputSchema, annotations }
    | _ => none

/-- Result of `tools/list`. -/
structure ToolsListResult where
  tools : List Tool
  nextCursor : Option String

def ToolsListResult.toValue (r : ToolsListResult) : Value :=
  .object ([(camelCase "tools", .array (r.tools.map Tool.toValue))] ++
    optionalField (camelCase "next_cursor") (r.nextCursor.map .string))

def ToolsListResult.fromValue (v : Value) : Option ToolsListResult :=
  (members [camelCase "tools", camelCase "next_cursor"] v).bind fun
    | [tools, nextCursor] => do
        let tools ← (tools.bind Value.asArray).bind fun tools => tools.mapM Tool.fromValue
        let nextCursor ← optional Value.asStr nextCursor
        pure { tools, nextCursor }
    | _ => none

theorem optional_asBool (o : Option Bool) : optional Value.asBool (o.map .bool) = some o :=
  @optional_map Bool Value.asBool .bool (fun _ => rfl) (fun _ h => nomatch h) o

theorem optional_asStr (o : Option String) : optional Value.asStr (o.map .string) = some o :=
  @optional_map String Value.asStr .string (fun _ => rfl) (fun _ h => nomatch h) o

namespace ToolAnnotations

/-- The fields of annotations, with the values they are written as. -/
def fields (a : ToolAnnotations) : List (String × Option Value) :=
  [(camelCase "read_only_hint", a.readOnlyHint.map .bool),
    (camelCase "destructive_hint", a.destructiveHint.map .bool),
    (camelCase "idempotent_hint", a.idempotentHint.map .bool),
    (camelCase "open_world_hint", a.openWorldHint.map .bool),
    (camelCase "title", a.title.map .string)]

theorem toValue_eq (a : ToolAnnotations) : a.toValue = .object (record a.fields) := by
  simp only [toValue, fields, record, List.flatMap_cons, List.flatMap_nil, List.append_nil,
    List.append_assoc]
  rfl

theorem fields_nodup (a : ToolAnnotations) : (a.fields.map Prod.fst).Nodup := by
  have hnames : a.fields.map Prod.fst =
      ["readOnlyHint", "destructiveHint", "idempotentHint", "openWorldHint", "title"] := rfl
  rw [hnames]
  decide

theorem fromValue_toValue (a : ToolAnnotations) : fromValue a.toValue = some a := by
  have hmembers := members_record a.fields_nodup
  simp only [fields, List.map_cons, List.map_nil] at hmembers
  rw [toValue_eq, fromValue, fields, hmembers]
  simp [optional_asBool, optional_asStr]

theorem toValue_ne_null (a : ToolAnnotations) : a.toValue ≠ .null := fun h => nomatch h

end ToolAnnotations

namespace Tool

/-- The fields of a tool, with the values they are written as. -/
def fields (t : Tool) : List (String × Option Value) :=
  [(camelCase "name", some (.string t.name)), (camelCase "description", t.description.map .string),
    (camelCase "input_schema", some t.inputSchema),
    (camelCase "annotations", t.annotations.map ToolAnnotations.toValue)]

theorem toValue_eq (t : Tool) : t.toValue = .object (record t.fields) := by
  simp only [toValue, fields, record, List.flatMap_cons, List.flatMap_nil, List.append_nil,
    List.append_assoc]
  rfl

theorem fields_nodup (t : Tool) : (t.fields.map Prod.fst).Nodup := by
  have hnames : t.fields.map Prod.fst = ["name", "description", "inputSchema", "annotations"] := rfl
  rw [hnames]
  decide

/-- A tool is read back as it has been written. -/
theorem fromValue_toValue (t : Tool) : fromValue t.toValue = some t := by
  have hmembers := members_record t.fields_nodup
  simp only [fields, List.map_cons, List.map_nil] at hmembers
  have hannotations := optional_map ToolAnnotations.fromValue_toValue
    ToolAnnotations.toValue_ne_null t.annotations
  rw [toValue_eq, fromValue, fields, hmembers]
  simp [optional_asStr, hannotations, Value.asStr]

end Tool

namespace ToolsListResult

/-- The fields of the result, with the values they are written as. -/
def fields (r : ToolsListResult) : List (String × Option Value) :=
  [(camelCase "tools", some (.array (r.tools.map Tool.toValue))),
    (camelCase "next_cursor", r.nextCursor.map .string)]

theorem toValue_eq (r : ToolsListResult) : r.toValue = .object (record r.fields) := by
  simp only [toValue, fields, record, List.flatMap_cons, List.flatMap_nil, List.append_nil]
  rfl

theorem fields_nodup (r : ToolsListResult) : (r.fields.map Prod.fst).Nodup := by
  have hnames : r.fields.map Prod.fst = ["tools", "nextCursor"] := rfl
  rw [hnames]
  decide

theorem mapM_fromValue_toValue (ts : List Tool) :
    (ts.map Tool.toValue).mapM Tool.fromValue = some ts := by
  induction ts with
  | nil => rfl
  | cons t ts ih => rw [List.map_cons, List.mapM_cons, Tool.fromValue_toValue, ih]; rfl

/-- The result of `tools/list` is read back as it has been written. -/
theorem fromValue_toValue (r : ToolsListResult) : fromValue r.toValue = some r := by
  have hmembers := members_record r.fields_nodup
  simp only [fields, List.map_cons, List.map_nil] at hmembers
  rw [toValue_eq, fromValue, fields, hmembers]
  have htools := mapM_fromValue_toValue r.tools
  rw [List.mapM_map] at htools
  simp [optional_asStr, htools, Value.asArray]

end ToolsListResult

end McpShield
