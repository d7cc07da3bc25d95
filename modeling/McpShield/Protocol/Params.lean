import McpShield.Protocol.Message

/-!
# Typed parameters

The parameters of four methods with their derived encoders and decoders, and the two functions that
look for metadata in raw parameters.  Of three types the metadata field is named by the rename rule,
which drops the underscore of `_meta`; the functions and the fourth type name the member themselves.
`metaSurvives_iff` says what that leaves of the metadata.
-/

namespace McpShield

/-! ## Derived encoders and decoders -/

namespace Serde

/-- The letters of a field name in Pascal case: underscores are removed, and the first letter and
those after an underscore are capitalized. -/
def pascalCase : Bool → List Char → List Char
  | _, [] => []
  | capitalize, c :: cs =>
      if c = '_' then pascalCase true cs
      else (if capitalize then c.toUpper else c) :: pascalCase false cs

/-- `rename_all = "camelCase"`: Pascal case with the first letter lowered. -/
def camelCase (field : String) : String :=
  match pascalCase true field.toList with
  | [] => ""
  | c :: cs => String.ofList (c.toLower :: cs)

/-- The members a struct is read from: those of an object that have the names of its fields, or the
elements of an array, one for each field. -/
def members (names : List String) : Value → Option (List (Option Value))
  | .object fields => some (names.map fun name => Value.findField name fields)
  | .array xs => if xs.length = names.length then some (xs.map some) else none
  | _ => none

/-- An optional field: `None` if it is left out or null. -/
def optional {α : Type} (read : Value → Option α) : Option Value → Option (Option α)
  | none => some none
  | some .null => some none
  | some v => (read v).map some

end Serde

open Serde

/-- Metadata attached to params. -/
structure Meta where
  progressToken : Option Value

def Meta.toValue (m : Meta) : Value :=
  .object (optionalField (camelCase "progress_token") m.progressToken)

def Meta.fromValue (v : Value) : Option Meta :=
  (members [camelCase "progress_token"] v).bind fun
    | [progressToken] =>
        (optional some progressToken).map fun progressToken => { progressToken }
    | _ => none

/-- Parameters with a cursor. -/
structure ListParams where
  cursor : Option String
  _meta : Option Meta

def ListParams.toValue (p : ListParams) : Value :=
  .object (optionalField (camelCase "cursor") (p.cursor.map .string) ++
    optionalField (camelCase "_meta") (p._meta.map Meta.toValue))

def ListParams.fromValue (v : Value) : Option ListParams :=
  (members [camelCase "cursor", camelCase "_meta"] v).bind fun
    | [cursor, _meta] =>
        (optional Value.asStr cursor).bind fun cursor =>
          (optional Meta.fromValue _meta).map fun _meta => { cursor, _meta }
    | _ => none

/-- Parameters for `tools/list`. -/
abbrev ToolsListParams : Type := ListParams

/-- Parameters for `resources/list`. -/
abbrev ResourcesListParams : Type := ListParams

/-- Parameters for `prompts/list`. -/
abbrev PromptsListParams : Type := ListParams

/-- Parameters for `tools/call`.  The field of the metadata is renamed to `_meta`. -/
structure ToolsCallParams where
  name : String
  arguments : Value
  metadata : Option Meta

def ToolsCallParams.toValue (p : ToolsCallParams) : Value :=
  .object ([(camelCase "name", .string p.name), (camelCase "arguments", p.arguments)] ++
    optionalField "_meta" (p.metadata.map Meta.toValue))

def ToolsCallParams.fromValue (v : Value) : Option ToolsCallParams :=
  (members [camelCase "name", camelCase "arguments", "_meta"] v).bind fun
    | [name, arguments, metadata] =>
        (name.bind Value.asStr).bind fun name =>
          (optional Meta.fromValue metadata).map fun metadata =>
            { name, arguments := arguments.getD .null, metadata }
    | _ => none

/-- Extract the `_meta` field from a JSON params object. -/
def extractMeta (params : Option Value) : Option Meta :=
  (params.bind fun p => p.get "_meta").bind Meta.fromValue

/-- Extract the progress token from metadata. -/
def extractProgressToken (params : Option Value) : Option Value :=
  (params.bind fun p => p.get "_meta").bind fun m => m.get "progressToken"

/-- The types of parameters that have metadata. -/
inductive ParamsType where
  | toolsList
  | resourcesList
  | promptsList
  | toolsCall
deriving DecidableEq

namespace ParamsType

def Params : ParamsType → Type
  | toolsList => ToolsListParams
  | resourcesList => ResourcesListParams
  | promptsList => PromptsListParams
  | toolsCall => ToolsCallParams

def toValue : (t : ParamsType) → t.Params → Value
  | toolsList, p => ListParams.toValue p
  | resourcesList, p => ListParams.toValue p
  | promptsList, p => ListParams.toValue p
  | toolsCall, p => ToolsCallParams.toValue p

def fromValue : (t : ParamsType) → Value → Option t.Params
  | toolsList, v => ListParams.fromValue v
  | resourcesList, v => ListParams.fromValue v
  | promptsList, v => ListParams.fromValue v
  | toolsCall, v => ToolsCallParams.fromValue v

def metadata : (t : ParamsType) → t.Params → Option Meta
  | toolsList, p => ListParams._meta p
  | resourcesList, p => ListParams._meta p
  | promptsList, p => ListParams._meta p
  | toolsCall, p => ToolsCallParams.metadata p

/-- The members of the parameters other than the metadata are in form. -/
def InForm (params : Value) : ParamsType → Prop
  | toolsCall => ∃ name, params.get "name" = some (.string name)
  | _ => ∀ v, params.get "cursor" = some v → v = .null ∨ ∃ cursor, v = .string cursor

end ParamsType

/-! ## Metadata -/

/-- The value is an object, and its progress token is that of the metadata and not null. -/
structure WellFormedMeta (v : Value) (m : Meta) : Prop where
  isObject : v.isObject = true
  token : v.get "progressToken" = m.progressToken
  notNull : m.progressToken ≠ some .null

/-- The metadata of the typed value is extracted from what it is written as, and a well-formed
member `_meta` of raw parameters is the metadata of the value that is read from them. -/
structure MetaSurvives (t : ParamsType) (p : t.Params) (params : Value) : Prop where
  written : ∀ m, t.metadata p = some m → extractMeta (some (t.toValue p)) = some m
  read : ∀ v m, params.get "_meta" = some v → WellFormedMeta v m →
    ∃ p', t.fromValue params = some p' ∧ t.metadata p' = some m

/-- A value with metadata is of the type `ToolsCallParams`, and its progress token is not null.  Raw
parameters with well-formed metadata are in form otherwise, and if they are read as another type,
their member `meta` reads as the same metadata. -/
structure MetaKept (t : ParamsType) (p : t.Params) (params : Value) : Prop where
  value : ∀ m, t.metadata p = some m → t = .toolsCall ∧ m.progressToken ≠ some .null
  params : ∀ v m, params.get "_meta" = some v → WellFormedMeta v m →
    t.InForm params ∧ (t ≠ .toolsCall → (params.get "meta").bind Meta.fromValue = some m)

/-! ## Reading and writing members -/

namespace Serde

theorem camelCase_cursor : camelCase "cursor" = "cursor" := rfl

/-- The rename rule drops the underscore. -/
theorem camelCase_meta : camelCase "_meta" = "meta" := rfl

theorem camelCase_name : camelCase "name" = "name" := rfl

theorem camelCase_arguments : camelCase "arguments" = "arguments" := rfl

variable {α : Type} {read : Value → Option α} {member : Option Value} {a : α}

theorem optional_eq_some_some_iff (hnull : read .null = none) :
    optional read member = some (some a) ↔ member.bind read = some a := by
  cases member with
  | none => simp [optional]
  | some v =>
    cases v with
    | null => simp [optional, hnull]
    | _ => simp [optional]

theorem exists_optional_asStr_iff : (∃ text, optional Value.asStr member = some text) ↔
    ∀ v, member = some v → v = .null ∨ ∃ text, v = .string text := by
  cases member with
  | none => simp [optional]
  | some v => cases v <;> simp [optional, Value.asStr]

end Serde

theorem findField_optionalField {key : String} {v : Option Value} :
    Value.findField key (optionalField key v) = v := by
  cases v <;> simp [optionalField, Value.findField]

theorem findField_optionalField_append {key other : String} {v : Option Value}
    {fields : List (String × Value)} (hne : other ≠ key) :
    Value.findField key (optionalField other v ++ fields) = Value.findField key fields := by
  cases v <;> simp [optionalField, Value.findField, hne]

theorem findField_optionalField_ne {key other : String} {v : Option Value} (hne : other ≠ key) :
    Value.findField key (optionalField other v) = none := by
  cases v <;> simp [optionalField, Value.findField, hne]

/-! ## Metadata -/

theorem Meta.fromValue_null : Meta.fromValue .null = none := rfl

theorem Meta.fromValue_object {fields : List (String × Value)} :
    Meta.fromValue (.object fields) =
      (optional some (Value.findField "progressToken" fields)).map Meta.mk := rfl

theorem Meta.fromValue_of_wellFormed {v : Value} {m : Meta} (h : WellFormedMeta v m) :
    Meta.fromValue v = some m := by
  obtain ⟨token⟩ := m
  cases v with
  | object fields =>
    have htoken : Value.findField "progressToken" fields = token := h.token
    have hread : optional some token = some token := by
      cases token with
      | none => rfl
      | some v =>
        cases v with
        | null => exact absurd rfl h.notNull
        | _ => rfl
    rw [Meta.fromValue_object, htoken, hread]
    rfl
  | _ => cases h.isObject

/-- Metadata reads back as itself unless its progress token is null. -/
theorem Meta.fromValue_toValue_iff {m : Meta} :
    Meta.fromValue m.toValue = some m ↔ m.progressToken ≠ some .null := by
  have htoken : m.toValue.get "progressToken" = m.progressToken := findField_optionalField
  constructor
  · intro h hnull
    obtain ⟨token⟩ := m
    obtain rfl : token = some .null := hnull
    cases h
  · exact fun hne => Meta.fromValue_of_wellFormed ⟨rfl, htoken, hne⟩

/-- Both functions find well-formed metadata. -/
theorem extracted_of_wellFormed {params v : Value} {m : Meta} (hget : params.get "_meta" = some v)
    (h : WellFormedMeta v m) :
    extractMeta (some params) = some m ∧ extractProgressToken (some params) = m.progressToken := by
  constructor
  · rw [extractMeta, Option.bind_some, hget, Option.bind_some, Meta.fromValue_of_wellFormed h]
  · rw [extractProgressToken, Option.bind_some, hget, Option.bind_some, h.token]

/-! ## The types with a cursor -/

namespace ListParams

/-- The metadata is not written under the name that is looked for. -/
theorem extractMeta_toValue (p : ListParams) : extractMeta (some p.toValue) = none := by
  have hget : p.toValue.get "_meta" = none := by
    show Value.findField "_meta" (optionalField (camelCase "cursor") _ ++ _) = none
    rw [camelCase_cursor, camelCase_meta, findField_optionalField_append (by decide),
      findField_optionalField_ne (by decide)]
  rw [extractMeta, Option.bind_some, hget]
  rfl

theorem fromValue_object {fields : List (String × Value)} : fromValue (.object fields) =
    (optional Value.asStr (Value.findField "cursor" fields)).bind fun cursor =>
      (optional Meta.fromValue (Value.findField "meta" fields)).map fun _meta =>
        { cursor, _meta } := rfl

/-- The metadata is read from the member `meta`. -/
theorem exists_fromValue_iff {fields : List (String × Value)} {m : Meta} :
    (∃ p, fromValue (.object fields) = some p ∧ p._meta = some m) ↔
      (∃ cursor, optional Value.asStr (Value.findField "cursor" fields) = some cursor) ∧
        (Value.findField "meta" fields).bind Meta.fromValue = some m := by
  rw [fromValue_object, ← optional_eq_some_some_iff Meta.fromValue_null]
  constructor
  · rintro ⟨p, hp, hmeta⟩
    obtain ⟨cursor, hcursor, hp⟩ := Option.bind_eq_some_iff.mp hp
    obtain ⟨_meta, hoptional, rfl⟩ := Option.map_eq_some_iff.mp hp
    exact ⟨⟨cursor, hcursor⟩, by rw [hoptional, ← hmeta]⟩
  · rintro ⟨⟨cursor, hcursor⟩, hoptional⟩
    exact ⟨{ cursor, _meta := some m }, by rw [hcursor, hoptional]; rfl, rfl⟩

end ListParams

/-! ## The type of a call -/

namespace ToolsCallParams

theorem extractMeta_toValue (p : ToolsCallParams) :
    extractMeta (some p.toValue) = p.metadata.bind fun m => Meta.fromValue m.toValue := by
  have hget : p.toValue.get "_meta" = p.metadata.map Meta.toValue := by
    show Value.findField "_meta" ((camelCase "name", _) :: (camelCase "arguments", _) ::
      optionalField "_meta" _) = _
    rw [camelCase_name, camelCase_arguments, Value.findField, if_neg (by decide), Value.findField,
      if_neg (by decide), findField_optionalField]
  rw [extractMeta, Option.bind_some, hget, Option.bind_map]
  rfl

theorem fromValue_object {fields : List (String × Value)} : fromValue (.object fields) =
    ((Value.findField "name" fields).bind Value.asStr).bind fun name =>
      (optional Meta.fromValue (Value.findField "_meta" fields)).map fun metadata =>
        { name, arguments := (Value.findField "arguments" fields).getD .null, metadata } := rfl

/-- The metadata is read from the member `_meta`, if there is a name. -/
theorem exists_fromValue_iff {fields : List (String × Value)} {v : Value} {m : Meta}
    (hget : Value.findField "_meta" fields = some v) (h : WellFormedMeta v m) :
    (∃ p, fromValue (.object fields) = some p ∧ p.metadata = some m) ↔
      ∃ name, Value.findField "name" fields = some (.string name) := by
  have hread : optional Meta.fromValue (some v) = some (some m) :=
    (optional_eq_some_some_iff Meta.fromValue_null).mpr (Meta.fromValue_of_wellFormed h)
  rw [fromValue_object, hget, hread]
  constructor
  · rintro ⟨p, hp, -⟩
    obtain ⟨name, hname, -⟩ := Option.bind_eq_some_iff.mp hp
    obtain ⟨value, hvalue, hstr⟩ := Option.bind_eq_some_iff.mp hname
    exact ⟨name, hvalue.trans (congrArg some (Value.asStr_eq_some_iff.mp hstr))⟩
  · rintro ⟨name, hname⟩
    rw [hname]
    exact ⟨⟨name, (Value.findField "arguments" fields).getD .null, some m⟩, rfl, rfl⟩

end ToolsCallParams

/-! ## Which metadata survives -/

variable {t : ParamsType} {p : t.Params} {params : Value}

theorem written_list_iff {p : ListParams} :
    (∀ m, p._meta = some m → extractMeta (some p.toValue) = some m) ↔ p._meta = none := by
  rw [p.extractMeta_toValue]
  cases p._meta with
  | none => simp
  | some m => simp

theorem written_call_iff {p : ToolsCallParams} :
    (∀ m, p.metadata = some m → extractMeta (some p.toValue) = some m) ↔
      ∀ m, p.metadata = some m → m.progressToken ≠ some .null := by
  refine forall₂_congr fun m hm => ?_
  rw [p.extractMeta_toValue, hm, Option.bind_some, Meta.fromValue_toValue_iff]

theorem read_list_iff {v : Value} {m : Meta} (hget : params.get "_meta" = some v) :
    (∃ p, ListParams.fromValue params = some p ∧ p._meta = some m) ↔
      ParamsType.InForm params .toolsList ∧ (params.get "meta").bind Meta.fromValue = some m := by
  obtain ⟨fields, rfl⟩ := Value.exists_object_of_get hget
  rw [ListParams.exists_fromValue_iff, exists_optional_asStr_iff]
  rfl

theorem read_call_iff {v : Value} {m : Meta} (hget : params.get "_meta" = some v)
    (h : WellFormedMeta v m) :
    (∃ p, ToolsCallParams.fromValue params = some p ∧ p.metadata = some m) ↔
      ParamsType.InForm params .toolsCall := by
  obtain ⟨fields, rfl⟩ := Value.exists_object_of_get hget
  exact ToolsCallParams.exists_fromValue_iff hget h

/-- Of a type that does not write its metadata under `_meta`, only what the member `meta` reads as
survives. -/
theorem metaSurvives_iff_of_list (ht : t ≠ .toolsCall)
    (hwritten : (∀ m, t.metadata p = some m → extractMeta (some (t.toValue p)) = some m) ↔
      t.metadata p = none)
    (hread : ∀ v m, params.get "_meta" = some v →
      ((∃ p', t.fromValue params = some p' ∧ t.metadata p' = some m) ↔
        t.InForm params ∧ (params.get "meta").bind Meta.fromValue = some m)) :
    MetaSurvives t p params ↔ MetaKept t p params := by
  constructor
  · intro h
    refine ⟨fun m hm => ?_, fun v m hget hv => ?_⟩
    · cases (hwritten.mp h.written).symm.trans hm
    · obtain ⟨hform, hmeta⟩ := (hread v m hget).mp (h.read v m hget hv)
      exact ⟨hform, fun _ => hmeta⟩
  · intro h
    refine ⟨hwritten.mpr ?_, fun v m hget hv => ?_⟩
    · exact Option.eq_none_iff_forall_ne_some.mpr fun m hm => ht (h.value m hm).1
    · obtain ⟨hform, hmeta⟩ := h.params v m hget hv
      exact (hread v m hget).mpr ⟨hform, hmeta ht⟩

/-- The metadata survives exactly when the type names its member `_meta`, or where there is no
metadata to survive. -/
theorem metaSurvives_iff : MetaSurvives t p params ↔ MetaKept t p params := by
  cases t with
  | toolsList =>
    exact metaSurvives_iff_of_list (by decide) written_list_iff fun _ _ => read_list_iff
  | resourcesList =>
    exact metaSurvives_iff_of_list (by decide) written_list_iff fun _ _ => read_list_iff
  | promptsList =>
    exact metaSurvives_iff_of_list (by decide) written_list_iff fun _ _ => read_list_iff
  | toolsCall =>
    constructor
    · intro h
      refine ⟨fun m hm => ⟨rfl, written_call_iff.mp h.written m hm⟩, fun v m hget hv => ?_⟩
      exact ⟨(read_call_iff hget hv).mp (h.read v m hget hv), fun hne => absurd rfl hne⟩
    · intro h
      refine ⟨written_call_iff.mpr fun m hm => (h.value m hm).2, fun v m hget hv => ?_⟩
      exact (read_call_iff hget hv).mpr (h.params v m hget hv).1

/-! ## Metadata that is lost -/

/-- A member with a progress token. -/
def tokenMember : Value := .object [("progressToken", .string "t")]

/-- Parameters of `tools/list` with a progress token. -/
def tokenParams : ToolsListParams :=
  { cursor := none, _meta := some { progressToken := some (.string "t") } }

/-- The progress token is written under `meta`, where it is not looked for, and it is not read from
`_meta`. -/
theorem token_not_survives :
    extractMeta (some (ParamsType.toValue .toolsList tokenParams)) = none ∧
      (ParamsType.fromValue .toolsList (.object [("_meta", tokenMember)])).map
        (ParamsType.metadata .toolsList) = some none ∧
      ¬ MetaSurvives .toolsList tokenParams (.object [("_meta", tokenMember)]) := by
  refine ⟨ListParams.extractMeta_toValue _, rfl, fun h => ?_⟩
  cases (ListParams.extractMeta_toValue _).symm.trans (h.written _ rfl)

end McpShield
