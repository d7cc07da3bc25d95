import McpShield.Protocol.Jsonrpc

/-!
# The message parser

`parseSingle` classifies an object by the presence of its members.  `Accepts` says what it accepts
and as what; the round trip through `toValue` and the comparison with the grammar of JSON-RPC 2.0
are read off it.
-/

namespace McpShield

/-- What the JSON library contributes beyond its values: the reader of texts, and the text of its
complaint about a value that is no error object. -/
structure SerdeJson where
  fromStr : String → Except String Value
  malformed : Value → String

/-! ## Typed values -/

/-- An id as it is deserialized: the variants are tried in order. -/
def RequestId.fromValue : Value → Option RequestId
  | .string s => some (.string s)
  | .null => some .null
  | value => value.asI64.map RequestId.integer

/-- An error object as it is deserialized.  Unknown members are ignored, and `data: null` is no
data.  A struct may also be given as the array of its fields. -/
def JsonRpcErrorObj.fromValue : Value → Option JsonRpcErrorObj
  | .array [code, message, data] => ofFields (some code) (some message) (some data)
  | .object fields => ofFields (Value.findField "code" fields) (Value.findField "message" fields)
      (Value.findField "data" fields)
  | _ => none
where
  /-- The error object of its fields. -/
  ofFields (code message data : Option Value) : Option JsonRpcErrorObj := do
    let code ← code.bind Value.asI64
    let message ← message.bind Value.asStr
    return { code, message, data := data.filter fun d => !d.isNull }

@[simp] theorem RequestId.fromValue_toValue (id : RequestId) : fromValue id.toValue = some id := by
  cases id with
  | string s => rfl
  | null => rfl
  | integer n =>
      have hnum : fromValue (Value.ofInt n) = (Value.ofInt n).asI64.map integer := by
        unfold Value.ofInt
        split <;> rfl
      rw [toValue, hnum, Value.asI64_ofInt, Option.map_some]

/-- The data of a deserialized error object is never `null`. -/
def JsonRpcErrorObj.DataOk (e : JsonRpcErrorObj) : Prop := e.data ≠ some .null

theorem JsonRpcErrorObj.fromValue_toValue {e : JsonRpcErrorObj} (h : e.DataOk) :
    fromValue e.toValue = some e := by
  obtain ⟨code, message, data⟩ := e
  cases data with
  | none => simp [toValue, fromValue, fromValue.ofFields, Value.findField, Value.asStr]
  | some d =>
      have hnull : d.isNull = false := by
        rw [Bool.eq_false_iff]
        exact fun hd => h (congrArg some (Value.isNull_iff.mp hd))
      simp [toValue, fromValue, fromValue.ofFields, Value.findField, Value.asStr, Option.filter,
        hnull]

theorem JsonRpcErrorObj.dataOk_of_ofFields {code message data : Option Value}
    {e : JsonRpcErrorObj} (h : fromValue.ofFields code message data = some e) : e.DataOk := by
  simp only [fromValue.ofFields, Option.bind_eq_bind, Option.bind_eq_some_iff, Option.pure_def,
    Option.some.injEq] at h
  obtain ⟨_, _, _, _, rfl⟩ := h
  intro hdata
  have hkeep := (Option.filter_eq_some_iff.mp hdata).2
  simp [Value.isNull] at hkeep

theorem JsonRpcErrorObj.dataOk_of_fromValue {v : Value} {e : JsonRpcErrorObj}
    (h : fromValue v = some e) : e.DataOk := by
  unfold fromValue at h
  split at h
  · exact dataOk_of_ofFields h
  · exact dataOk_of_ofFields h
  · cases h

namespace JsonRpcMessage

variable (serde : SerdeJson)

/-! ## The parser -/

/-- The id of a message. -/
def parseId (rawId : Value) : Except McpError RequestId :=
  match RequestId.fromValue rawId with
  | some id => .ok id
  | none => .error (.invalidRequest
      "Invalid Request: id must be string, integer, or null: data did not match any variant of untagged enum RequestId")

/-- The error object of a response. -/
def parseErrorObj (rawError : Value) : Except McpError JsonRpcErrorObj :=
  match JsonRpcErrorObj.fromValue rawError with
  | some obj => .ok obj
  | none =>
      let e := serde.malformed rawError
      .error (.invalidRequest s!"Invalid Request: malformed error object: {e}")

/-- Parse an object with a method and neither a result nor an error. -/
def parseCall (raw rawMethod : Value) : Except McpError JsonRpcMessage :=
  match rawMethod.asStr with
  | none => .error (.invalidRequest "Invalid Request: method must be a string")
  | some method =>
      match raw.get "id" with
      | some rawId => do
          let id ← parseId rawId
          if id = .null then .error (.invalidRequest "Invalid Request: id must not be null")
          else .ok (.request id method (raw.get "params"))
      | none => .ok (.notification method (raw.get "params"))

/-- Parse an object with an id and a result or an error, whatever else it has. -/
def parseResponse (raw rawId : Value) : Except McpError JsonRpcMessage := do
  let id ← parseId rawId
  match raw.get "error" with
  | some rawError => do
      let obj ← parseErrorObj serde rawError
      .ok (.error id obj)
  | none => .ok (.success id ((raw.get "result").getD .null))

/-- Parse a message that is not a batch. -/
def parseSingle (raw : Value) : Except McpError JsonRpcMessage :=
  if !raw.isObject then
    .error (.invalidRequest "Invalid Request: message must be a JSON object")
  else
    let version := ((raw.get "jsonrpc").bind Value.asStr).getD ""
    if version ≠ jsonrpcVersion then
      .error (.invalidRequest s!"Invalid Request: expected jsonrpc \"2.0\", got \"{version}\"")
    else
      let isResponse := (raw.get "result").isSome || (raw.get "error").isSome
      match raw.get "method", raw.get "id", isResponse with
      | some rawMethod, _, false => parseCall raw rawMethod
      | _, some rawId, true => parseResponse serde raw rawId
      | _, _, _ => .error (.invalidRequest
          "Invalid Request: message must be a request, notification, or response")

/-- Parse a message; an array is a batch of messages that are not batches. -/
def parse (raw : Value) : Except McpError JsonRpcMessage :=
  match raw.asArray with
  | some arr =>
      if arr.isEmpty then .error (.invalidRequest "Invalid Request: empty batch")
      else do
        let messages ← arr.mapM (parseSingle serde)
        return .batch messages
  | none => parseSingle serde raw

/-- Parse a text. -/
def fromStr (s : String) : Except McpError JsonRpcMessage :=
  match serde.fromStr s with
  | .ok raw => parse serde raw
  | .error e => .error (.parseError e)

/-! ## What is accepted -/

/-- The value has the version of the protocol; only an object can. -/
def HasVersion (raw : Value) : Prop := raw.get "jsonrpc" = some (.string jsonrpcVersion)

/-- A value and the message it is parsed as. -/
inductive Accepts (raw : Value) : JsonRpcMessage → Prop where
  | request {rawId : Value} {id : RequestId} {method : String} (version : HasVersion raw)
      (hid : raw.get "id" = some rawId) (hread : RequestId.fromValue rawId = some id)
      (hnull : id ≠ .null) (hmethod : raw.get "method" = some (.string method))
      (hresult : raw.get "result" = none) (herror : raw.get "error" = none) :
      Accepts raw (.request id method (raw.get "params"))
  | notification {method : String} (version : HasVersion raw) (hid : raw.get "id" = none)
      (hmethod : raw.get "method" = some (.string method))
      (hresult : raw.get "result" = none) (herror : raw.get "error" = none) :
      Accepts raw (.notification method (raw.get "params"))
  | success {rawId result : Value} {id : RequestId} (version : HasVersion raw)
      (hid : raw.get "id" = some rawId) (hread : RequestId.fromValue rawId = some id)
      (hresult : raw.get "result" = some result) (herror : raw.get "error" = none) :
      Accepts raw (.success id result)
  | error {rawId rawError : Value} {id : RequestId} {obj : JsonRpcErrorObj}
      (version : HasVersion raw) (hid : raw.get "id" = some rawId)
      (hread : RequestId.fromValue rawId = some id) (herror : raw.get "error" = some rawError)
      (hobj : JsonRpcErrorObj.fromValue rawError = some obj) :
      Accepts raw (.error id obj)

theorem isObject_of_get {raw v : Value} {key : String} (h : raw.get key = some v) :
    raw.isObject = true := by
  cases raw <;> first | rfl | cases h

theorem hasVersion_iff {raw : Value} :
    HasVersion raw ↔ ((raw.get "jsonrpc").bind Value.asStr).getD "" = jsonrpcVersion := by
  unfold HasVersion
  cases hget : raw.get "jsonrpc" with
  | none => simp [jsonrpcVersion]
  | some v => cases v <;> simp [Value.asStr, jsonrpcVersion]

theorem parseId_eq_ok_iff {rawId : Value} {id : RequestId} :
    parseId rawId = .ok id ↔ RequestId.fromValue rawId = some id := by
  unfold parseId
  cases RequestId.fromValue rawId <;> simp

theorem parseErrorObj_eq_ok_iff {serde : SerdeJson} {rawError : Value} {obj : JsonRpcErrorObj} :
    parseErrorObj serde rawError = .ok obj ↔ JsonRpcErrorObj.fromValue rawError = some obj := by
  unfold parseErrorObj
  cases JsonRpcErrorObj.fromValue rawError <;> simp

theorem parseCall_eq_ok_iff {raw rawMethod : Value} {m : JsonRpcMessage} :
    parseCall raw rawMethod = .ok m ↔ ∃ method, rawMethod = .string method ∧
      ((∃ rawId id, raw.get "id" = some rawId ∧ RequestId.fromValue rawId = some id ∧
          id ≠ .null ∧ m = .request id method (raw.get "params")) ∨
        raw.get "id" = none ∧ m = .notification method (raw.get "params")) := by
  unfold parseCall
  cases rawMethod with
  | string method =>
      cases hid : raw.get "id" with
      | none => simp [Value.asStr, eq_comm]
      | some rawId =>
          simp only [Value.asStr, bind_eq_ok_iff, parseId_eq_ok_iff]
          constructor
          · rintro ⟨id, hread, hm⟩
            split at hm
            · cases hm
            · next hnull => exact ⟨method, rfl, .inl ⟨rawId, id, rfl, hread, hnull, by cases hm; rfl⟩⟩
          · rintro ⟨method', hmethod, ⟨rawId', id, hraw, hread, hnull, rfl⟩ | ⟨hnone, -⟩⟩
            · obtain rfl := Value.string.inj hmethod
              obtain rfl := Option.some.inj hraw
              exact ⟨id, hread, by rw [if_neg hnull]⟩
            · cases hnone
  | _ => simp [Value.asStr]

theorem parseResponse_eq_ok_iff {serde : SerdeJson} {raw rawId : Value} {m : JsonRpcMessage} :
    parseResponse serde raw rawId = .ok m ↔ ∃ id, RequestId.fromValue rawId = some id ∧
      ((∃ rawError obj, raw.get "error" = some rawError ∧
          JsonRpcErrorObj.fromValue rawError = some obj ∧ m = .error id obj) ∨
        raw.get "error" = none ∧ m = .success id ((raw.get "result").getD .null)) := by
  unfold parseResponse
  simp only [bind_eq_ok_iff, parseId_eq_ok_iff]
  cases herror : raw.get "error" with
  | none => simp [eq_comm]
  | some rawError =>
      simp only [bind_eq_ok_iff, parseErrorObj_eq_ok_iff]
      constructor
      · rintro ⟨id, hread, obj, hobj, hm⟩
        exact ⟨id, hread, .inl ⟨rawError, obj, rfl, hobj, by cases hm; rfl⟩⟩
      · rintro ⟨id, hread, ⟨rawError', obj, hraw, hobj, rfl⟩ | ⟨hnone, -⟩⟩
        · obtain rfl := Option.some.inj hraw
          exact ⟨id, hread, obj, hobj, rfl⟩
        · cases hnone

/-- The classification of an object with the right version. -/
theorem parseSingle_of_hasVersion {raw : Value} (h : HasVersion raw) :
    parseSingle serde raw =
      match raw.get "method", raw.get "id",
        (raw.get "result").isSome || (raw.get "error").isSome with
      | some rawMethod, _, false => parseCall raw rawMethod
      | _, some rawId, true => parseResponse serde raw rawId
      | _, _, _ => .error (.invalidRequest
          "Invalid Request: message must be a request, notification, or response") := by
  unfold parseSingle
  rw [if_neg (by simp [isObject_of_get h])]
  simp only [hasVersion_iff.mp h, ne_eq, not_true_eq_false, if_false]

theorem hasVersion_of_parseSingle {serde : SerdeJson} {raw : Value} {m : JsonRpcMessage}
    (h : parseSingle serde raw = .ok m) : HasVersion raw := by
  rw [hasVersion_iff]
  unfold parseSingle at h
  by_contra hne
  split at h
  · cases h
  · simp only [ne_eq, hne, not_false_eq_true, if_true] at h
    cases h

/-- The parser accepts exactly what `Accepts` describes. -/
theorem parseSingle_eq_ok_iff {serde : SerdeJson} {raw : Value} {m : JsonRpcMessage} :
    parseSingle serde raw = .ok m ↔ Accepts raw m := by
  constructor
  · intro h
    have hversion := hasVersion_of_parseSingle h
    rw [parseSingle_of_hasVersion serde hversion] at h
    split at h
    · next rawMethod rawId hmethod hresponse =>
      obtain ⟨hresult, herror⟩ : raw.get "result" = none ∧ raw.get "error" = none := by
        simpa using hresponse
      obtain ⟨method, rfl, ⟨rawId, id, hid, hread, hnull, rfl⟩ | ⟨hid, rfl⟩⟩ :=
        parseCall_eq_ok_iff.mp h
      · exact .request hversion hid hread hnull hmethod hresult herror
      · exact .notification hversion hid hmethod hresult herror
    · next rawMethod rawId hid hresponse =>
      obtain ⟨id, hread, ⟨rawError, obj, herror, hobj, rfl⟩ | ⟨herror, rfl⟩⟩ :=
        parseResponse_eq_ok_iff.mp h
      · exact .error hversion hid hread herror hobj
      · obtain ⟨result, hresult⟩ : ∃ result, raw.get "result" = some result := by
          simpa [herror, Option.isSome_iff_exists] using hresponse
        rw [hresult, Option.getD_some]
        exact .success hversion hid hread hresult herror
    · cases h
  · intro h
    cases h with
    | request hversion hid hread hnull hmethod hresult herror =>
        rw [parseSingle_of_hasVersion serde hversion]
        simp only [hid, hmethod, hresult, herror, Option.isSome_none, Bool.or_self]
        exact parseCall_eq_ok_iff.mpr ⟨_, rfl, .inl ⟨_, _, hid, hread, hnull, rfl⟩⟩
    | notification hversion hid hmethod hresult herror =>
        rw [parseSingle_of_hasVersion serde hversion]
        simp only [hid, hmethod, hresult, herror, Option.isSome_none, Bool.or_self]
        exact parseCall_eq_ok_iff.mpr ⟨_, rfl, .inr ⟨hid, rfl⟩⟩
    | success hversion hid hread hresult herror =>
        rw [parseSingle_of_hasVersion serde hversion]
        simp only [hid, hresult, Option.isSome_some, Bool.true_or]
        exact parseResponse_eq_ok_iff.mpr ⟨_, hread, .inr ⟨herror, by simp [hresult]⟩⟩
    | error hversion hid hread herror hobj =>
        rw [parseSingle_of_hasVersion serde hversion]
        simp only [hid, herror, Option.isSome_some, Bool.or_true]
        exact parseResponse_eq_ok_iff.mpr ⟨_, hread, .inl ⟨_, _, herror, hobj, rfl⟩⟩

/-- A parsed value is a single message or a non-empty array of single messages. -/
theorem parse_eq_ok_iff {serde : SerdeJson} {raw : Value} {m : JsonRpcMessage} :
    parse serde raw = .ok m ↔ Accepts raw m ∨
      ∃ arr ms, raw = .array arr ∧ arr ≠ [] ∧ m = .batch ms ∧ List.Forall₂ Accepts arr ms := by
  unfold parse
  cases raw with
  | array arr =>
      have hnot : ¬ Accepts (.array arr) m := by
        rintro (⟨hversion, -⟩ | ⟨hversion, -⟩ | ⟨hversion, -⟩ | ⟨hversion, -⟩) <;> cases hversion
      have hsingle : (fun x y => parseSingle serde x = .ok y) = Accepts := by
        ext x y
        exact parseSingle_eq_ok_iff
      cases harr : arr.isEmpty with
      | true =>
          obtain rfl := List.isEmpty_iff.mp harr
          simp [Value.asArray, hnot]
      | false =>
          have hne : arr ≠ [] := by simpa using harr
          simp only [Value.asArray, harr, Bool.false_eq_true, if_false, bind_eq_ok_iff,
            mapM_eq_ok_iff, hsingle, hnot, false_or]
          constructor
          · rintro ⟨ms, hms, hm⟩
            exact ⟨arr, ms, rfl, hne, by cases hm; rfl, hms⟩
          · rintro ⟨arr', ms, harr', -, rfl, hms⟩
            obtain rfl := Value.array.inj harr'
            exact ⟨ms, hms, rfl⟩
  | _ => simp [Value.asArray, parseSingle_eq_ok_iff]

/-! ## The round trip -/

/-- A single message that the parser can produce. -/
def Wire : JsonRpcMessage → Prop
  | request id _ _ => id ≠ .null
  | notification _ _ => True
  | success _ _ => True
  | error _ err => err.DataOk
  | batch _ => False

/-- A message that the parser can produce. -/
def Canonical : JsonRpcMessage → Prop
  | batch ms => ms ≠ [] ∧ ∀ m ∈ ms, m.Wire
  | m => m.Wire

theorem Wire.canonical {m : JsonRpcMessage} (h : m.Wire) : m.Canonical := by
  cases m with
  | batch ms => exact h.elim
  | _ => exact h

theorem Accepts.wire {raw : Value} {m : JsonRpcMessage} (h : Accepts raw m) : m.Wire := by
  cases h with
  | request _ _ _ hnull => exact hnull
  | notification => trivial
  | success => trivial
  | error _ _ _ _ hobj => exact JsonRpcErrorObj.dataOk_of_fromValue hobj

/-- The encoder writes what the parser reads as the same message. -/
theorem Wire.accepts_toValue {m : JsonRpcMessage} (h : m.Wire) : Accepts m.toValue m := by
  cases m with
  | batch ms => exact h.elim
  | success id result =>
      rw [toValue]
      exact .success rfl rfl id.fromValue_toValue rfl rfl
  | error id err =>
      rw [toValue]
      exact .error rfl rfl id.fromValue_toValue rfl (JsonRpcErrorObj.fromValue_toValue h)
  | request id method params =>
      cases params with
      | none =>
          rw [toValue]
          exact .request rfl rfl id.fromValue_toValue h rfl rfl rfl
      | some p =>
          rw [toValue]
          exact .request rfl rfl id.fromValue_toValue h rfl rfl rfl
  | notification method params =>
      cases params with
      | none =>
          rw [toValue]
          exact .notification rfl rfl rfl rfl rfl
      | some p =>
          rw [toValue]
          exact .notification rfl rfl rfl rfl rfl

theorem canonical_of_parse {serde : SerdeJson} {raw : Value} {m : JsonRpcMessage}
    (h : parse serde raw = .ok m) : m.Canonical := by
  rcases parse_eq_ok_iff.mp h with haccepts | ⟨arr, ms, rfl, hne, rfl, hms⟩
  · exact haccepts.wire.canonical
  · refine ⟨fun hnil => hne ?_, fun m hm => ?_⟩
    · subst hnil
      exact List.forall₂_nil_right_iff.mp hms
    · obtain ⟨i, hi, rfl⟩ := List.mem_iff_getElem.mp hm
      exact (hms.get (hms.length_eq ▸ hi) hi).wire

theorem parse_toValue_of_canonical (serde : SerdeJson) {m : JsonRpcMessage} (h : m.Canonical) :
    parse serde m.toValue = .ok m := by
  rw [parse_eq_ok_iff]
  cases m with
  | batch ms =>
      obtain ⟨hne, hwire⟩ := h
      refine .inr ⟨ms.map toValue, ms, by rw [toValue], by simpa using hne, rfl, ?_⟩
      rw [List.forall₂_map_left_iff, List.forall₂_same]
      exact fun m hm => (hwire m hm).accepts_toValue
  | _ => exact .inl (Wire.accepts_toValue h)

/-- Encoding and parsing are inverse on what the parser produces, and that is every request with an
id other than null, every notification, every success, every error whose data is not `null`, and
every non-empty batch of these. -/
theorem parse_toValue (serde : SerdeJson) :
    (∀ raw m, parse serde raw = .ok m → parse serde m.toValue = .ok m) ∧
      ∀ m : JsonRpcMessage, m.Canonical → parse serde m.toValue = .ok m :=
  ⟨fun _ _ h => parse_toValue_of_canonical serde (canonical_of_parse h),
    fun _ h => parse_toValue_of_canonical serde h⟩

/-- A reader that knows one text. -/
def serdeOf (text : String) (value : Value) : SerdeJson :=
  { fromStr := fun s => if s = text then .ok value else .error "expected value at line 1 column 1"
    malformed := fun _ => "invalid type: null, expected struct JsonRpcErrorObj" }

theorem fromStr_serdeOf (text : String) (value : Value) :
    (serdeOf text value).fromStr text = .ok value := if_pos rfl

/-- A batch with a smallest and a greatest id. -/
def limitsBatch : JsonRpcMessage :=
  .batch [.request (.integer Int64.minValue) "ping" (some .null),
    .request (.integer Int64.maxValue) "tools/list" none]

theorem parse_toValue_limitsBatch :
    parse (serdeOf "" .null) limitsBatch.toValue = .ok limitsBatch :=
  (parse_toValue (serdeOf "" .null)).2 limitsBatch (by simp [limitsBatch, Canonical, Wire])

end JsonRpcMessage

end McpShield
