import McpShield.Protocol.Parse

/-!
# The grammar of messages

The four shapes of JSON-RPC 2.0, stated on JSON values alone, and how the parser compares with
them.  The parser is more lenient: it asks of a response only that it has an id and a result or an
error.
-/

namespace McpShield.JsonRpcMessage

/-! ## The grammar -/

/-- The shapes of a single message. -/
inductive Shape where
  | request
  | notification
  | success
  | error
deriving DecidableEq, Repr

/-- The id of a request: a string or an `i64` integer. -/
def IsRequestId (v : Value) : Prop := (∃ s, v = .string s) ∨ ∃ n, v.asI64 = some n

/-- The id of a response: `null` too. -/
def IsResponseId (v : Value) : Prop := IsRequestId v ∨ v = .null

/-- An object with an `i64` code and a string message. -/
def IsErrorObj (v : Value) : Prop :=
  v.isObject = true ∧ (∃ n, (v.get "code").bind Value.asI64 = some n) ∧
    ∃ s, v.get "message" = some (.string s)

/-- The object has one of the shapes. -/
structure HasShape (raw : Value) (shape : Shape) : Prop where
  isObject : raw.isObject = true
  version : raw.get "jsonrpc" = some (.string "2.0")
  fields : match shape with
    | .request => (∃ s, raw.get "method" = some (.string s)) ∧ raw.get "result" = none ∧
        raw.get "error" = none ∧ ∃ v, raw.get "id" = some v ∧ IsRequestId v
    | .notification => (∃ s, raw.get "method" = some (.string s)) ∧ raw.get "result" = none ∧
        raw.get "error" = none ∧ raw.get "id" = none
    | .success => (∃ v, raw.get "result" = some v) ∧ raw.get "error" = none ∧
        raw.get "method" = none ∧ ∃ v, raw.get "id" = some v ∧ IsResponseId v
    | .error => (∃ v, raw.get "error" = some v ∧ IsErrorObj v) ∧ raw.get "result" = none ∧
        raw.get "method" = none ∧ ∃ v, raw.get "id" = some v ∧ IsResponseId v

/-- A message of JSON-RPC 2.0, or a non-empty array of such messages. -/
def Grammatical (raw : Value) : Prop :=
  (∃ shape, HasShape raw shape) ∨
    ∃ arr, raw = .array arr ∧ arr ≠ [] ∧ ∀ item ∈ arr, ∃ shape, HasShape item shape

/-- The shape a single message stands for. -/
def shape? : JsonRpcMessage → Option Shape
  | request _ _ _ => some .request
  | notification _ _ => some .notification
  | success _ _ => some .success
  | error _ _ => some .error
  | batch _ => none

/-- The message is of the shape of the value, element by element in a batch. -/
def OfShape (raw : Value) (m : JsonRpcMessage) : Prop :=
  (∃ shape, HasShape raw shape ∧ m.shape? = some shape) ∨
    ∃ arr ms, raw = .array arr ∧ m = .batch ms ∧
      List.Forall₂ (fun item m => ∃ shape, HasShape item shape ∧ m.shape? = some shape) arr ms

/-- The parser treats the value as the grammar says. -/
def FollowsGrammar (serde : SerdeJson) (raw : Value) : Prop :=
  ((∃ m, parse serde raw = .ok m) ↔ Grammatical raw) ∧
    ∀ m, parse serde raw = .ok m → OfShape raw m

/-! ## Where the parser is lenient -/

/-- An error that is deserialized although it is the array of the fields of an error object. -/
def IsErrorArray (v : Value) : Prop :=
  ∃ code message data, v = .array [code, message, data] ∧ (∃ n, code.asI64 = some n) ∧
    ∃ s, message = .string s

/-- An object that is accepted and has none of the shapes: a response that also has a method, one
with a result and an error, or one whose error is an array. -/
structure Lenient (raw : Value) : Prop where
  version : raw.get "jsonrpc" = some (.string "2.0")
  id : ∃ v, raw.get "id" = some v ∧ IsResponseId v
  fields :
    ((∃ v, raw.get "result" = some v) ∧ raw.get "error" = none ∧
        ∃ v, raw.get "method" = some v) ∨
      ∃ e, raw.get "error" = some e ∧
        (IsErrorArray e ∨
          IsErrorObj e ∧
            ((∃ v, raw.get "method" = some v) ∨ ∃ v, raw.get "result" = some v))

/-- A value with a lenient message and no message that is refused. -/
def HasLenient (raw : Value) : Prop :=
  Lenient raw ∨ ∃ arr, raw = .array arr ∧ (∃ item ∈ arr, Lenient item) ∧
    ∀ item ∈ arr, Lenient item ∨ ∃ shape, HasShape item shape

/-! ## The shapes of accepted values -/

theorem isRequestId_iff {v : Value} :
    IsRequestId v ↔ ∃ id, RequestId.fromValue v = some id ∧ id ≠ .null := by
  cases v with
  | string s => simp [IsRequestId, RequestId.fromValue]
  | number n =>
      have hread : RequestId.fromValue (.number n) =
          (Value.number n).asI64.map RequestId.integer := rfl
      simp only [IsRequestId, hread, reduceCtorEq, exists_false, false_or, Option.map_eq_some_iff]
      constructor
      · rintro ⟨k, hk⟩
        exact ⟨.integer k, ⟨k, hk, rfl⟩, by simp⟩
      · rintro ⟨-, ⟨k, hk, rfl⟩, -⟩
        exact ⟨k, hk⟩
  | _ => simp [IsRequestId, RequestId.fromValue, Value.asI64]

theorem isResponseId_iff {v : Value} : IsResponseId v ↔ ∃ id, RequestId.fromValue v = some id := by
  unfold IsResponseId
  rw [isRequestId_iff]
  constructor
  · rintro (⟨id, hread, -⟩ | rfl)
    · exact ⟨id, hread⟩
    · exact ⟨.null, rfl⟩
  · rintro ⟨id, hread⟩
    by_cases hnull : id = .null
    · subst hnull
      refine .inr ?_
      cases v with
      | null => rfl
      | string s => cases hread
      | _ => simp [RequestId.fromValue] at hread
    · exact .inl ⟨id, hread, hnull⟩

theorem ofFields_isSome_iff {code message data : Option Value} :
    (∃ obj, JsonRpcErrorObj.fromValue.ofFields code message data = some obj) ↔
      (∃ n, code.bind Value.asI64 = some n) ∧ ∃ s, message.bind Value.asStr = some s := by
  simp only [JsonRpcErrorObj.fromValue.ofFields, Option.bind_eq_bind, Option.pure_def]
  cases code.bind Value.asI64 <;> cases message.bind Value.asStr <;> simp

theorem errorObj_iff {e : Value} :
    (∃ obj, JsonRpcErrorObj.fromValue e = some obj) ↔ IsErrorObj e ∨ IsErrorArray e := by
  unfold IsErrorObj IsErrorArray JsonRpcErrorObj.fromValue
  split
  · next code message data =>
    simp [ofFields_isSome_iff, Value.isObject, Value.asStr_eq_some_iff, and_comm]
  · next fields =>
    have hmessage : ∀ s, (Value.findField "message" fields).bind Value.asStr = some s ↔
        Value.findField "message" fields = some (.string s) := by
      intro s
      cases Value.findField "message" fields <;> simp [Value.asStr_eq_some_iff]
    simp [ofFields_isSome_iff, Value.isObject, Value.get, hmessage]
  · next harray hobject =>
    constructor
    · rintro ⟨_, h⟩
      cases h
    · rintro (⟨hobj, -⟩ | ⟨code, message, data, rfl, -⟩)
      · cases e with
        | object fields => exact (hobject fields rfl).elim
        | _ => cases hobj
      · exact (harray code message data rfl).elim

/-- An accepted object has a shape or is lenient. -/
theorem Accepts.shape_or_lenient {raw : Value} {m : JsonRpcMessage} (h : Accepts raw m) :
    (∃ shape, HasShape raw shape ∧ m.shape? = some shape) ∨ Lenient raw := by
  cases h with
  | request hversion hid hread hnull hmethod hresult herror =>
      exact .inl ⟨.request, ⟨isObject_of_get hversion, hversion, ⟨_, hmethod⟩, hresult, herror, _,
        hid, isRequestId_iff.mpr ⟨_, hread, hnull⟩⟩, rfl⟩
  | notification hversion hid hmethod hresult herror =>
      exact .inl ⟨.notification, ⟨isObject_of_get hversion, hversion, ⟨_, hmethod⟩, hresult, herror,
        hid⟩, rfl⟩
  | success hversion hid hread hresult herror =>
      have hresponse := isResponseId_iff.mpr ⟨_, hread⟩
      cases hmethod : raw.get "method" with
      | none => exact .inl ⟨.success, ⟨isObject_of_get hversion, hversion, ⟨_, hresult⟩, herror,
          hmethod, _, hid, hresponse⟩, rfl⟩
      | some method =>
          exact .inr ⟨hversion, ⟨_, hid, hresponse⟩, .inl ⟨⟨_, hresult⟩, herror, _, hmethod⟩⟩
  | error hversion hid hread herror hobj =>
      have hresponse := isResponseId_iff.mpr ⟨_, hread⟩
      rcases errorObj_iff.mp ⟨_, hobj⟩ with hobject | harray
      · cases hmethod : raw.get "method" with
        | some method => exact .inr ⟨hversion, ⟨_, hid, hresponse⟩,
            .inr ⟨_, herror, .inr ⟨hobject, .inl ⟨_, hmethod⟩⟩⟩⟩
        | none =>
            cases hresult : raw.get "result" with
            | some result => exact .inr ⟨hversion, ⟨_, hid, hresponse⟩,
                .inr ⟨_, herror, .inr ⟨hobject, .inr ⟨_, hresult⟩⟩⟩⟩
            | none => exact .inl ⟨.error, ⟨isObject_of_get hversion, hversion,
                ⟨_, herror, hobject⟩, hresult, hmethod, _, hid, hresponse⟩, rfl⟩
      · exact .inr ⟨hversion, ⟨_, hid, hresponse⟩, .inr ⟨_, herror, .inl harray⟩⟩

theorem HasShape.accepts {raw : Value} {shape : Shape} (h : HasShape raw shape) :
    ∃ m, Accepts raw m := by
  obtain ⟨-, hversion, hfields⟩ := h
  cases shape with
  | request =>
      obtain ⟨⟨method, hmethod⟩, hresult, herror, v, hid, hrequest⟩ := hfields
      obtain ⟨id, hread, hnull⟩ := isRequestId_iff.mp hrequest
      exact ⟨_, .request hversion hid hread hnull hmethod hresult herror⟩
  | notification =>
      obtain ⟨⟨method, hmethod⟩, hresult, herror, hid⟩ := hfields
      exact ⟨_, .notification hversion hid hmethod hresult herror⟩
  | success =>
      obtain ⟨⟨result, hresult⟩, herror, -, v, hid, hresponse⟩ := hfields
      obtain ⟨id, hread⟩ := isResponseId_iff.mp hresponse
      exact ⟨_, .success hversion hid hread hresult herror⟩
  | error =>
      obtain ⟨⟨e, herror, hobject⟩, -, -, v, hid, hresponse⟩ := hfields
      obtain ⟨id, hread⟩ := isResponseId_iff.mp hresponse
      obtain ⟨obj, hobj⟩ := errorObj_iff.mpr (.inl hobject)
      exact ⟨_, .error hversion hid hread herror hobj⟩

theorem Lenient.accepts {raw : Value} (h : Lenient raw) : ∃ m, Accepts raw m := by
  obtain ⟨hversion, ⟨v, hid, hresponse⟩, hfields⟩ := h
  obtain ⟨id, hread⟩ := isResponseId_iff.mp hresponse
  rcases hfields with ⟨⟨result, hresult⟩, herror, -⟩ | ⟨e, herror, hkind⟩
  · exact ⟨_, .success hversion hid hread hresult herror⟩
  · have hobject : IsErrorObj e ∨ IsErrorArray e := by
      rcases hkind with harray | ⟨hobject, -⟩
      · exact .inr harray
      · exact .inl hobject
    obtain ⟨obj, hobj⟩ := errorObj_iff.mpr hobject
    exact ⟨_, .error hversion hid hread herror hobj⟩

/-- A lenient object has none of the shapes. -/
theorem Lenient.not_hasShape {raw : Value} (h : Lenient raw) (shape : Shape) :
    ¬ HasShape raw shape := by
  rintro ⟨-, -, hfields⟩
  have harray : ∀ e, IsErrorArray e → ¬ IsErrorObj e := by
    rintro _ ⟨_, _, _, rfl, -⟩ ⟨hobj, -⟩
    cases hobj
  obtain ⟨-, ⟨v, hid, -⟩, ⟨⟨r, hresult⟩, herror, w, hmethod⟩ | ⟨e, herror, hkind⟩⟩ := h
  · cases shape <;> simp [hid, hresult, herror, hmethod] at hfields
  · cases shape with
    | error =>
        obtain ⟨⟨e', herror', hobject⟩, hresult, hmethod, -⟩ := hfields
        obtain rfl := Option.some.inj (herror.symm.trans herror')
        rcases hkind with harr | ⟨-, ⟨w, hsome⟩ | ⟨w, hsome⟩⟩
        · exact harray e harr hobject
        · simp [hmethod] at hsome
        · simp [hresult] at hsome
    | _ => simp [hid, herror] at hfields

theorem not_array_of_get {arr : List Value} {key : String} {v : Value} :
    (Value.array arr).get key ≠ some v := by
  simp [Value.get]

/-! ## The parser and the grammar -/

theorem exists_forall₂ {α β : Type} {R : α → β → Prop} {xs : List α}
    (h : ∀ x ∈ xs, ∃ y, R x y) : ∃ ys, List.Forall₂ R xs ys := by
  induction xs with
  | nil => exact ⟨[], .nil⟩
  | cons x xs ih =>
    obtain ⟨y, hy⟩ := h x (by simp)
    obtain ⟨ys, hys⟩ := ih fun x' hx' => h x' (by simp [hx'])
    exact ⟨y :: ys, .cons hy hys⟩

theorem exists_of_forall₂ {α β : Type} {R : α → β → Prop} {xs : List α} {ys : List β}
    (h : List.Forall₂ R xs ys) : ∀ x ∈ xs, ∃ y, R x y := by
  induction h with
  | nil => simp
  | cons hy _ ih =>
    intro x hx
    rcases List.mem_cons.mp hx with rfl | hx
    · exact ⟨_, hy⟩
    · exact ih x hx

/-- The value is parsed when each of its messages has a shape or is lenient. -/
theorem parse_of_accepts (serde : SerdeJson) {arr : List Value} (hne : arr ≠ [])
    (h : ∀ item ∈ arr, ∃ m, Accepts item m) : ∃ m, parse serde (.array arr) = .ok m := by
  obtain ⟨ms, hms⟩ := exists_forall₂ h
  exact ⟨.batch ms, parse_eq_ok_iff.mpr (.inr ⟨arr, ms, rfl, hne, rfl, hms⟩)⟩

/-- What is parsed, in terms of the value alone. -/
theorem exists_parse_iff {serde : SerdeJson} {raw : Value} :
    (∃ m, parse serde raw = .ok m) ↔ Grammatical raw ∨ HasLenient raw := by
  constructor
  · rintro ⟨m, hm⟩
    rcases parse_eq_ok_iff.mp hm with haccepts | ⟨arr, ms, rfl, hne, -, hms⟩
    · rcases haccepts.shape_or_lenient with ⟨shape, hshape, -⟩ | hlenient
      · exact .inl (.inl ⟨shape, hshape⟩)
      · exact .inr (.inl hlenient)
    · have hall : ∀ item ∈ arr, Lenient item ∨ ∃ shape, HasShape item shape := by
        intro item hitem
        obtain ⟨m, hm⟩ := exists_of_forall₂ hms item hitem
        rcases hm.shape_or_lenient with ⟨shape, hshape, -⟩ | hlenient
        · exact .inr ⟨shape, hshape⟩
        · exact .inl hlenient
      by_cases hlenient : ∃ item ∈ arr, Lenient item
      · exact .inr (.inr ⟨arr, rfl, hlenient, hall⟩)
      · exact .inl (.inr ⟨arr, rfl, hne, fun item hitem =>
          (hall item hitem).resolve_left fun h => hlenient ⟨item, hitem, h⟩⟩)
  · rintro ((⟨shape, hshape⟩ | ⟨arr, rfl, hne, hshapes⟩) | hlenient | ⟨arr, rfl, ⟨item, hitem, -⟩, hall⟩)
    · obtain ⟨m, hm⟩ := hshape.accepts
      exact ⟨m, parse_eq_ok_iff.mpr (.inl hm)⟩
    · refine parse_of_accepts serde hne fun item hitem => ?_
      obtain ⟨shape, hshape⟩ := hshapes item hitem
      exact hshape.accepts
    · obtain ⟨m, hm⟩ := hlenient.accepts
      exact ⟨m, parse_eq_ok_iff.mpr (.inl hm)⟩
    · refine parse_of_accepts serde (List.ne_nil_of_mem hitem) fun item hitem => ?_
      rcases hall item hitem with hlenient | ⟨shape, hshape⟩
      · exact hlenient.accepts
      · exact hshape.accepts

theorem not_grammatical_of_hasLenient {raw : Value} (h : HasLenient raw) : ¬ Grammatical raw := by
  rintro (⟨shape, hshape⟩ | ⟨arr, rfl, -, hshapes⟩)
  · rcases h with hlenient | ⟨arr, rfl, -⟩
    · exact hlenient.not_hasShape shape hshape
    · exact not_array_of_get hshape.version
  · rcases h with hlenient | ⟨arr', harr, ⟨item, hitem, hlenient⟩, -⟩
    · exact not_array_of_get hlenient.version
    · obtain rfl := Value.array.inj harr
      obtain ⟨shape, hshape⟩ := hshapes item hitem
      exact hlenient.not_hasShape shape hshape

/-- Without a lenient message, what is parsed is of its shape. -/
theorem ofShape_of_parse {serde : SerdeJson} {raw : Value} {m : JsonRpcMessage}
    (hstrict : ¬ HasLenient raw) (h : parse serde raw = .ok m) : OfShape raw m := by
  rcases parse_eq_ok_iff.mp h with haccepts | ⟨arr, ms, rfl, -, rfl, hms⟩
  · rcases haccepts.shape_or_lenient with hshape | hlenient
    · exact .inl hshape
    · exact absurd (.inl hlenient) hstrict
  · have hall : ∀ item ∈ arr, Lenient item ∨ ∃ shape, HasShape item shape := by
      intro item hitem
      obtain ⟨m, hm⟩ := exists_of_forall₂ hms item hitem
      rcases hm.shape_or_lenient with ⟨shape, hshape, -⟩ | hlenient
      · exact .inr ⟨shape, hshape⟩
      · exact .inl hlenient
    have hnone : ∀ item ∈ arr, ¬ Lenient item := fun item hitem hlenient =>
      hstrict (.inr ⟨arr, rfl, ⟨item, hitem, hlenient⟩, hall⟩)
    refine .inr ⟨arr, ms, rfl, rfl, ?_⟩
    refine List.Forall₂.imp (fun item m hm => ?_) ((List.forall₂_and_left _ _).mpr ⟨hnone, hms⟩)
    rcases hm.2.shape_or_lenient with hshape | hlenient
    · exact hshape
    · exact absurd hlenient hm.1

/-- The parser treats a value as the grammar says exactly when the value holds no lenient message
among messages that are accepted. -/
theorem followsGrammar_iff (serde : SerdeJson) (raw : Value) :
    FollowsGrammar serde raw ↔ ¬ HasLenient raw := by
  unfold FollowsGrammar
  rw [exists_parse_iff]
  constructor
  · rintro ⟨haccept, -⟩ hlenient
    exact not_grammatical_of_hasLenient hlenient (haccept.mp (.inr hlenient))
  · intro hstrict
    refine ⟨⟨?_, .inl⟩, fun m => ofShape_of_parse hstrict⟩
    rintro (hgrammar | hlenient)
    · exact hgrammar
    · exact absurd hlenient hstrict

/-- A request that also carries a result. -/
def requestWithResult : Value :=
  .object [("jsonrpc", .string "2.0"), ("id", .number (.posInt 1)),
    ("method", .string "tools/call"), ("result", .emptyObject)]

theorem requestWithResult_not_followsGrammar :
    parse (serdeOf "" .null) requestWithResult = .ok (.success (.integer 1) .emptyObject) ∧
      ¬ Grammatical requestWithResult ∧ ¬ FollowsGrammar (serdeOf "" .null) requestWithResult := by
  have hlenient : Lenient requestWithResult :=
    ⟨rfl, ⟨_, rfl, .inl (.inr ⟨1, rfl⟩)⟩, .inl ⟨⟨_, rfl⟩, rfl, _, rfl⟩⟩
  have hnot := not_grammatical_of_hasLenient (.inl hlenient)
  exact ⟨rfl, hnot, fun hfollows => hnot (hfollows.1.mp ⟨_, rfl⟩)⟩

end McpShield.JsonRpcMessage
