import Mathlib.Data.List.Basic
import Mathlib.Data.String.Basic
import McpShield.Lib.Str

/-!
# JSON values

The values of `serde_json`, with the accessors the gateway uses and the compact serializer.  Objects
keep their members in insertion order.
-/

namespace McpShield

/-- `serde_json::Number`.  A finite float is represented by the shortest decimal text that reads
back as it, which is the text the serializer prints. -/
inductive Number where
  | posInt (n : UInt64)
  | negInt (n : Int64)
  | float (text : String)
deriving DecidableEq, Repr

/-- `serde_json::Value`. -/
inductive Value where
  | null
  | bool (b : Bool)
  | number (n : Number)
  | string (s : String)
  | array (xs : List Value)
  | object (fields : List (String × Value))
deriving Repr

namespace Value

/-! ## Accessors -/

/-- The first member named `key`. -/
def findField (key : String) : List (String × Value) → Option Value
  | [] => none
  | (k, v) :: rest => if k = key then some v else findField key rest

/-- The members with the first one named `key` set to `v`. -/
def assignField (key : String) (v : Value) : List (String × Value) → List (String × Value)
  | [] => []
  | (k, w) :: rest => if k = key then (k, v) :: rest else (k, w) :: assignField key v rest

/-- `Value::get` with a string index. -/
def get (value : Value) (key : String) : Option Value :=
  match value with
  | object fields => findField key fields
  | _ => none

/-- `if let Some(field) = value.get_mut(key) { *field = v }`. -/
def assign (value : Value) (key : String) (v : Value) : Value :=
  match value with
  | object fields => object (assignField key v fields)
  | w => w

/-- `value[key] = v` on an object: the member is set, or added at the end. -/
def insert (value : Value) (key : String) (v : Value) : Value :=
  match value with
  | object fields =>
      match findField key fields with
      | some _ => object (assignField key v fields)
      | none => object (fields ++ [(key, v)])
  | w => w

/-- `Value::as_str`. -/
def asStr : Value → Option String
  | string s => some s
  | _ => none

/-- `Value::as_i64`: an integer within the range of an `i64`. -/
def asI64 : Value → Option Int64
  | number (.posInt n) => if n.toNat < 2 ^ 63 then some n.toInt64 else none
  | number (.negInt n) => some n
  | _ => none

/-- `Value::as_u64`. -/
def asU64 : Value → Option UInt64
  | number (.posInt n) => some n
  | _ => none

/-- `Value::as_array`. -/
def asArray : Value → Option (List Value)
  | array xs => some xs
  | _ => none

/-- `Value::is_object`. -/
def isObject : Value → Bool
  | object _ => true
  | _ => false

/-- Whether the value equals `json!(null)`. -/
def isNull : Value → Bool
  | null => true
  | _ => false

theorem isNull_iff {v : Value} : v.isNull = true ↔ v = null := by
  cases v <;> simp [isNull]

theorem asStr_eq_some_iff {v : Value} {s : String} : v.asStr = some s ↔ v = .string s := by
  cases v <;> simp [asStr]

/-- Only objects have members. -/
theorem exists_object_of_get {value v : Value} {key : String} (h : value.get key = some v) :
    ∃ fields, value = object fields := by
  cases value with
  | object fields => exact ⟨fields, rfl⟩
  | _ => cases h

/-- `json!({})`. -/
def emptyObject : Value := object []

/-- The JSON number of an `i64`. -/
def ofInt (n : Int64) : Value :=
  if n < 0 then number (.negInt n) else number (.posInt n.toUInt64)

@[simp] theorem asI64_ofInt (n : Int64) : (ofInt n).asI64 = some n := by
  unfold ofInt
  split
  · rfl
  · next hn =>
    have hnonneg : 0 ≤ n.toInt := by simpa [Int64.lt_iff_toInt_lt] using hn
    have hlt : n.toUInt64.toNat < 2 ^ 63 := by
      have hle := n.toInt_lt
      have hnat : (n.toUInt64.toNat : ℤ) = n.toInt := by
        have hbv := n.toBitVec.toInt_eq_toNat_cond
        have hint : n.toInt = n.toBitVec.toInt := rfl
        have hu : n.toUInt64.toNat = n.toBitVec.toNat := rfl
        rw [← hint] at hbv
        split at hbv <;> omega
      omega
    rw [asI64, if_pos hlt, Int64.toInt64_toUInt64]

/-- An array of JSON strings. -/
def ofStrings (ss : List String) : Value := array (ss.map string)

theorem findField_assignField_self {key : String} {v : Value} :
    ∀ {fields : List (String × Value)}, (findField key fields).isSome →
      findField key (assignField key v fields) = some v
  | [], h => by simp [findField] at h
  | (k, w) :: rest, h => by
      by_cases hk : k = key
      · simp [assignField, findField, hk]
      · have ih : findField key (assignField key v rest) = some v :=
          findField_assignField_self (by simpa [findField, hk] using h)
        simp [assignField, findField, hk, ih]

theorem findField_assignField_ne {key other : String} {v : Value} (hne : other ≠ key) :
    ∀ fields : List (String × Value),
      findField other (assignField key v fields) = findField other fields
  | [] => rfl
  | (k, w) :: rest => by
      have ih := findField_assignField_ne (v := v) hne rest
      by_cases hk : k = key
      · subst hk
        simp [assignField, findField, hne.symm]
      · simp only [assignField, if_neg hk, findField, ih]

theorem get_assign_self {key : String} {v w : Value} (h : (w.get key).isSome) :
    (w.assign key v).get key = some v := by
  cases w with
  | object fields => exact findField_assignField_self h
  | _ => simp [get] at h

theorem get_assign_ne {key other : String} {v w : Value} (hne : other ≠ key) :
    (w.assign key v).get other = w.get other := by
  cases w with
  | object fields => exact findField_assignField_ne hne fields
  | _ => rfl

/-! ## The serializer -/

/-- The hexadecimal digit of a number below 16. -/
def hexDigit (n : ℕ) : Char :=
  if n < 10 then Char.ofNat ('0'.toNat + n) else Char.ofNat ('a'.toNat + (n - 10))

/-- One character of a string literal. -/
def escapeChar (c : Char) : List Char :=
  if c = '"' then ['\\', '"']
  else if c = '\\' then ['\\', '\\']
  else if c.toNat = 8 then ['\\', 'b']
  else if c.toNat = 9 then ['\\', 't']
  else if c.toNat = 10 then ['\\', 'n']
  else if c.toNat = 12 then ['\\', 'f']
  else if c.toNat = 13 then ['\\', 'r']
  else if c.toNat < 32 then
    ['\\', 'u', '0', '0', hexDigit (c.toNat / 16), hexDigit (c.toNat % 16)]
  else [c]

/-- A string literal with its quotes. -/
def quote (s : String) : List Char := '"' :: (s.toList.flatMap escapeChar ++ ['"'])

/-- A number as the serializer prints it. -/
def numberChars : Number → List Char
  | .posInt n => (toString n.toNat).toList
  | .negInt n => (toString n.toInt).toList
  | .float text => text.toList

mutual

/-- The compact serialization of a value. -/
def toChars : Value → List Char
  | null => "null".toList
  | bool true => "true".toList
  | bool false => "false".toList
  | number n => numberChars n
  | string s => quote s
  | array xs => '[' :: elemsChars xs
  | object fields => '{' :: fieldsChars fields

/-- The elements of an array and its closing bracket. -/
def elemsChars : List Value → List Char
  | [] => [']']
  | [x] => toChars x ++ [']']
  | x :: y :: xs => toChars x ++ ',' :: elemsChars (y :: xs)

/-- The members of an object and its closing brace. -/
def fieldsChars : List (String × Value) → List Char
  | [] => ['}']
  | [(k, v)] => quote k ++ ':' :: toChars v ++ ['}']
  | (k, v) :: f :: fs => quote k ++ ':' :: toChars v ++ ',' :: fieldsChars (f :: fs)

end

/-- `serde_json::to_string`, also `Value::to_string`. -/
def toJsonString (v : Value) : String := String.ofList v.toChars

example : toJsonString (object [("a", array [null, bool true]), ("b", string "x\ny")]) =
    "\x7b\"a\":[null,true],\"b\":\"x\\ny\"\x7d" := by decide

end Value

end McpShield
