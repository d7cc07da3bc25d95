import Mathlib.Data.List.Forall2
import McpShield.Protocol.Json

/-!
# Errors

Every failure of the gateway is an `McpError`; each variant carries a message and has a JSON-RPC
error code.
-/

namespace McpShield

/-- The outcome of a check followed by a computation. -/
theorem bind_eq_ok_iff {ε α β : Type} {x : Except ε α} {f : α → Except ε β} {b : β} :
    (x >>= f) = .ok b ↔ ∃ a, x = .ok a ∧ f a = .ok b := by
  cases x <;> simp [bind, Except.bind]

theorem mapError_eq_ok_iff {ε ε' α : Type} {x : Except ε α} {f : ε → ε'} {a : α} :
    x.mapError f = .ok a ↔ x = .ok a := by
  cases x <;> simp [Except.mapError]

theorem mapM_eq_ok_iff {ε α β : Type} {f : α → Except ε β} {xs : List α} {ys : List β} :
    xs.mapM f = .ok ys ↔ List.Forall₂ (fun x y => f x = .ok y) xs ys := by
  induction xs generalizing ys with
  | nil =>
    simp only [List.mapM_nil, pure, Except.pure, Except.ok.injEq, List.forall₂_nil_left_iff]
    exact eq_comm
  | cons x xs ih =>
    rw [List.mapM_cons, bind_eq_ok_iff]
    simp only [bind_eq_ok_iff, pure, Except.pure, Except.ok.injEq, List.forall₂_cons_left_iff, ih]
    constructor
    · rintro ⟨y, hy, ys', hys, rfl⟩
      exact ⟨y, ys', hy, hys, rfl⟩
    · rintro ⟨y, ys', hy, hys, rfl⟩
      exact ⟨y, hy, ys', hys, rfl⟩

theorem mapM_eq_some_iff {α β : Type} {f : α → Option β} {xs : List α} {ys : List β} :
    xs.mapM f = some ys ↔ List.Forall₂ (fun x y => f x = some y) xs ys := by
  induction xs generalizing ys with
  | nil => simp [eq_comm]
  | cons x xs ih =>
    simp only [List.mapM_cons, Option.bind_eq_bind, Option.bind_eq_some_iff, Option.pure_def,
      Option.some.injEq, List.forall₂_cons_left_iff, ih]
    constructor
    · rintro ⟨y, hy, ys', hys, rfl⟩
      exact ⟨y, ys', hy, hys, rfl⟩
    · rintro ⟨y, ys', hy, hys, rfl⟩
      exact ⟨y, hy, ys', hys, rfl⟩

/-- The computation succeeds where it does on each element. -/
theorem exists_mapM {α β : Type} {f : α → Option β} {xs : List α}
    (h : ∀ x ∈ xs, ∃ y, f x = some y) : ∃ ys, xs.mapM f = some ys := by
  induction xs with
  | nil => exact ⟨[], rfl⟩
  | cons x xs ih =>
    obtain ⟨⟨y, hy⟩, hxs⟩ := List.forall_mem_cons.mp h
    obtain ⟨ys, hys⟩ := ih hxs
    exact ⟨y :: ys, mapM_eq_some_iff.mpr (.cons hy (mapM_eq_some_iff.mp hys))⟩

def parseErrorCode : Int64 := -32700
def invalidRequestCode : Int64 := -32600
def methodNotFoundCode : Int64 := -32601
def invalidParamsCode : Int64 := -32602
def internalErrorCode : Int64 := -32603
def unauthorizedCode : Int64 := -32001
def scopeDeniedCode : Int64 := -32002
def schemaInvalidCode : Int64 := -32003
def registryCollisionCode : Int64 := -32004
def sessionLockedCode : Int64 := -32005
def epcaViolationCode : Int64 := -32006

/-- The error type of the gateway. -/
inductive McpError where
  | parseError (msg : String)
  | invalidRequest (msg : String)
  | methodNotFound (msg : String)
  | invalidParams (msg : String)
  | internalError (msg : String)
  | unauthorized (msg : String)
  | scopeDenied (msg : String)
  | schemaInvalid (msg : String)
  | registryCollision (msg : String)
  | sessionLocked (msg : String)
  | ecpaViolation (msg : String)
  | jwtError (msg : String)
  | oauthError (msg : String)
  | transportError (msg : String)
  | upstreamError (msg : String)
deriving DecidableEq, Repr

namespace McpError

/-- The JSON-RPC error code of a variant. -/
def code : McpError → Int64
  | parseError _ => parseErrorCode
  | invalidRequest _ => invalidRequestCode
  | methodNotFound _ => methodNotFoundCode
  | invalidParams _ => invalidParamsCode
  | internalError _ => internalErrorCode
  | unauthorized _ => unauthorizedCode
  | scopeDenied _ => scopeDeniedCode
  | schemaInvalid _ => schemaInvalidCode
  | registryCollision _ => registryCollisionCode
  | sessionLocked _ => sessionLockedCode
  | ecpaViolation _ => epcaViolationCode
  | jwtError _ => unauthorizedCode
  | oauthError _ => unauthorizedCode
  | transportError _ => internalErrorCode
  | upstreamError _ => internalErrorCode

/-- The `Display` text of an error. -/
def display : McpError → String
  | parseError m => s!"Parse error: {m}"
  | invalidRequest m => s!"Invalid request: {m}"
  | methodNotFound m => s!"Method not found: {m}"
  | invalidParams m => s!"Invalid params: {m}"
  | internalError m => s!"Internal error: {m}"
  | unauthorized m => s!"Unauthorized: {m}"
  | scopeDenied m => s!"Scope denied: {m}"
  | schemaInvalid m => s!"Schema validation failed: {m}"
  | registryCollision m => s!"Registry collision: {m}"
  | sessionLocked m => s!"Session locked: {m}"
  | ecpaViolation m => s!"ePCA constraint violation: {m}"
  | jwtError m => s!"JWT error: {m}"
  | oauthError m => s!"OAuth error: {m}"
  | transportError m => s!"Transport error: {m}"
  | upstreamError m => s!"Upstream error: {m}"

end McpError

/-- A JSON-RPC request id. -/
inductive RequestId where
  | string (s : String)
  | integer (n : Int64)
  | null
deriving DecidableEq, Repr

namespace RequestId

/-- The `Display` text of an id. -/
def display : RequestId → String
  | string s => s
  | integer n => toString n.toInt
  | null => "null"

/-- The id as a JSON value. -/
def toValue : RequestId → Value
  | string s => .string s
  | integer n => .ofInt n
  | null => .null

end RequestId

end McpShield
