import Mathlib.Data.List.AList
import McpShield.Protocol.Json

/-!
# Policy decisions

The interface of the Cedar authorizer.
-/

namespace McpShield

/-- `cedar_policy::Decision`. -/
inductive Decision where
  | allow
  | deny
deriving DecidableEq, Repr

/-- An authorization request. -/
structure AuthorizationRequest where
  principal : String
  action : String
  resource : String
  context : AList fun _ : String => Value

/-- An authorization response. -/
structure AuthorizationResponse where
  decision : Decision
  decidingPolicies : List String
  diagnostics : List String

/-- The errors of an authorizer. -/
inductive CedarError where
  | parseError (msg : String)
  | validationError (msg : String)
  | evaluationError (msg : String)
  | ioError (msg : String)

/-- The `Display` text of an error. -/
def CedarError.display : CedarError → String
  | parseError m => s!"Policy parse error: {m}"
  | validationError m => s!"Policy validation error: {m}"
  | evaluationError m => s!"Evaluation error: {m}"
  | ioError m => s!"IO error: {m}"

end McpShield
