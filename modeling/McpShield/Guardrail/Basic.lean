import McpShield.Protocol.Json

/-!
# Guardrail interfaces

What the router exchanges with the constraint guardrail and the egress inspector.
-/

namespace McpShield

/-- The evaluation of one predicate. -/
structure PredicateEvaluation where
  name : String
  satisfied : Bool
  value : String
  explanation : String
deriving DecidableEq, Repr

/-- The result of a constraint evaluation. -/
structure ConstraintResult where
  satisfied : Bool
  evaluations : List PredicateEvaluation
  summary : String
deriving DecidableEq, Repr

/-- The errors of the constraint guardrail. -/
inductive EcpaError where
  | evaluationError (msg : String)
  | unknownTool (msg : String)
  | parseError (msg : String)
  | regexError (msg : String)
  | ioError (msg : String)
deriving DecidableEq, Repr

/-- The `Display` text of an error. -/
def EcpaError.display : EcpaError → String
  | evaluationError m => s!"Constraint evaluation error: {m}"
  | unknownTool m => s!"Unknown tool: {m}"
  | parseError m => s!"Predicate parse error: {m}"
  | regexError m => s!"Regex compilation error: {m}"
  | ioError m => s!"IO error: {m}"

/-- A tool result to be inspected. -/
structure InspectableResult where
  toolName : String
  content : List Value
  serverId : String

/-- The types of prompt injection patterns. -/
inductive PatternType where
  | systemOverride
  | dataExfiltration
  | hiddenInstruction
  | toolInvocation
  | suspiciousUrl
deriving DecidableEq, Repr

/-- A detected pattern: its type, the block and byte offset, and the start of the match. -/
structure InjectionPattern where
  patternType : PatternType
  location : String
  snippet : String
deriving DecidableEq, Repr

/-- The result of an inspection. -/
structure InspectionResult where
  modified : Bool
  sanitizedContent : List Value
  detectedPatterns : List InjectionPattern

/-- The errors of an egress inspector. -/
inductive GuardrailError where
  | inspectionError (msg : String)
  | patternError (msg : String)
deriving DecidableEq, Repr

end McpShield
