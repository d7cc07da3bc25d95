import McpShield.Guardrail.Ecpa

/-!
# Building constraint sets

The builder adds one predicate after the other.  Every constraint set is built by some calls of it.
-/

namespace McpShield

/-- Helper for building constraint sets programmatically. -/
structure ConstraintBuilder (E : RegexEngine) where
  constraints : ToolConstraint E

variable {E : RegexEngine}

namespace ConstraintBuilder

open RuleEcpaGuardrail (requiredPredicate)

/-- Start building a constraint set for a tool. -/
def new (toolName : String) : ConstraintBuilder E :=
  { constraints := { toolName, description := "", predicates := [], blockOnViolation := true } }

def description (b : ConstraintBuilder E) (desc : String) : ConstraintBuilder E :=
  { constraints := { b.constraints with description := desc } }

def blockOnViolation (b : ConstraintBuilder E) (block : Bool) : ConstraintBuilder E :=
  { constraints := { b.constraints with blockOnViolation := block } }

/-- Add a predicate. -/
def predicate (b : ConstraintBuilder E) (p : Predicate E) : ConstraintBuilder E :=
  { constraints := { b.constraints with predicates := b.constraints.predicates ++ [p] } }

def pathWithinRoot (b : ConstraintBuilder E) (field root : String) : ConstraintBuilder E :=
  b.predicate (requiredPredicate "path_within_root" [field] root)

/-- The pattern finds `..` anywhere in the path. -/
def noPathTraversal (b : ConstraintBuilder E) (field : String) : ConstraintBuilder E :=
  b.predicate (requiredPredicate "no_path_traversal" [field] "\\.\\.")

def commandInAllowlist (b : ConstraintBuilder E) (field commands : String) : ConstraintBuilder E :=
  b.predicate (requiredPredicate "command_in_allowlist" [field] commands)

def noDangerousPatterns (b : ConstraintBuilder E) (fields : List String) : ConstraintBuilder E :=
  b.predicate (requiredPredicate "no_dangerous_patterns" fields
    "(rm\\s+-rf|dd\\s+if=|mkfs|:\\(\\)\\\x7b:\\\x7d|chmod\\s+777|chown\\s+root)")

def urlHostInAllowlist (b : ConstraintBuilder E) (field hosts : String) : ConstraintBuilder E :=
  b.predicate (requiredPredicate "url_host_in_allowlist" [field] hosts)

def urlSchemeAllowed (b : ConstraintBuilder E) (field schemes : String) : ConstraintBuilder E :=
  b.predicate (requiredPredicate "url_scheme_allowed" [field] schemes)

/-- The predicate of `regex`. -/
def regexPredicate (name field pattern : String) (required : Bool) : Predicate E :=
  { name, fields := [field], expression := pattern, required, compiledRegex := none }

/-- Add a custom regex predicate. -/
def regex (b : ConstraintBuilder E) (name field pattern : String) (required : Bool) :
    ConstraintBuilder E :=
  b.predicate (regexPredicate name field pattern required)

/-- Build the constraint set. -/
def build (b : ConstraintBuilder E) : ToolConstraint E := b.constraints

end ConstraintBuilder

/-! ## Calls of the builder -/

/-- A call on the builder.  The methods for one kind of predicate are `predicate` with what they
add. -/
inductive BuilderCall (E : RegexEngine) where
  | description (desc : String)
  | blockOnViolation (block : Bool)
  | predicate (p : Predicate E)
  | regex (name field pattern : String) (required : Bool)

namespace BuilderCall

/-- Make the call. -/
def apply (b : ConstraintBuilder E) : BuilderCall E → ConstraintBuilder E
  | description desc => b.description desc
  | blockOnViolation block => b.blockOnViolation block
  | predicate p => b.predicate p
  | regex name field pattern required => b.regex name field pattern required

/-- The predicate that the call adds. -/
def added : BuilderCall E → Option (Predicate E)
  | predicate p => some p
  | regex name field pattern required =>
      some (ConstraintBuilder.regexPredicate name field pattern required)
  | _ => none

end BuilderCall

/-- The set that some calls build. -/
def built (toolName : String) (calls : List (BuilderCall E)) : ToolConstraint E :=
  (calls.foldl BuilderCall.apply (.new toolName)).build

theorem foldl_apply_constraints (b : ConstraintBuilder E) (calls : List (BuilderCall E)) :
    (calls.foldl BuilderCall.apply b).constraints.toolName = b.constraints.toolName ∧
      (calls.foldl BuilderCall.apply b).constraints.predicates =
        b.constraints.predicates ++ calls.filterMap BuilderCall.added := by
  induction calls generalizing b with
  | nil => exact ⟨rfl, (List.append_nil _).symm⟩
  | cons call calls ih =>
    obtain ⟨htool, hpredicates⟩ := ih (call.apply b)
    rw [List.foldl_cons, htool, hpredicates]
    cases call with
    | description | blockOnViolation => exact ⟨rfl, rfl⟩
    | predicate | regex => exact ⟨rfl, List.append_assoc _ [_] _⟩

@[simp] theorem built_toolName (toolName : String) (calls : List (BuilderCall E)) :
    (built toolName calls).toolName = toolName := (foldl_apply_constraints _ calls).1

/-- The predicates of a built set are those that are added, in order. -/
theorem built_predicates (toolName : String) (calls : List (BuilderCall E)) :
    (built toolName calls).predicates = calls.filterMap BuilderCall.added :=
  (foldl_apply_constraints _ calls).2

/-- Every constraint set is built by some calls. -/
theorem exists_built (c : ToolConstraint E) : ∃ calls, built c.toolName calls = c := by
  refine ⟨.description c.description :: .blockOnViolation c.blockOnViolation ::
    c.predicates.map .predicate, ?_⟩
  have hflag : ∀ (b : ConstraintBuilder E) (ps : List (Predicate E)),
      (ps.map BuilderCall.predicate).foldl BuilderCall.apply b =
        { constraints := { b.constraints with predicates := b.constraints.predicates ++ ps } } := by
    intro b ps
    induction ps generalizing b with
    | nil => simp
    | cons p ps ih =>
      rw [List.map_cons, List.foldl_cons, ih]
      simp [BuilderCall.apply, ConstraintBuilder.predicate]
  rw [built, List.foldl_cons, List.foldl_cons, hflag]
  rfl

end McpShield
