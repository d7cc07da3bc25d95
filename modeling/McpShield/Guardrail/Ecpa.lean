import Mathlib.Data.List.AList
import McpShield.Error
import McpShield.Guardrail.Basic
import McpShield.Guardrail.Engine
import McpShield.Lib.Path

/-!
# The constraint guardrail

Each critical tool has a set of predicates on the fields of its arguments.  A predicate with a
regular expression is decided by its first field.
-/

namespace McpShield

/-- A predicate of a constraint set. -/
structure Predicate (E : RegexEngine) where
  name : String
  fields : List String
  expression : String
  required : Bool
  compiledRegex : Option E.Regex

/-- The constraints of a tool. -/
structure ToolConstraint (E : RegexEngine) where
  toolName : String
  description : String
  predicates : List (Predicate E)
  blockOnViolation : Bool

/-- The guardrail with its constraint sets by tool name. -/
structure RuleEcpaGuardrail (E : RegexEngine) where
  constraints : AList fun _ : String => ToolConstraint E

variable {E : RegexEngine}

namespace RuleEcpaGuardrail

def new : RuleEcpaGuardrail E := { constraints := ∅ }

/-! ## Compiling predicates -/

/-- The items of a comma-separated list as alternatives. -/
def alternatives (expression : String) : String :=
  "|".intercalate ((Str.split expression ',').map Str.trim)

/-- The pattern of a predicate; `none` for a predicate that is decided without one. -/
def regexPattern (name expression : String) : Option String :=
  match name with
  | "regex_matches" | "not_matches" => some expression
  | "path_within_root" =>
      let escaped := Str.replace (Regex.escape expression) "\\/" "/"
      some s!"^{escaped}(.*)?$"
  | "no_path_traversal" => some expression
  | "not_system_path" => some expression
  | "command_in_allowlist" =>
      let commands := alternatives expression
      some s!"^({commands})$"
  | "no_dangerous_patterns" => some expression
  | "url_host_in_allowlist" =>
      let hosts := alternatives expression
      some s!"^https?://({hosts})"
  | "url_scheme_allowed" =>
      let escaped := Regex.escape expression
      some s!"^{escaped}"
  | _ => none

/-- Compile the pattern of a predicate, if it has one and is not compiled yet. -/
def compilePredicateRegex (predicate : Predicate E) : Except EcpaError (Predicate E) :=
  if predicate.compiledRegex.isSome then .ok predicate
  else
    match regexPattern predicate.name predicate.expression with
    | none => .ok predicate
    | some pattern =>
        match E.new pattern with
        | .ok regex => .ok { predicate with compiledRegex := some regex }
        | .error e => .error (.regexError s!"Failed to compile regex '{pattern}': {e}")

/-- Register the constraints of a tool. -/
def registerConstraints (G : RuleEcpaGuardrail E) (constraints : ToolConstraint E) :
    Except EcpaError (RuleEcpaGuardrail E) :=
  (constraints.predicates.mapM compilePredicateRegex).map fun predicates =>
    { constraints := G.constraints.insert constraints.toolName { constraints with predicates } }

/-- Register a constraint set unless it does not compile. -/
def registerOrKeep (G : RuleEcpaGuardrail E) (constraints : ToolConstraint E) :
    RuleEcpaGuardrail E :=
  (G.registerConstraints constraints).toOption.getD G

/-! ## The shipped constraint sets -/

/-- A required predicate. -/
def requiredPredicate (name : String) (fields : List String) (expression : String) :
    Predicate E :=
  { name, fields, expression, required := true, compiledRegex := none }

def fsRead : ToolConstraint E where
  toolName := "fs:read"
  description := "Filesystem read operations must stay within allowed roots"
  predicates := [requiredPredicate "path_within_root" ["path"] "/allowed/roots/",
    requiredPredicate "no_path_traversal" ["path"] "^\\.\\."]
  blockOnViolation := true

def fsWrite : ToolConstraint E where
  toolName := "fs:write"
  description := "Filesystem write operations must stay within allowed roots"
  predicates := [requiredPredicate "path_within_root" ["path"] "/allowed/roots/",
    requiredPredicate "no_path_traversal" ["path"] "^\\.\\.",
    requiredPredicate "not_system_path" ["path"] "^(/etc|/sys|/proc|/boot|/dev|/root)"]
  blockOnViolation := true

def shellExec : ToolConstraint E where
  toolName := "shell:exec"
  description := "Shell commands must be in the allowlist"
  predicates := [
    requiredPredicate "command_in_allowlist" ["command"]
      "ls,cat,echo,grep,find,git,cargo,rustc,npm,python3,node",
    requiredPredicate "no_dangerous_patterns" ["command", "args"]
      "(rm\\s+-rf|dd\\s+if=|mkfs|:\\(\\)\\\x7b:\\\x7d|chmod\\s+777|chown\\s+root)"]
  blockOnViolation := true

def netRequest : ToolConstraint E where
  toolName := "net:request"
  description := "Network requests must be to allowed domains"
  predicates := [
    requiredPredicate "url_host_in_allowlist" ["url"]
      "api.github.com,raw.githubusercontent.com,api.example.com",
    requiredPredicate "url_scheme_allowed" ["url"] "https"]
  blockOnViolation := true

def registerDefaultConstraints (G : RuleEcpaGuardrail E) : RuleEcpaGuardrail E :=
  (((G.registerOrKeep fsRead).registerOrKeep fsWrite).registerOrKeep shellExec).registerOrKeep
    netRequest

def withDefaults : RuleEcpaGuardrail E := new.registerDefaultConstraints

/-! ## Evaluation -/

/-- Whether a value satisfies a predicate that has no pattern. -/
def satisfiesPlain (name expression value : String) : Bool :=
  let literal := Str.trimMatches expression fun c => c == '\'' || c == '"'
  match name with
  | "starts_with" => Str.startsWith value literal
  | "ends_with" => Str.endsWith value literal
  | "equals" => value == literal
  | "not_equals" => value != literal
  | "length_le" => (Str.parseUsize expression).all fun n => Str.len value ≤ n
  | "length_ge" => (Str.parseUsize expression).all fun n => n ≤ Str.len value
  | _ => false

/-- The text a predicate is evaluated on. -/
def fieldText : Value → String
  | .string s => s
  | v => v.toJsonString

/-- Evaluate a predicate on some fields of the arguments.  With a pattern the first field decides. -/
def evaluateFields (predicate : Predicate E) (arguments : Value) : List String → Bool
  | [] => true
  | field :: fields =>
      match arguments.get field with
      | none => !predicate.required
      | some value =>
          match predicate.compiledRegex with
          | some regex =>
              match predicate.name with
              | "not_matches" | "no_path_traversal" | "not_system_path"
              | "no_dangerous_patterns" => !E.isMatch regex (fieldText value)
              | _ => E.isMatch regex (fieldText value)
          | none =>
              satisfiesPlain predicate.name predicate.expression (fieldText value) &&
                evaluateFields predicate arguments fields

/-- Evaluate a predicate. -/
def evaluatePredicate (predicate : Predicate E) (arguments : Value) : Bool :=
  evaluateFields predicate arguments predicate.fields

/-- The values of the fields, for the report. -/
def extractFieldValue (predicate : Predicate E) (arguments : Value) : String :=
  ", ".intercalate (predicate.fields.filterMap fun f => (arguments.get f).map Value.toJsonString)

/-- The report on a predicate. -/
def evaluation (predicate : Predicate E) (arguments : Value) : PredicateEvaluation :=
  let satisfied := evaluatePredicate predicate arguments
  { name := predicate.name
    satisfied
    value := extractFieldValue predicate arguments
    explanation :=
      if satisfied then s!"Predicate '{predicate.name}' satisfied"
      else s!"Predicate '{predicate.name}' violated: {predicate.expression}" }

/-- The result for compiled predicates. -/
def constraintResult (predicates : List (Predicate E)) (arguments : Value) : ConstraintResult :=
  let satisfied := predicates.all fun p => evaluatePredicate p arguments || !p.required
  { satisfied
    evaluations := predicates.map (evaluation · arguments)
    summary :=
      if satisfied then "All constraints satisfied"
      else "One or more required constraints violated" }

/-- Evaluate the constraints of a tool on the arguments of a call. -/
def evaluateConstraints (G : RuleEcpaGuardrail E) (toolName : String) (arguments : Value) :
    Except EcpaError ConstraintResult :=
  match G.constraints.lookup toolName with
  | none => .error (.unknownTool toolName)
  | some constraint =>
      (constraint.predicates.mapM compilePredicateRegex).map (constraintResult · arguments)

/-! ## What is evaluated -/

/-- A compiled predicate stays as it is. -/
theorem compile_compiled {p p' : Predicate E} (h : compilePredicateRegex p = .ok p') :
    compilePredicateRegex p' = .ok p' := by
  unfold compilePredicateRegex at h
  split_ifs at h with hsome
  · obtain rfl := Except.ok.inj h
    simp [compilePredicateRegex, hsome]
  · split at h
    · next hpattern =>
      obtain rfl := Except.ok.inj h
      simp [compilePredicateRegex, hsome, hpattern]
    · split at h
      · obtain rfl := Except.ok.inj h
        simp [compilePredicateRegex]
      · cases h

theorem mapM_compile_compiled {ps ps' : List (Predicate E)}
    (h : ps.mapM compilePredicateRegex = .ok ps') : ps'.mapM compilePredicateRegex = .ok ps' := by
  rw [mapM_eq_ok_iff] at h ⊢
  induction h with
  | nil => exact .nil
  | cons hp _ ih => exact .cons (compile_compiled hp) ih

variable {G : RuleEcpaGuardrail E} {c : ToolConstraint E} {toolName : String}

theorem lookup_registerOrKeep_ne (hne : toolName ≠ c.toolName) :
    (G.registerOrKeep c).constraints.lookup toolName = G.constraints.lookup toolName := by
  unfold registerOrKeep registerConstraints
  cases c.predicates.mapM compilePredicateRegex with
  | error e => rfl
  | ok ps => exact AList.lookup_insert_ne hne

theorem lookup_registerOrKeep {ps : List (Predicate E)}
    (h : c.predicates.mapM compilePredicateRegex = .ok ps) :
    (G.registerOrKeep c).constraints.lookup c.toolName = some { c with predicates := ps } := by
  unfold registerOrKeep registerConstraints
  rw [h]
  exact AList.lookup_insert _

theorem lookup_foldl_registerOrKeep_ne {cs : List (ToolConstraint E)}
    (hne : ∀ c ∈ cs, toolName ≠ c.toolName) :
    (cs.foldl registerOrKeep G).constraints.lookup toolName = G.constraints.lookup toolName := by
  induction cs generalizing G with
  | nil => rfl
  | cons c cs ih =>
    rw [List.forall_mem_cons] at hne
    rw [List.foldl_cons, ih hne.2, lookup_registerOrKeep_ne hne.1]

theorem lookup_foldl_registerOrKeep {cs : List (ToolConstraint E)} {ps : List (Predicate E)}
    (hnames : (cs.map (·.toolName)).Nodup) (hc : c ∈ cs)
    (h : c.predicates.mapM compilePredicateRegex = .ok ps) :
    (cs.foldl registerOrKeep G).constraints.lookup c.toolName =
      some { c with predicates := ps } := by
  induction cs generalizing G with
  | nil => cases hc
  | cons first cs ih =>
    rw [List.map_cons, List.nodup_cons] at hnames
    rcases List.mem_cons.mp hc with rfl | hmem
    · have hlater : ∀ d ∈ cs, c.toolName ≠ d.toolName := fun d hd heq =>
        hnames.1 (heq ▸ List.mem_map_of_mem hd)
      rw [List.foldl_cons, lookup_foldl_registerOrKeep_ne hlater]
      exact lookup_registerOrKeep h
    · exact ih hnames.2 hmem

/-- A shipped set that compiles is registered under its name. -/
theorem lookup_withDefaults {ps : List (Predicate E)}
    (hc : c ∈ [fsRead, fsWrite, shellExec, netRequest])
    (h : c.predicates.mapM compilePredicateRegex = .ok ps) :
    withDefaults.constraints.lookup c.toolName = some { c with predicates := ps } := by
  refine lookup_foldl_registerOrKeep ?_ hc h
  show ["fs:read", "fs:write", "shell:exec", "net:request"].Nodup
  decide

/-- A registered set is satisfied when its required predicates are. -/
theorem satisfied_iff {ps : List (Predicate E)}
    (h : c.predicates.mapM compilePredicateRegex = .ok ps)
    (hlookup : G.constraints.lookup toolName = some { c with predicates := ps })
    (arguments : Value) :
    (∃ result, G.evaluateConstraints toolName arguments = .ok result ∧ result.satisfied = true) ↔
      ∀ p ∈ ps, p.required = true → evaluatePredicate p arguments = true := by
  have heval : G.evaluateConstraints toolName arguments = .ok (constraintResult ps arguments) := by
    rw [evaluateConstraints, hlookup]
    simp only [mapM_compile_compiled h]
    rfl
  rw [heval]
  simp only [Except.ok.injEq, exists_eq_left', constraintResult, List.all_eq_true,
    Bool.or_eq_true, Bool.not_eq_true']
  refine forall₂_congr fun p _ => ?_
  cases p.required <;> simp

end RuleEcpaGuardrail

end McpShield
