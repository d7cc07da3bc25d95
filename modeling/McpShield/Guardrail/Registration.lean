import McpShield.Error
import McpShield.Guardrail.Ecpa
import McpShield.Lib.Machine

/-!
# Registering constraint sets

The predicates of a set are compiled before anything is stored.  So a set that is stored is
compiled, and its evaluation does not fail: `evaluation_of_registrations` says what it reports after
any registrations.
-/

namespace McpShield

namespace RuleEcpaGuardrail

variable {E : RegexEngine}

/-- The guardrail as a machine that registers constraint sets. -/
def ecpaMachine : Machine (RuleEcpaGuardrail E) (ToolConstraint E) (Except EcpaError Unit) where
  step G constraints :=
    match G.registerConstraints constraints with
    | .ok G' => (.ok (), G')
    | .error e => (.error e, G)

/-- The constraint set of the last registration of a tool that has succeeded. -/
def lastRegistered (toolName : String) (calls : List (ToolConstraint E)) :
    Option (ToolConstraint E) :=
  ((calls.zip (ecpaMachine.answers new calls)).filter fun call =>
    call.2.isOk && call.1.toolName == toolName).getLast?.map Prod.fst

/-- The set as it is stored. -/
def compiledSet (constraints : ToolConstraint E) : Option (ToolConstraint E) :=
  (constraints.predicates.mapM compilePredicateRegex).toOption.map fun predicates =>
    { constraints with predicates }

/-! ## What is stored -/

section Stored

variable {G : RuleEcpaGuardrail E} {c : ToolConstraint E} {ps : List (Predicate E)}
  {toolName : String} {calls : List (ToolConstraint E)}

theorem step_of_error {e : EcpaError}
    (h : c.predicates.mapM compilePredicateRegex = .error e) :
    ecpaMachine.step G c = (.error e, G) := by
  simp only [ecpaMachine, registerConstraints, h]
  rfl

theorem step_of_ok (h : c.predicates.mapM compilePredicateRegex = .ok ps) :
    ecpaMachine.step G c =
      (.ok (), { constraints := G.constraints.insert c.toolName { c with predicates := ps } }) := by
  simp only [ecpaMachine, registerConstraints, h]
  rfl

/-- A registration that fails changes nothing. -/
theorem step_error {e : EcpaError} (h : (ecpaMachine.step G c).1 = .error e) :
    (ecpaMachine.step G c).2 = G := by
  cases hps : c.predicates.mapM compilePredicateRegex with
  | error e' => rw [step_of_error hps]
  | ok ps =>
    rw [step_of_ok hps] at h
    cases h

theorem step_snd (G : RuleEcpaGuardrail E) (c : ToolConstraint E) :
    (ecpaMachine.step G c).2 = G.registerOrKeep c := by
  unfold registerOrKeep
  simp only [ecpaMachine]
  cases G.registerConstraints c <;> rfl

/-- The shipped guardrail has registered the shipped sets. -/
theorem withDefaults_eq_run : (withDefaults : RuleEcpaGuardrail E) =
    ecpaMachine.run new [fsRead, fsWrite, shellExec, netRequest] := by
  simp only [Machine.run_cons, Machine.run_nil, step_snd]
  rfl

theorem lastRegistered_concat :
    lastRegistered toolName (calls ++ [c]) =
      if (ecpaMachine.step (ecpaMachine.run new calls) c).1.isOk ∧ c.toolName = toolName then some c
      else lastRegistered toolName calls := by
  unfold lastRegistered
  rw [Machine.zip_answers_concat, List.filter_append]
  split_ifs with h
  · simp [h]
  · rw [List.filter_cons_of_neg (by simpa using h), List.filter_nil, List.append_nil]

/-- A tool has no last registration exactly when none has succeeded. -/
theorem lastRegistered_eq_none : lastRegistered toolName calls = none ↔
    ∀ c, (c, .ok ()) ∈ calls.zip (ecpaMachine.answers new calls) → c.toolName ≠ toolName := by
  rw [lastRegistered, Option.map_eq_none_iff, List.getLast?_eq_none_iff, List.filter_eq_nil_iff]
  constructor
  · intro h c hc htool
    exact h (c, .ok ()) hc (by simp [htool, Except.isOk, Except.toBool])
  · rintro h ⟨c, _ | ⟨⟨⟩⟩⟩ hc
    · simp [Except.isOk, Except.toBool]
    · simpa [Except.isOk, Except.toBool] using h c hc

/-- What is stored for a tool is its last registration, compiled. -/
theorem lookup_run (toolName : String) (calls : List (ToolConstraint E)) :
    (ecpaMachine.run new calls).constraints.lookup toolName =
      (lastRegistered toolName calls).bind compiledSet := by
  induction calls using List.reverseRecOn with
  | nil => rfl
  | append_singleton calls c ih =>
    rw [Machine.run_append, lastRegistered_concat, Machine.run_cons, Machine.run_nil]
    cases hps : c.predicates.mapM compilePredicateRegex with
    | error e =>
      rw [step_of_error hps, if_neg fun h => Bool.false_ne_true h.1]
      exact ih
    | ok ps =>
      rw [step_of_ok hps]
      by_cases htool : c.toolName = toolName
      · subst htool
        rw [if_pos ⟨rfl, rfl⟩, Option.bind_some, compiledSet, hps]
        exact AList.lookup_insert _
      · rw [if_neg fun h => htool h.2, ← ih]
        exact AList.lookup_insert_ne (Ne.symm htool)

/-- The last registration of a tool has compiled. -/
theorem exists_compiled_of_lastRegistered (h : lastRegistered toolName calls = some c) :
    ∃ ps, c.predicates.mapM compilePredicateRegex = .ok ps := by
  induction calls using List.reverseRecOn with
  | nil => cases h
  | append_singleton calls c' ih =>
    rw [lastRegistered_concat] at h
    split_ifs at h with hlast
    · obtain rfl := Option.some.inj h
      cases hps : c'.predicates.mapM compilePredicateRegex with
      | ok ps => exact ⟨ps, rfl⟩
      | error e =>
        rw [step_of_error hps] at hlast
        exact absurd hlast.1 Bool.false_ne_true
    · exact ih h

/-! ## What is evaluated -/

/-- What an evaluation of the set `c` reports: the evaluation of each of its predicates, compiled, in
order; it is satisfied when the required ones are. -/
structure Reports (c : ToolConstraint E) (arguments : Value) (result : ConstraintResult) : Prop where
  evaluations : List.Forall₂ (fun p reported => ∃ p', compilePredicateRegex p = .ok p' ∧
    reported = evaluation p' arguments) c.predicates result.evaluations
  satisfied : result.satisfied = true ↔ ∀ reported ∈ c.predicates.zip result.evaluations,
    reported.1.required = true → reported.2.satisfied = true

theorem required_of_compile {p p' : Predicate E} (h : compilePredicateRegex p = .ok p') :
    p'.required = p.required := by
  unfold compilePredicateRegex at h
  split_ifs at h
  · rw [Except.ok.inj h]
  · split at h
    · rw [Except.ok.inj h]
    · split at h
      · rw [← Except.ok.inj h]
      · cases h

theorem reports_constraintResult (h : c.predicates.mapM compilePredicateRegex = .ok ps)
    (arguments : Value) : Reports c arguments (constraintResult ps arguments) := by
  have hcompiled := mapM_eq_ok_iff.mp h
  constructor
  case evaluations =>
    rw [constraintResult, List.forall₂_map_right_iff]
    exact hcompiled.imp fun p p' hp => ⟨p', hp, rfl⟩
  case satisfied =>
    simp only [constraintResult, List.all_eq_true]
    generalize c.predicates = registered at hcompiled
    clear h
    induction hcompiled with
    | nil => simp
    | @cons p p' rest rest' hp _ ih =>
      rw [List.map_cons, List.zip_cons_cons, List.forall_mem_cons, List.forall_mem_cons, ih,
        required_of_compile hp]
      refine and_congr_left fun _ => ?_
      cases p.required <;> simp [evaluation]

theorem evaluateConstraints_run (toolName : String) (calls : List (ToolConstraint E))
    (arguments : Value) :
    (ecpaMachine.run new calls).evaluateConstraints toolName arguments =
      match (lastRegistered toolName calls).bind compiledSet with
      | none => .error (.unknownTool toolName)
      | some stored => .ok (constraintResult stored.predicates arguments) := by
  rw [evaluateConstraints, lookup_run]
  cases hlast : lastRegistered toolName calls with
  | none => rfl
  | some c =>
    obtain ⟨ps, hps⟩ := exists_compiled_of_lastRegistered hlast
    simp only [Option.bind_some, compiledSet, hps, Except.toOption, Option.map_some,
      mapM_compile_compiled hps]
    rfl

end Stored

/-- After any registrations, one that fails changes nothing, an evaluation fails exactly when no
registration of the tool has succeeded, and otherwise it reports on the last one that has. -/
theorem evaluation_of_registrations (calls : List (ToolConstraint E)) :
    (∀ c e, (ecpaMachine.step (ecpaMachine.run new calls) c).1 = .error e →
      (ecpaMachine.step (ecpaMachine.run new calls) c).2 = ecpaMachine.run new calls) ∧
    ∀ toolName arguments,
      ((∃ e, (ecpaMachine.run new calls).evaluateConstraints toolName arguments = .error e) ↔
        ∀ c, (c, .ok ()) ∈ calls.zip (ecpaMachine.answers new calls) → c.toolName ≠ toolName) ∧
      ∀ c, lastRegistered toolName calls = some c →
        ∃ result, (ecpaMachine.run new calls).evaluateConstraints toolName arguments = .ok result ∧
          Reports c arguments result := by
  refine ⟨fun c e h => step_error h, fun toolName arguments => ?_⟩
  rw [← lastRegistered_eq_none, evaluateConstraints_run]
  cases hlast : lastRegistered toolName calls with
  | none => simp
  | some c =>
    obtain ⟨ps, hps⟩ := exists_compiled_of_lastRegistered hlast
    have hset : compiledSet c = some { c with predicates := ps } := by
      rw [compiledSet, hps]
      rfl
    simp only [Option.bind_some, hset, reduceCtorEq, exists_false, Option.some.injEq, true_and]
    rintro c' rfl
    exact ⟨_, rfl, reports_constraintResult hps arguments⟩

end RuleEcpaGuardrail

end McpShield
