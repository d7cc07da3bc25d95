import McpShield.Guardrail.Ecpa

/-!
# The fields that are checked

A predicate lists fields, and its condition is meant for each of them.  With a compiled pattern only
the first field is looked at: `everyField_iff` says for which arguments the others make no
difference.
-/

namespace McpShield

variable {E : RegexEngine}

/-! ## The condition of a predicate -/

namespace Predicate

/-- The predicates that compare without a pattern. -/
def comparisons : List String :=
  ["starts_with", "ends_with", "equals", "not_equals", "length_le", "length_ge"]

/-- The predicates whose pattern must not be found. -/
def rejections : List String :=
  ["not_matches", "no_path_traversal", "not_system_path", "no_dangerous_patterns"]

/-- The condition of a predicate on the text of a field. -/
def Meets (p : Predicate E) (text : String) : Prop :=
  if p.name ∈ comparisons then
    RuleEcpaGuardrail.satisfiesPlain p.name p.expression text = true
  else if p.name ∈ rejections then
    ∃ regex, p.compiledRegex = some regex ∧ E.isMatch regex text = false
  else
    ∃ regex, p.compiledRegex = some regex ∧ E.isMatch regex text = true

/-- The field is present and its text has the property. -/
def FieldHas (arguments : Value) (property : String → Prop) (field : String) : Prop :=
  ∃ v, arguments.get field = some v ∧ property (RuleEcpaGuardrail.fieldText v)

/-- The check that is made of the text of a field. -/
def passes (p : Predicate E) (text : String) : Bool :=
  match p.compiledRegex with
  | some regex =>
      if p.name ∈ rejections then !E.isMatch regex text else E.isMatch regex text
  | none => RuleEcpaGuardrail.satisfiesPlain p.name p.expression text

/-- The fields that are looked at. -/
def lookedAt (p : Predicate E) : List String :=
  if p.compiledRegex.isSome then p.fields.take 1 else p.fields

/-- The fields that are not looked at for the condition: with a pattern all but the first, and every
field of a comparison, which is not made when its caller has given it a pattern. -/
def overlooked (p : Predicate E) : List String :=
  if p.compiledRegex.isSome then
    if p.name ∈ comparisons then p.fields else p.fields.drop 1
  else []

theorem satisfiesPlain_eq_false {name : String} (h : name ∉ comparisons) (expression text : String) :
    RuleEcpaGuardrail.satisfiesPlain name expression text = false := by
  simp only [comparisons, List.mem_cons, List.not_mem_nil, or_false, not_or] at h
  unfold RuleEcpaGuardrail.satisfiesPlain
  split <;> simp_all

/-- The check is the condition, except for a comparison with a pattern. -/
theorem passes_iff_meets {p : Predicate E} (h : p.name ∈ comparisons → p.compiledRegex = none)
    (text : String) : p.passes text = true ↔ p.Meets text := by
  by_cases hname : p.name ∈ comparisons
  · rw [Meets, if_pos hname, passes, h hname]
  · rw [Meets, if_neg hname, passes]
    cases p.compiledRegex with
    | none => simp [satisfiesPlain_eq_false hname]
    | some regex =>
      by_cases hreject : p.name ∈ rejections
      · simp [hreject]
      · simp [hreject]

theorem overlooked_subset {p : Predicate E} : p.overlooked ⊆ p.fields := by
  unfold overlooked
  split_ifs
  · exact List.Subset.refl _
  · exact List.drop_subset 1 p.fields
  · exact List.nil_subset _

/-- A field that is not overlooked has passed as its condition says. -/
theorem mem_fields_cases {p : Predicate E} {field : String} (h : field ∈ p.fields) :
    field ∈ p.overlooked ∨
      field ∈ p.lookedAt ∧ (p.name ∈ comparisons → p.compiledRegex = none) := by
  unfold overlooked lookedAt
  cases hregex : p.compiledRegex with
  | none => exact .inr ⟨by simpa using h, fun _ => rfl⟩
  | some regex =>
    by_cases hname : p.name ∈ comparisons
    · exact .inl (by simpa [hname] using h)
    · rw [← List.take_append_drop 1 p.fields, List.mem_append] at h
      rcases h with hfirst | hrest
      · exact .inr ⟨by simpa using hfirst, fun hc => absurd hc hname⟩
      · exact .inl (by simpa [hname] using hrest)

end Predicate

/-- The fields of a predicate meet a condition, in order.  An absent one ends the check: it fails a
predicate that is required. -/
def FieldsMeet (required : Bool) (arguments : Value) (meets : String → Prop) : List String → Prop
  | [] => True
  | field :: fields =>
      match arguments.get field with
      | none => required = false
      | some v => meets (RuleEcpaGuardrail.fieldText v) ∧ FieldsMeet required arguments meets fields

namespace RuleEcpaGuardrail

open Predicate

/-! ## What an evaluation looks at -/

/-- A predicate is satisfied when the fields that are looked at pass. -/
theorem evaluatePredicate_iff_fieldsMeet (p : Predicate E) (arguments : Value) :
    evaluatePredicate p arguments = true ↔
      FieldsMeet p.required arguments (p.passes · = true) p.lookedAt := by
  unfold evaluatePredicate lookedAt
  cases hregex : p.compiledRegex with
  | some regex =>
    simp only [Option.isSome_some, if_true]
    cases p.fields with
    | nil => simp [evaluateFields, FieldsMeet]
    | cons field fields =>
      simp only [List.take_succ_cons, List.take_zero, FieldsMeet, and_true]
      unfold evaluateFields
      cases arguments.get field with
      | none => simp
      | some v =>
        simp only [hregex, passes]
        split
        all_goals simp_all [rejections]
  | none =>
    simp only [Option.isSome_none, Bool.false_eq_true, if_false]
    induction p.fields with
    | nil => simp [evaluateFields, FieldsMeet]
    | cons field fields ih =>
      unfold evaluateFields FieldsMeet
      cases arguments.get field with
      | none => simp
      | some v => simp [hregex, passes, ih]

/-- The fields of a required predicate have to be present. -/
theorem fieldsMeet_required_iff {arguments : Value} {meets : String → Prop} {fields : List String} :
    FieldsMeet true arguments meets fields ↔ ∀ field ∈ fields, FieldHas arguments meets field := by
  induction fields with
  | nil => simp [FieldsMeet]
  | cons field fields ih =>
    rw [List.forall_mem_cons, ← ih, FieldsMeet, FieldHas]
    cases arguments.get field with
    | none => simp
    | some v => simp

/-- A required predicate is satisfied when the fields that are looked at pass. -/
theorem evaluatePredicate_iff {p : Predicate E} (hrequired : p.required = true)
    (arguments : Value) : evaluatePredicate p arguments = true ↔
      ∀ field ∈ p.lookedAt, FieldHas arguments (p.passes · = true) field := by
  rw [evaluatePredicate_iff_fieldsMeet, hrequired, fieldsMeet_required_iff]

/-! ## Registered sets -/

/-- The guardrails that registering constraint sets leads to. -/
inductive Built : RuleEcpaGuardrail E → Prop
  | new : Built new
  | register {G G' : RuleEcpaGuardrail E} {constraint : ToolConstraint E} (hG : Built G)
      (h : G.registerConstraints constraint = .ok G') : Built G'

theorem Built.registerOrKeep {G : RuleEcpaGuardrail E} (hG : Built G)
    (constraint : ToolConstraint E) : Built (G.registerOrKeep constraint) := by
  unfold RuleEcpaGuardrail.registerOrKeep
  cases h : G.registerConstraints constraint with
  | error e => exact hG
  | ok G' => exact .register hG h

theorem built_withDefaults : Built (withDefaults : RuleEcpaGuardrail E) :=
  (((Built.new.registerOrKeep fsRead).registerOrKeep fsWrite).registerOrKeep
    shellExec).registerOrKeep netRequest

/-- The predicates of a registered set are compiled. -/
theorem Built.compiled {G : RuleEcpaGuardrail E} (hG : Built G) {toolName : String}
    {constraint : ToolConstraint E} (hlookup : G.constraints.lookup toolName = some constraint) :
    constraint.predicates.mapM compilePredicateRegex = .ok constraint.predicates := by
  induction hG with
  | new => simp [RuleEcpaGuardrail.new] at hlookup
  | @register G G' registered hG h ih =>
    unfold registerConstraints at h
    cases hps : registered.predicates.mapM compilePredicateRegex with
    | error e =>
      rw [hps] at h
      cases h
    | ok ps =>
      rw [hps] at h
      obtain rfl := Except.ok.inj h
      by_cases htool : toolName = registered.toolName
      · subst htool
        rw [AList.lookup_insert] at hlookup
        obtain rfl := Option.some.inj hlookup
        exact mapM_compile_compiled hps
      · rw [AList.lookup_insert_ne htool] at hlookup
        exact ih hlookup

theorem Built.satisfied_iff {G : RuleEcpaGuardrail E} (hG : Built G) {toolName : String}
    {constraint : ToolConstraint E} (hlookup : G.constraints.lookup toolName = some constraint)
    (arguments : Value) :
    (∃ result, G.evaluateConstraints toolName arguments = .ok result ∧ result.satisfied = true) ↔
      ∀ p ∈ constraint.predicates, p.required = true →
        ∀ field ∈ p.lookedAt, FieldHas arguments (p.passes · = true) field := by
  rw [RuleEcpaGuardrail.satisfied_iff (hG.compiled hlookup) hlookup]
  exact forall₃_congr fun p _ hrequired => evaluatePredicate_iff hrequired arguments

/-! ## Every field -/

/-- Where the fields that are looked at pass, the overlooked ones meet their condition too. -/
def OverlookedMeet (constraint : ToolConstraint E) (arguments : Value) : Prop :=
  (∀ p ∈ constraint.predicates, p.required = true →
    ∀ field ∈ p.lookedAt, FieldHas arguments (p.passes · = true) field) →
  ∀ p ∈ constraint.predicates, p.required = true →
    ∀ field ∈ p.overlooked, FieldHas arguments p.Meets field

/-- Every field of every required predicate meets its condition in satisfied arguments exactly when
the overlooked fields make no difference. -/
theorem everyField_iff {G : RuleEcpaGuardrail E} (hG : Built G) {toolName : String}
    {constraint : ToolConstraint E} (hlookup : G.constraints.lookup toolName = some constraint)
    (arguments : Value) :
    (∀ result, G.evaluateConstraints toolName arguments = .ok result → result.satisfied = true →
      ∀ p ∈ constraint.predicates, p.required = true →
        ∀ field ∈ p.fields, FieldHas arguments p.Meets field) ↔
      OverlookedMeet constraint arguments := by
  have hsatisfied := hG.satisfied_iff hlookup arguments
  constructor
  · intro h hlooked p hp hrequired field hfield
    obtain ⟨result, heval, hsat⟩ := hsatisfied.mpr hlooked
    exact h result heval hsat p hp hrequired field (overlooked_subset hfield)
  · intro h result heval hsat p hp hrequired field hfield
    have hlooked := hsatisfied.mp ⟨result, heval, hsat⟩
    rcases mem_fields_cases hfield with hover | ⟨hlook, hplain⟩
    · exact h hlooked p hp hrequired field hover
    · obtain ⟨v, hv, hpass⟩ := hlooked p hp hrequired field hlook
      exact ⟨v, hv, (passes_iff_meets hplain _).mp hpass⟩

/-- Nothing is overlooked where a predicate with a pattern has one field and is no comparison. -/
theorem OverlookedMeet.of_single {constraint : ToolConstraint E}
    (h : ∀ p ∈ constraint.predicates, p.required = true → p.compiledRegex.isSome = true →
      p.fields.length ≤ 1 ∧ p.name ∉ comparisons) (arguments : Value) :
    OverlookedMeet constraint arguments := by
  intro _ p hp hrequired field hfield
  unfold overlooked at hfield
  split_ifs at hfield with hregex hname
  · exact absurd hname (h p hp hrequired hregex).2
  · rw [List.drop_of_length_le (h p hp hrequired hregex).1] at hfield
    cases hfield
  · cases hfield

/-! ## The shipped set of `shell:exec` -/

/-- The arguments of a call of `shell:exec`. -/
def shellArguments (command args : String) : Value :=
  .object [("command", .string command), ("args", .string args)]

/-- The predicates of `shell:exec`, compiled: the overlooked field of `git status` passes, and the
one of `git rm -rf /` does not, which no predicate sees. -/
theorem exists_compiled_shellExec : ∃ ps : List (Predicate .backtracking),
    shellExec.predicates.mapM compilePredicateRegex = .ok ps ∧
      (∀ p ∈ ps, ∀ field ∈ p.overlooked, p.name ∉ comparisons ∧
        FieldHas (shellArguments "git" "status") (p.passes · = true) field) ∧
      (∀ p ∈ ps, evaluatePredicate p (shellArguments "git" "rm -rf /") = true) ∧
      ∃ p ∈ ps, p.name = "no_dangerous_patterns" ∧ p.required = true ∧ "args" ∈ p.fields ∧
        p.passes "rm -rf /" = false := by
  have hrun : ((shellExec : ToolConstraint .backtracking).predicates.mapM
      compilePredicateRegex).toOption.any (fun ps =>
        (ps.all fun p => p.overlooked.all fun field => !(p.name ∈ comparisons) &&
          ((shellArguments "git" "status").get field).any fun v => p.passes (fieldText v)) &&
        (ps.all fun p => evaluatePredicate p (shellArguments "git" "rm -rf /")) &&
        ps.any fun p => p.name == "no_dangerous_patterns" && p.required &&
          p.fields.contains "args" && !p.passes "rm -rf /") = true := by
    decide +kernel
  cases hps : (shellExec : ToolConstraint .backtracking).predicates.mapM
      compilePredicateRegex with
  | error e => simp [hps, Except.toOption] at hrun
  | ok ps =>
    simp only [hps, Except.toOption, Option.any_some, Bool.and_eq_true, List.all_eq_true,
      Bool.not_eq_true', decide_eq_false_iff_not, List.any_eq_true, beq_iff_eq,
      List.contains_iff_mem] at hrun
    obtain ⟨⟨hstatus, hadmitted⟩, p, hp, ⟨⟨hname, hrequired⟩, hargs⟩, hfails⟩ := hrun
    refine ⟨ps, rfl, fun p hp field hfield => ?_, hadmitted, p, hp, hname, hrequired, hargs, hfails⟩
    obtain ⟨hplain, hpass⟩ := hstatus p hp field hfield
    exact ⟨hplain, (Option.any_eq_true _ _).mp hpass⟩

/-- A call with harmless arguments. -/
theorem everyField_status :
    ∃ constraint, (withDefaults : RuleEcpaGuardrail .backtracking).constraints.lookup "shell:exec" =
        some constraint ∧
      ∀ result, (withDefaults : RuleEcpaGuardrail .backtracking).evaluateConstraints "shell:exec"
          (shellArguments "git" "status") = .ok result → result.satisfied = true →
        ∀ p ∈ constraint.predicates, p.required = true →
          ∀ field ∈ p.fields, FieldHas (shellArguments "git" "status") p.Meets field := by
  obtain ⟨ps, hcompile, hstatus, -⟩ := exists_compiled_shellExec
  have hlookup := lookup_withDefaults (by simp) hcompile
  refine ⟨_, hlookup,
    (everyField_iff built_withDefaults hlookup _).mpr fun _ p hp _ field hfield => ?_⟩
  obtain ⟨hplain, v, hv, hpass⟩ := hstatus p hp field hfield
  exact ⟨v, hv, (passes_iff_meets (fun hname => absurd hname hplain) _).mp hpass⟩

/-- The second field of `no_dangerous_patterns` is not looked at: a dangerous argument of a harmless
command is admitted. -/
theorem dangerous_args_admitted :
    ∃ constraint, (withDefaults : RuleEcpaGuardrail .backtracking).constraints.lookup "shell:exec" =
        some constraint ∧
      ¬ ∀ result, (withDefaults : RuleEcpaGuardrail .backtracking).evaluateConstraints "shell:exec"
          (shellArguments "git" "rm -rf /") = .ok result → result.satisfied = true →
        ∀ p ∈ constraint.predicates, p.required = true →
          ∀ field ∈ p.fields, FieldHas (shellArguments "git" "rm -rf /") p.Meets field := by
  obtain ⟨ps, hcompile, -, hadmitted, p, hp, hname, hrequired, hargs, hfails⟩ :=
    exists_compiled_shellExec
  have hlookup := lookup_withDefaults (by simp) hcompile
  refine ⟨_, hlookup, fun h => ?_⟩
  obtain ⟨result, heval, hsat⟩ := (RuleEcpaGuardrail.satisfied_iff hcompile hlookup
    (shellArguments "git" "rm -rf /")).mpr fun p hp _ => hadmitted p hp
  obtain ⟨v, hv, hmeets⟩ := h result heval hsat p hp hrequired "args" hargs
  obtain rfl : Value.string "rm -rf /" = v := Option.some.inj hv
  have hplain : p.name ∈ comparisons → p.compiledRegex = none := by
    rw [hname]
    exact fun hc => absurd hc (by decide)
  rw [← passes_iff_meets hplain] at hmeets
  exact absurd (hmeets.symm.trans hfails) (by decide)

end RuleEcpaGuardrail

end McpShield
