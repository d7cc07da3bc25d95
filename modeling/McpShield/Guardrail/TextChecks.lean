import McpShield.Guardrail.Confinement
import McpShield.Guardrail.Interpretation
import McpShield.Lib.RegexParse

/-!
# Checks of a text

A set whose predicates all have a pattern and look at one field decides by the text there: each
pattern is searched in it.
-/

namespace McpShield

variable {E : RegexEngine}

open Predicate RuleEcpaGuardrail

/-- The predicate compiles, and the search of its pattern in the text comes out as its name asks. -/
def AdmitsText (E : RegexEngine) (name expression text : String) : Prop :=
  ∃ derived r, regexPattern name expression = some derived ∧ E.new derived = .ok r ∧
    (E.isMatch r text = true ↔ name ∉ rejections)

/-- The constraints of the tool are satisfied by arguments with a text in one field. -/
def SatisfiedBy (G : RuleEcpaGuardrail E) (toolName field text : String) : Prop :=
  ∃ result, G.evaluateConstraints toolName (oneField field text) = .ok result ∧
    result.satisfied = true

section Checks

variable {G G' : RuleEcpaGuardrail E} {c : ToolConstraint E} {field name expression : String}

theorem compile_requiredPredicate {p' : Predicate E}
    (hpattern : (regexPattern name expression).isSome = true)
    (h : compilePredicateRegex (requiredPredicate name [field] expression) = .ok p') :
    ∃ derived r, regexPattern name expression = some derived ∧ E.new derived = .ok r ∧
      p' = compiled name [field] expression r := by
  obtain ⟨hsome, -⟩ | ⟨-, hnone, -⟩ | ⟨derived, r, -, hderived, hr, rfl⟩ := compile_cases h
  · cases hsome
  · have hnone' : regexPattern name expression = none := hnone
    rw [hnone'] at hpattern
    cases hpattern
  · exact ⟨derived, r, hderived, hr, rfl⟩

/-- A compiled predicate is satisfied by a text that it admits. -/
theorem evaluatePredicate_oneField_iff {p' : Predicate E}
    (hpattern : (regexPattern name expression).isSome = true)
    (h : compilePredicateRegex (requiredPredicate name [field] expression) = .ok p')
    (text : String) :
    evaluatePredicate p' (oneField field text) = true ↔ AdmitsText E name expression text := by
  obtain ⟨derived, r, hderived, hr, rfl⟩ := compile_requiredPredicate hpattern h
  rw [evaluatePredicate_iff_fieldsMeet]
  refine ((fieldsMeet_oneField field text).trans (passes_of_compiled rfl text)).trans
    ⟨fun hmatch => ⟨derived, r, hderived, hr, hmatch⟩, ?_⟩
  rintro ⟨derived', r', hderived', hr', hmatch⟩
  obtain rfl : derived = derived' := Option.some.inj (hderived.symm.trans hderived')
  obtain rfl : r = r' := Except.ok.inj (hr.symm.trans hr')
  exact hmatch

/-- A registered predicate admits a text according to what its pattern stands for. -/
theorem exists_admits_iff (hE : E.Reads) : ∃ word : Char → Bool,
    ∀ {G G' : RuleEcpaGuardrail E} {c : ToolConstraint E} {field name expression derived e},
      G.registerConstraints c = .ok G' →
      requiredPredicate name [field] expression ∈ c.predicates →
      regexPattern name expression = some derived → Regex.parse derived = some e →
        ∀ text, AdmitsText E name expression text ↔
          (Regex.Found word e text.toList ↔ name ∉ rejections) := by
  obtain ⟨word, -, hreads⟩ := hE.isMatch_iff
  refine ⟨word, fun {_ _ _ field name expression derived e} hreg hmem hderived hparse text => ?_⟩
  have hpattern : (regexPattern name expression).isSome = true := by rw [hderived]; rfl
  obtain ⟨p', hp'⟩ := exists_compiled hreg hmem
  obtain ⟨derived', r, hderived', hr, -⟩ := compile_requiredPredicate hpattern hp'
  obtain rfl : derived = derived' := Option.some.inj (hderived.symm.trans hderived')
  have hfound := hreads derived e r hparse hr text
  constructor
  · rintro ⟨derived', r', hderived', hr', hadmits⟩
    obtain rfl : derived = derived' := Option.some.inj (hderived.symm.trans hderived')
    obtain rfl : r = r' := Except.ok.inj (hr.symm.trans hr')
    rwa [← hfound]
  · intro hadmits
    exact ⟨derived, r, hderived, hr, by rwa [hfound]⟩

/-- The stored predicates are the compiled ones of the set. -/
theorem lookup_registered (hreg : G.registerConstraints c = .ok G') : ∃ ps,
    c.predicates.mapM compilePredicateRegex = .ok ps ∧
      G'.constraints.lookup c.toolName = some { c with predicates := ps } := by
  unfold registerConstraints at hreg
  cases hps : c.predicates.mapM compilePredicateRegex with
  | error e =>
    rw [hps] at hreg
    cases hreg
  | ok ps =>
    rw [hps] at hreg
    obtain rfl := Except.ok.inj hreg
    exact ⟨ps, rfl, AList.lookup_insert _⟩

/-- A registered set of required predicates on one field is satisfied by the texts that all of them
admit. -/
theorem satisfiedBy_iff (hreg : G.registerConstraints c = .ok G')
    (hc : ∀ p ∈ c.predicates, p = requiredPredicate p.name [field] p.expression ∧
      (regexPattern p.name p.expression).isSome = true) (text : String) :
    SatisfiedBy G' c.toolName field text ↔
      ∀ p ∈ c.predicates, AdmitsText E p.name p.expression text := by
  obtain ⟨ps, hps, hlookup⟩ := lookup_registered hreg
  rw [SatisfiedBy, satisfied_iff hps hlookup]
  have hcompiled := mapM_eq_ok_iff.mp hps
  clear hps hlookup hreg
  generalize c.predicates = predicates at hc hcompiled
  induction hcompiled with
  | nil => simp
  | @cons p p' _ _ hp _ ih =>
    rw [List.forall_mem_cons] at hc
    obtain ⟨⟨heq, hpattern⟩, hothers⟩ := hc
    rw [heq] at hp
    have hrequired : p'.required = true := by
      obtain ⟨derived, r, -, -, rfl⟩ := compile_requiredPredicate hpattern hp
      rfl
    rw [List.forall_mem_cons, List.forall_mem_cons,
      ← evaluatePredicate_oneField_iff hpattern hp text]
    exact and_congr (imp_iff_right hrequired) (ih hothers)

end Checks

/-- A registered set of one predicate that asks for its pattern is satisfied where the pattern is
found. -/
theorem exists_satisfiedBy_iff_found (hE : E.Reads) : ∃ word : Char → Bool,
    ∀ {G G' : RuleEcpaGuardrail E} {c : ToolConstraint E} {field name expression derived e},
      G.registerConstraints c = .ok G' → c.predicates = [requiredPredicate name [field] expression] →
      name ∉ rejections → regexPattern name expression = some derived →
      Regex.parse derived = some e →
        ∀ text, SatisfiedBy G' c.toolName field text ↔ Regex.Found word e text.toList := by
  obtain ⟨word, hadmits⟩ := exists_admits_iff hE
  refine ⟨word, fun {_ _ c field name expression derived e} hreg hc hname hderived hparse text => ?_⟩
  have hmem : requiredPredicate name [field] expression ∈ c.predicates := by
    rw [hc]
    exact List.mem_singleton_self _
  have hpattern : ∀ p ∈ c.predicates, p = requiredPredicate p.name [field] p.expression ∧
      (regexPattern p.name p.expression).isSome = true := by
    rw [hc, List.forall_mem_singleton]
    refine ⟨rfl, ?_⟩
    show (regexPattern name expression).isSome = true
    rw [hderived]
    rfl
  rw [satisfiedBy_iff hreg hpattern, hc, List.forall_mem_singleton]
  exact (hadmits hreg hmem hderived hparse text).trans (iff_true_right hname)

end McpShield
