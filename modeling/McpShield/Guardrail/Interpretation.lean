import McpShield.Error
import McpShield.Guardrail.Builder
import McpShield.Guardrail.FieldChecks

/-!
# What a registered predicate means

Registration compiles the patterns that the names of the predicates ask for, and accepts everything
else.  `interpreted_iff` says for which sets every predicate then means what it says: a custom regex
its pattern, and a length predicate its bound.
-/

namespace McpShield

variable {E : RegexEngine}

open Predicate RuleEcpaGuardrail

/-! ## The meaning of a predicate -/

/-- The names whose predicates have a pattern. -/
def patternNames : List String :=
  ["regex_matches", "not_matches", "path_within_root", "no_path_traversal", "not_system_path",
    "command_in_allowlist", "no_dangerous_patterns", "url_host_in_allowlist", "url_scheme_allowed"]

/-- Those whose pattern is the expression itself. -/
def directNames : List String :=
  ["regex_matches", "not_matches", "no_path_traversal", "not_system_path", "no_dangerous_patterns"]

/-- The names of the predicates on lengths. -/
def lengthNames : List String := ["length_le", "length_ge"]

/-- The text has the length that a length predicate asks for. -/
def LengthMeets (name : String) (n : ℕ) (text : String) : Prop :=
  if name = "length_le" then Str.len text ≤ n else n ≤ Str.len text

/-- Evaluation can interpret the predicate: its name is known or it brings a regex, and a length is
a number. -/
def Interpretable (p : Predicate E) : Prop :=
  (p.compiledRegex.isSome = true ∨ p.name ∈ patternNames ∨ p.name ∈ comparisons) ∧
    (p.name ∈ lengthNames → ∃ n, Str.parseUsize p.expression = some n)

/-- The guardrail has stored `p` of the set as `p'`. -/
def StoredAs (G : RuleEcpaGuardrail E) (c : ToolConstraint E) (p p' : Predicate E) : Prop :=
  ∃ stored, G.constraints.lookup c.toolName = some stored ∧
    (p, p') ∈ c.predicates.zip stored.predicates

/-- The predicates of a registered set mean what they say. -/
structure Interpreted (G : RuleEcpaGuardrail E) (toolName : String) (calls : List (BuilderCall E)) :
    Prop where
  interpretable : ∀ p ∈ (built toolName calls).predicates, Interpretable p
  regex : ∀ name field pattern required, .regex name field pattern required ∈ calls →
    ∃ r, E.new pattern = .ok r ∧
      ∀ p', StoredAs G (built toolName calls)
          (ConstraintBuilder.regexPredicate name field pattern required) p' →
        ∀ arguments, evaluatePredicate p' arguments = true ↔ FieldsMeet required arguments
          (fun text => E.isMatch r text = true ↔ name ∉ rejections) [field]
  length : ∀ p ∈ (built toolName calls).predicates, p.name ∈ lengthNames →
    ∃ n, Str.parseUsize p.expression = some n ∧ ∀ p', StoredAs G (built toolName calls) p p' →
      ∀ arguments, evaluatePredicate p' arguments = true ↔
        FieldsMeet p.required arguments (LengthMeets p.name n) p.fields

/-! ## The condition -/

/-- The text passes the check that is made under the name: the search of the pattern that is derived
from the expression, or a comparison. -/
def NamedCheck (E : RegexEngine) (name expression text : String) : Prop :=
  match regexPattern name expression with
  | some derived => ∃ r, E.new derived = .ok r ∧ E.isMatch r text = true
  | none => satisfiesPlain name expression text = true

/-- The pattern compiles, and if it is not what the name asks for, it matches what the check of the
name accepts. -/
def RegexReadable (E : RegexEngine) (name pattern : String) : Prop :=
  ∃ r, E.new pattern = .ok r ∧
    (name ∈ directNames ∨ ∀ text, E.isMatch r text = true ↔ NamedCheck E name pattern text)

/-- The regex that a caller has given a length predicate decides as the lengths do. -/
def GivenDecides (p : Predicate E) (n : ℕ) (regex : E.Regex) : Prop :=
  match p.fields with
  | [] => True
  | first :: others =>
      (∀ text, E.isMatch regex text = true ↔ LengthMeets p.name n text) ∧
        ((∀ field ∈ others, field = first) ∨
          p.required = false ∧ ∀ text, LengthMeets p.name n text)

/-- The sets that are interpreted once they are registered. -/
structure Readable (toolName : String) (calls : List (BuilderCall E)) : Prop where
  known : ∀ p ∈ (built toolName calls).predicates,
    p.compiledRegex.isSome = true ∨ p.name ∈ patternNames ∨ p.name ∈ comparisons
  regex : ∀ name field pattern required, .regex name field pattern required ∈ calls →
    RegexReadable E name pattern
  length : ∀ p ∈ (built toolName calls).predicates, p.name ∈ lengthNames →
    ∃ n, Str.parseUsize p.expression = some n ∧
      ∀ regex, p.compiledRegex = some regex → GivenDecides p n regex

/-! ## Evaluation -/

section Evaluation

variable {arguments : Value} {required : Bool} {meets meets' : String → Prop} {p p' : Predicate E}

theorem FieldsMeet.congr (h : ∀ text, meets text ↔ meets' text) (fields : List String) :
    FieldsMeet required arguments meets fields ↔ FieldsMeet required arguments meets' fields := by
  induction fields with
  | nil => exact Iff.rfl
  | cons field fields ih =>
    unfold FieldsMeet
    cases arguments.get field with
    | none => exact Iff.rfl
    | some v => exact and_congr (h _) ih

/-- The check of the first text that a pattern is for. -/
theorem passes_of_compiled {regex : E.Regex} (hregex : p.compiledRegex = some regex)
    (text : String) :
    p.passes text = true ↔ (E.isMatch regex text = true ↔ p.name ∉ rejections) := by
  unfold passes
  simp only [hregex]
  by_cases hname : p.name ∈ rejections
  · simp [hname]
  · simp [hname]

/-- Arguments with one field. -/
def oneField (field text : String) : Value := .object [(field, .string text)]

@[simp] theorem fieldsMeet_oneField (field text : String) :
    FieldsMeet required (oneField field text) meets [field] ↔ meets text := by
  simp [FieldsMeet, oneField, Value.get, Value.findField, fieldText]

/-- Conditions on one field agree on all arguments when they agree on all texts. -/
theorem fieldsMeet_singleton_iff (required : Bool) (field : String) :
    (∀ arguments, FieldsMeet required arguments meets [field] ↔
      FieldsMeet required arguments meets' [field]) ↔ ∀ text, meets text ↔ meets' text := by
  constructor
  · intro h text
    simpa using h (oneField field text)
  · exact fun h arguments => FieldsMeet.congr h [field]

end Evaluation

/-! ## Stored predicates -/

section Stored

variable {G G' : RuleEcpaGuardrail E} {c : ToolConstraint E} {p p' : Predicate E}

theorem exists_registered (h : ((G.registerConstraints c).toOption).isSome = true) :
    ∃ G', G.registerConstraints c = .ok G' := by
  cases hreg : G.registerConstraints c with
  | ok G' => exact ⟨G', rfl⟩
  | error e =>
    rw [hreg] at h
    cases h

theorem mem_zip_of_forall₂ {α β : Type} {f : α → Except EcpaError β} {xs : List α} {ys : List β}
    (h : List.Forall₂ (fun x y => f x = .ok y) xs ys) {x : α} {y : β} :
    (x, y) ∈ xs.zip ys ↔ x ∈ xs ∧ f x = .ok y := by
  induction h with
  | nil => simp
  | @cons x' y' xs ys hxy _ ih =>
    rw [List.zip_cons_cons, List.mem_cons, List.mem_cons, Prod.mk.injEq, ih]
    constructor
    · rintro (⟨rfl, rfl⟩ | ⟨hx, hy⟩)
      · exact ⟨.inl rfl, hxy⟩
      · exact ⟨.inr hx, hy⟩
    · rintro ⟨rfl | hx, hy⟩
      · exact .inl ⟨rfl, Except.ok.inj (hy.symm.trans hxy)⟩
      · exact .inr ⟨hx, hy⟩

/-- A predicate is stored compiled. -/
theorem storedAs_iff (hreg : G.registerConstraints c = .ok G') :
    StoredAs G' c p p' ↔ p ∈ c.predicates ∧ compilePredicateRegex p = .ok p' := by
  unfold registerConstraints at hreg
  cases hps : c.predicates.mapM compilePredicateRegex with
  | error e =>
    rw [hps] at hreg
    cases hreg
  | ok ps =>
    rw [hps] at hreg
    obtain rfl := Except.ok.inj hreg
    rw [StoredAs, AList.lookup_insert, ← mem_zip_of_forall₂ (mapM_eq_ok_iff.mp hps)]
    simp

theorem exists_compiled (hreg : G.registerConstraints c = .ok G') (hp : p ∈ c.predicates) :
    ∃ p', compilePredicateRegex p = .ok p' := by
  unfold registerConstraints at hreg
  cases hps : c.predicates.mapM compilePredicateRegex with
  | error e =>
    rw [hps] at hreg
    cases hreg
  | ok ps =>
    have hforall := mapM_eq_ok_iff.mp hps
    obtain ⟨p', hp'⟩ : ∃ p', (p, p') ∈ c.predicates.zip ps := by
      obtain ⟨i, hi, rfl⟩ := List.getElem_of_mem hp
      have hi' : i < ps.length := hforall.length_eq ▸ hi
      exact ⟨ps[i], List.mem_iff_getElem.mpr ⟨i, by simpa using ⟨hi, hi'⟩, List.getElem_zip⟩⟩
    exact ⟨p', ((mem_zip_of_forall₂ hforall).mp hp').2⟩

end Stored

/-! ## Custom regexes -/

section Regex

variable {name field pattern : String} {required : Bool} {p p' : Predicate E} {r : E.Regex}

theorem compile_cases (h : compilePredicateRegex p = .ok p') :
    p.compiledRegex.isSome = true ∧ p' = p ∨
      p.compiledRegex = none ∧ regexPattern p.name p.expression = none ∧ p' = p ∨
      ∃ derived r, p.compiledRegex = none ∧ regexPattern p.name p.expression = some derived ∧
        E.new derived = .ok r ∧ p' = { p with compiledRegex := some r } := by
  unfold compilePredicateRegex at h
  split_ifs at h with hsome
  · exact .inl ⟨hsome, (Except.ok.inj h).symm⟩
  · have hnone : p.compiledRegex = none := by simpa using hsome
    cases hpattern : regexPattern p.name p.expression with
    | none =>
      rw [hpattern] at h
      exact .inr (.inl ⟨hnone, rfl, (Except.ok.inj h).symm⟩)
    | some derived =>
      rw [hpattern] at h
      cases hr : E.new derived with
      | error e =>
        simp only [hr] at h
        cases h
      | ok r =>
        simp only [hr] at h
        exact .inr (.inr ⟨derived, r, hnone, rfl, hr, (Except.ok.inj h).symm⟩)

theorem rejections_subset : rejections ⊆ directNames := by decide

theorem regexPattern_of_direct (h : name ∈ directNames) (expression : String) :
    regexPattern name expression = some expression := by
  simp only [directNames, List.mem_cons, List.not_mem_nil, or_false] at h
  rcases h with rfl | rfl | rfl | rfl | rfl <;> rfl

theorem regexPattern_of_length (h : name ∈ lengthNames) (expression : String) :
    regexPattern name expression = none := by
  simp only [lengthNames, List.mem_cons, List.not_mem_nil, or_false] at h
  rcases h with rfl | rfl <;> rfl

/-- The predicate is stored with one field that is looked at. -/
theorem regexPredicate_stored
    (h : compilePredicateRegex (ConstraintBuilder.regexPredicate name field pattern required) =
      .ok p') :
    p'.name = name ∧ p'.required = required ∧ p'.lookedAt = [field] := by
  obtain ⟨hsome, -⟩ | ⟨-, -, rfl⟩ | ⟨derived, r, -, -, -, rfl⟩ := compile_cases h
  · cases hsome
  · exact ⟨rfl, rfl, rfl⟩
  · exact ⟨rfl, rfl, rfl⟩

/-- Under a name that rejects nothing the check of the name is made. -/
theorem passes_iff_namedCheck (hname : name ∉ rejections)
    (h : compilePredicateRegex (ConstraintBuilder.regexPredicate name field pattern required) =
      .ok p') (text : String) : p'.passes text = true ↔ NamedCheck E name pattern text := by
  obtain ⟨hsome, -⟩ | ⟨-, hpattern, rfl⟩ | ⟨derived, r, -, hpattern, hr, rfl⟩ := compile_cases h
  · cases hsome
  · have hpattern : regexPattern name pattern = none := hpattern
    unfold NamedCheck
    rw [hpattern]
    exact Iff.rfl
  · have hpattern : regexPattern name pattern = some derived := hpattern
    unfold NamedCheck
    rw [hpattern, passes_of_compiled rfl]
    simp only [hr, Except.ok.injEq, exists_eq_left']
    exact iff_true_right hname

/-- A custom regex is searched for exactly if its name asks for it, or the check of the name makes no
difference. -/
theorem regex_interpreted_iff (hr : E.new pattern = .ok r)
    (h : compilePredicateRegex (ConstraintBuilder.regexPredicate name field pattern required) =
      .ok p') :
    (∀ arguments, evaluatePredicate p' arguments = true ↔ FieldsMeet required arguments
        (fun text => E.isMatch r text = true ↔ name ∉ rejections) [field]) ↔
      (name ∈ directNames ∨ ∀ text, E.isMatch r text = true ↔ NamedCheck E name pattern text) := by
  obtain ⟨hname, hrequired, hlooked⟩ := regexPredicate_stored h
  simp only [evaluatePredicate_iff_fieldsMeet, hlooked, hrequired]
  rw [fieldsMeet_singleton_iff]
  by_cases hdirect : name ∈ directNames
  · refine iff_of_true (fun text => ?_) (.inl hdirect)
    have hpattern := regexPattern_of_direct hdirect pattern
    obtain ⟨hsome, -⟩ | ⟨-, hnone, -⟩ | ⟨derived, r', -, hderived, hr', rfl⟩ := compile_cases h
    · cases hsome
    · cases hpattern.symm.trans hnone
    · obtain rfl := Option.some.inj (hpattern.symm.trans hderived)
      obtain rfl := Except.ok.inj (hr.symm.trans hr')
      exact passes_of_compiled rfl text
  · have hreject : name ∉ rejections := fun hmem => hdirect (rejections_subset hmem)
    rw [or_iff_right hdirect]
    refine forall_congr' fun text => ?_
    rw [passes_iff_namedCheck hreject h]
    simp only [hreject, not_false_eq_true, iff_true]
    exact iff_comm

end Regex

/-! ## Lengths -/

section Length

variable {required : Bool} {meets meets' : String → Prop} {arguments : Value}
  {first : String} {others : List String}

/-- Fields that are present. -/
theorem fieldsMeet_of_present {fields : List String} {text : String → String}
    (h : ∀ field ∈ fields, (arguments.get field).map fieldText = some (text field)) :
    FieldsMeet required arguments meets fields ↔ ∀ field ∈ fields, meets (text field) := by
  induction fields with
  | nil => simp [FieldsMeet]
  | cons field fields ih =>
    rw [List.forall_mem_cons] at h ⊢
    obtain ⟨v, hv, htext⟩ := Option.map_eq_some_iff.mp h.1
    unfold FieldsMeet
    rw [hv, ← ih h.2, ← htext]

theorem fieldsMeet_of_optional (hall : ∀ text, meets text) (fields : List String) :
    FieldsMeet false arguments meets fields := by
  induction fields with
  | nil => trivial
  | cons field fields ih =>
    unfold FieldsMeet
    cases arguments.get field with
    | none => rfl
    | some v => exact ⟨hall _, ih⟩

/-- Arguments with one text in a field and another one in other fields. -/
def twoTexts (first text : String) (others : List String) (other : String) : Value :=
  .object ((first, .string text) :: others.map fun field => (field, .string other))

theorem get_twoTexts {field text other : String} (h : field ∈ first :: others) :
    ((twoTexts first text others other).get field).map fieldText =
      some (if field = first then text else other) := by
  simp only [twoTexts, Value.get, Value.findField]
  by_cases hfirst : field = first
  · simp [hfirst, fieldText]
  · have hmem : field ∈ others := (List.mem_cons.mp h).resolve_left hfirst
    rw [if_neg (Ne.symm hfirst), if_neg hfirst]
    clear h
    induction others with
    | nil => cases hmem
    | cons g others ih =>
      rw [List.map_cons, Value.findField]
      by_cases hg : g = field
      · rw [if_pos hg]
        rfl
      · rw [if_neg hg]
        exact ih ((List.mem_cons.mp hmem).resolve_left (Ne.symm hg))

theorem fieldsMeet_twoTexts_first (text other : String) :
    FieldsMeet required (twoTexts first text others other) meets [first] ↔ meets text := by
  simp [FieldsMeet, twoTexts, Value.get, Value.findField, fieldText]

theorem fieldsMeet_twoTexts (text other : String) :
    FieldsMeet required (twoTexts first text others other) meets (first :: others) ↔
      ∀ field ∈ first :: others, meets (if field = first then text else other) :=
  fieldsMeet_of_present fun _ hf => get_twoTexts hf

/-- A condition on the first field decides as one on all fields exactly if they agree, and the other
fields make no difference. -/
theorem first_decides_iff {witness : String} (hwitness : meets' witness) :
    (∀ arguments, FieldsMeet required arguments meets [first] ↔
      FieldsMeet required arguments meets' (first :: others)) ↔
    (∀ text, meets text ↔ meets' text) ∧
      ((∀ field ∈ others, field = first) ∨ required = false ∧ ∀ text, meets' text) := by
  constructor
  · intro h
    have hagree : ∀ text, meets text ↔ meets' text := by
      intro text
      have hiff := h (twoTexts first text others text)
      rw [fieldsMeet_twoTexts_first, fieldsMeet_twoTexts] at hiff
      simp only [ite_self, List.forall_mem_cons] at hiff
      exact hiff.trans (and_iff_left_of_imp fun hmeets _ _ => hmeets)
    refine ⟨hagree, ?_⟩
    by_contra hneither
    obtain ⟨hothers, hdepends⟩ := not_or.mp hneither
    simp only [not_forall] at hothers
    obtain ⟨field, hmem, hne⟩ := hothers
    cases required with
    | true =>
      have hmeets := (h (oneField first witness)).mp
        ((fieldsMeet_oneField first witness).mpr ((hagree witness).mpr hwitness))
      obtain ⟨v, hv, -⟩ := fieldsMeet_required_iff.mp hmeets field (List.mem_cons_of_mem _ hmem)
      simp [oneField, Value.get, Value.findField, Ne.symm hne] at hv
    | false =>
      obtain ⟨text, htext⟩ : ∃ text, ¬ meets' text := by
        by_contra hall
        exact hdepends ⟨rfl, fun text => not_not.mp fun htext => hall ⟨text, htext⟩⟩
      have hiff := h (twoTexts first witness others text)
      rw [fieldsMeet_twoTexts_first, fieldsMeet_twoTexts] at hiff
      have hfield := hiff.mp ((hagree witness).mpr hwitness) field (List.mem_cons_of_mem _ hmem)
      rw [if_neg hne] at hfield
      exact htext hfield
  · rintro ⟨hagree, hothers⟩ arguments
    rw [FieldsMeet.congr hagree [first]]
    unfold FieldsMeet
    cases hv : arguments.get first with
    | none => exact Iff.rfl
    | some v =>
      refine and_congr_right fun hmeets => iff_of_true trivial ?_
      rcases hothers with hsame | ⟨rfl, hall⟩
      · have hpresent : ∀ field ∈ others, (arguments.get field).map fieldText =
            some ((fun _ => fieldText v) field) := fun field hf => by
          rw [hsame field hf, hv]
          rfl
        exact (fieldsMeet_of_present hpresent).mpr fun _ _ => hmeets
      · exact fieldsMeet_of_optional hall others

variable {p p' : Predicate E} {name expression : String} {n : ℕ}

theorem satisfiesPlain_length (hname : name ∈ lengthNames)
    (hn : Str.parseUsize expression = some n) (text : String) :
    satisfiesPlain name expression text = true ↔ LengthMeets name n text := by
  simp only [lengthNames, List.mem_cons, List.not_mem_nil, or_false] at hname
  rcases hname with rfl | rfl <;> simp [satisfiesPlain, LengthMeets, hn]

theorem exists_lengthMeets (name : String) (n : ℕ) : ∃ text, LengthMeets name n text := by
  by_cases hname : name = "length_le"
  · refine ⟨"", ?_⟩
    rw [LengthMeets, if_pos hname]
    exact Nat.zero_le n
  · refine ⟨String.ofList (List.replicate n 'a'), ?_⟩
    rw [LengthMeets, if_neg hname]
    have hlength := Str.length_le_len (String.ofList (List.replicate n 'a'))
    rwa [String.toList_ofList, List.length_replicate] at hlength

/-- A length predicate with a number checks the lengths, unless it is given a regex that does not. -/
theorem length_interpreted_iff (hname : p.name ∈ lengthNames)
    (hn : Str.parseUsize p.expression = some n) (h : compilePredicateRegex p = .ok p') :
    (∀ arguments, evaluatePredicate p' arguments = true ↔
      FieldsMeet p.required arguments (LengthMeets p.name n) p.fields) ↔
    ∀ regex, p.compiledRegex = some regex → GivenDecides p n regex := by
  obtain rfl : p' = p := by
    obtain ⟨-, rfl⟩ | ⟨-, -, rfl⟩ | ⟨derived, r, -, hpattern, -, -⟩ := compile_cases h
    · rfl
    · rfl
    · cases (regexPattern_of_length hname _).symm.trans hpattern
  simp only [evaluatePredicate_iff_fieldsMeet]
  cases hregex : p'.compiledRegex with
  | none =>
    have hlooked : p'.lookedAt = p'.fields := by simp [lookedAt, hregex]
    have hpasses : ∀ text, p'.passes text = true ↔ LengthMeets p'.name n text := fun text => by
      rw [← satisfiesPlain_length hname hn, passes, hregex]
    rw [hlooked]
    exact iff_of_true (fun arguments => FieldsMeet.congr hpasses _) fun regex h => by cases h
  | some regex =>
    have hreject : p'.name ∉ rejections := by
      intro hmem
      simp only [lengthNames, List.mem_cons, List.not_mem_nil, or_false] at hname
      rcases hname with heq | heq <;> rw [heq] at hmem <;> exact absurd hmem (by decide)
    have hpasses : ∀ text, p'.passes text = true ↔ E.isMatch regex text = true := fun text => by
      rw [passes_of_compiled hregex]
      exact iff_true_right hreject
    have hlooked : p'.lookedAt = p'.fields.take 1 := by simp [lookedAt, hregex]
    simp only [hlooked, FieldsMeet.congr hpasses, Option.some.injEq, forall_eq', GivenDecides]
    cases p'.fields with
    | nil => simp [FieldsMeet]
    | cons first others =>
      obtain ⟨witness, hwitness⟩ := exists_lengthMeets p'.name n
      exact first_decides_iff hwitness

end Length

/-! ## Registered sets -/

section Registered

variable {G G' : RuleEcpaGuardrail E} {toolName : String} {calls : List (BuilderCall E)}

theorem mem_built_of_regex {name field pattern : String} {required : Bool}
    (h : .regex name field pattern required ∈ calls) :
    ConstraintBuilder.regexPredicate name field pattern required ∈
      (built toolName calls).predicates := by
  rw [built_predicates]
  exact List.mem_filterMap.mpr ⟨_, h, rfl⟩

/-- The predicates of a registered set mean what they say exactly if every name is known or comes
with a regex, the names of the custom regexes ask for them or make no difference, and the lengths
are numbers. -/
theorem interpreted_iff (hreg : G.registerConstraints (built toolName calls) = .ok G') :
    Interpreted G' toolName calls ↔ Readable toolName calls := by
  constructor
  · intro h
    constructor
    case known => exact fun p hp => (h.interpretable p hp).1
    case regex =>
      intro name field pattern required hcall
      have hmem : ConstraintBuilder.regexPredicate name field pattern required ∈
          (built toolName calls).predicates := mem_built_of_regex hcall
      obtain ⟨r, hr, hmeans⟩ := h.regex name field pattern required hcall
      obtain ⟨p', hp'⟩ := exists_compiled hreg hmem
      exact ⟨r, hr, (regex_interpreted_iff hr hp').mp
        (hmeans p' ((storedAs_iff hreg).mpr ⟨hmem, hp'⟩))⟩
    case length =>
      intro p hp hname
      obtain ⟨n, hn, hmeans⟩ := h.length p hp hname
      obtain ⟨p', hp'⟩ := exists_compiled hreg hp
      exact ⟨n, hn, (length_interpreted_iff hname hn hp').mp
        (hmeans p' ((storedAs_iff hreg).mpr ⟨hp, hp'⟩))⟩
  · intro h
    constructor
    case interpretable =>
      refine fun p hp => ⟨h.known p hp, fun hname => ?_⟩
      obtain ⟨n, hn, -⟩ := h.length p hp hname
      exact ⟨n, hn⟩
    case regex =>
      intro name field pattern required hcall
      obtain ⟨r, hr, hreads⟩ := h.regex name field pattern required hcall
      refine ⟨r, hr, fun p' hstored => ?_⟩
      exact (regex_interpreted_iff hr ((storedAs_iff hreg).mp hstored).2).mpr hreads
    case length =>
      intro p hp hname
      obtain ⟨n, hn, hgiven⟩ := h.length p hp hname
      refine ⟨n, hn, fun p' hstored => ?_⟩
      exact (length_interpreted_iff hname hn ((storedAs_iff hreg).mp hstored).2).mpr hgiven

end Registered

/-! ### Custom names -/

/-- A custom regex under a name that asks for it, and a bound on the length. -/
def codeCalls : List (BuilderCall .backtracking) :=
  [.regex "regex_matches" "code" "^[a-z]+$" true, .predicate (requiredPredicate "length_le"
    ["code"] "8")]

/-- A custom regex under a name of its own. -/
def customCalls : List (BuilderCall .backtracking) :=
  [.regex "code_format" "code" "^[a-z]+$" true]

theorem exists_registered_codeCalls : ∃ G' : RuleEcpaGuardrail .backtracking,
    RuleEcpaGuardrail.new.registerConstraints (built "lookup" codeCalls) = .ok G' :=
  exists_registered (by decide +kernel)

theorem interpreted_codeCalls : ∃ G', RuleEcpaGuardrail.new.registerConstraints
    (built "lookup" codeCalls) = .ok G' ∧
      (Interpreted G' "lookup" codeCalls ↔ Readable "lookup" codeCalls) := by
  obtain ⟨G', hreg⟩ := exists_registered_codeCalls
  exact ⟨G', hreg, interpreted_iff hreg⟩

/-- A set with an unknown name is registered, and its predicate is violated by a text that the
pattern matches. -/
theorem customCalls_not_interpreted : ∃ G', RuleEcpaGuardrail.new.registerConstraints
    (built "lookup" customCalls) = .ok G' ∧ ¬ Interpreted G' "lookup" customCalls := by
  obtain ⟨G', hreg⟩ : ∃ G', RuleEcpaGuardrail.new.registerConstraints
    (built "lookup" customCalls) = .ok G' := ⟨_, rfl⟩
  refine ⟨G', hreg, fun h => ?_⟩
  have hcall : .regex "code_format" "code" "^[a-z]+$" true ∈ customCalls := List.mem_singleton.mpr rfl
  obtain ⟨r, hr, hmeans⟩ := h.regex _ _ _ _ hcall
  have hstored := (storedAs_iff hreg).mpr ⟨mem_built_of_regex hcall, rfl⟩
  have hmatch : ((RegexEngine.backtracking.new "^[a-z]+$").toOption.any fun r =>
      RegexEngine.backtracking.isMatch r "abc") = true := by decide +kernel
  rw [hr] at hmatch
  have hsatisfied := (hmeans _ hstored (oneField "code" "abc")).mpr (by
    rw [fieldsMeet_oneField]
    exact iff_of_true hmatch (by decide))
  cases hsatisfied

end McpShield
