import McpShield.Guardrail.TextChecks

/-!
# Confinement to a root of the operator

The builder's root check compares texts, and its traversal check finds `..` anywhere.  A text that
begins with the root may still name a sibling of it: `confined_iff` says when it does not.
-/

namespace McpShield

open Predicate RuleEcpaGuardrail

variable {E : RegexEngine}

/-- The set that the builder makes for a root. -/
def rootConstraint (toolName root : String) : ToolConstraint E :=
  (((ConstraintBuilder.new toolName).pathWithinRoot "path" root).noPathTraversal "path").build

/-- What satisfies the constraints of the tool lies under the root. -/
def Confined (G : RuleEcpaGuardrail E) (toolName root path : String) : Prop :=
  SatisfiedBy G toolName "path" path →
    Path.Inside (Path.normalize root).names (Path.normalize path)

/-! ## The text of the root -/

/-- The text that the pattern asks for: with the escapes of slashes, a backslash before a slash is
taken back as well. -/
def rootText : List Char → List Char
  | '\\' :: '/' :: cs => '/' :: rootText cs
  | c :: cs => c :: rootText cs
  | [] => []

/-- A text as `escape` writes it. -/
def escaped (cs : List Char) : List Char :=
  cs.flatMap fun c => if Regex.isMeta c then ['\\', c] else [c]

/-- The escaped text with the escapes of slashes taken back. -/
def unescapeSlashes (cs : List Char) : List Char :=
  Str.replaceChars "\\/".toList "/".toList 0 cs

theorem escaped_cons (c : Char) (cs : List Char) :
    escaped (c :: cs) = (if Regex.isMeta c then ['\\', c] else [c]) ++ escaped cs := rfl

/-- An escaped text begins with a slash when the text does. -/
theorem eq_slash_of_escaped {cs rest : List Char} (h : escaped cs = '/' :: rest) :
    ∃ cs', cs = '/' :: cs' := by
  cases cs with
  | nil => cases h
  | cons c cs =>
    rw [escaped_cons] at h
    split_ifs at h with hmeta
    · cases (List.cons.inj h).1
    · exact ⟨cs, by rw [(List.cons.inj h).1]⟩

/-- A character that does not begin an escaped slash stays. -/
theorem unescapeSlashes_cons {c : Char} {cs : List Char}
    (h : c = '\\' → ∀ rest, cs ≠ '/' :: rest) :
    unescapeSlashes (c :: cs) = c :: unescapeSlashes cs := by
  have hprefix : "\\/".toList.isPrefixOf (c :: cs) = false := by
    rw [← Bool.not_eq_true, List.isPrefixOf_iff_prefix]
    rintro ⟨rest, hrest⟩
    obtain ⟨hc, hcs⟩ := List.cons.inj hrest
    exact h hc.symm rest hcs.symm
  unfold unescapeSlashes
  rw [Str.replaceChars, hprefix]
  rfl

/-- The pattern has the text of the root, character by character. -/
theorem spells_unescapeSlashes (cs : List Char) :
    Regex.Spells (unescapeSlashes (escaped cs)) ((rootText cs).map Regex.chr) := by
  fun_induction rootText cs with
  | case1 cs ih =>
    have hstep : unescapeSlashes (escaped ('\\' :: '/' :: cs)) =
        '\\' :: '/' :: unescapeSlashes (escaped cs) :=
      unescapeSlashes_cons (c := '\\') fun _ rest h => by cases (List.cons.inj h).1
    rw [hstep]
    exact .escaped (by decide) ih
  | case2 c cs hcs ih =>
    have hstays : unescapeSlashes (c :: escaped cs) = c :: unescapeSlashes (escaped cs) := by
      refine unescapeSlashes_cons fun hc rest hrest => ?_
      obtain ⟨cs', rfl⟩ := eq_slash_of_escaped hrest
      exact hcs cs' hc rfl
    rw [escaped_cons]
    split_ifs with hmeta
    · have hslash : ∀ rest, c :: escaped cs ≠ '/' :: rest := fun rest h => by
        rw [(List.cons.inj h).1] at hmeta
        exact absurd hmeta (by decide)
      rw [List.cons_append, List.singleton_append, unescapeSlashes_cons fun _ => hslash, hstays]
      exact .escaped (by rw [hmeta]; rfl) ih
    · have hplain : Regex.isSpecial c = false := by
        rw [← Bool.not_eq_true]
        exact fun h => hmeta (Regex.isMeta_of_isSpecial h)
      rw [List.singleton_append, hstays]
      exact .plain hplain ih
  | case3 => exact .nil

/-- Two dots stay. -/
theorem infix_rootText {cs : List Char} (h : "..".toList <:+: cs) :
    "..".toList <:+: rootText cs := by
  fun_induction rootText cs with
  | case1 cs ih =>
    have hcs : "..".toList <:+: cs := by
      simpa [List.infix_cons_iff] using h
    exact (ih hcs).trans (List.suffix_cons '/' _).isInfix
  | case2 c cs hcs ih =>
    rcases List.infix_cons_iff.mp h with hprefix | hinfix
    · obtain ⟨rest, hrest⟩ := hprefix
      obtain ⟨rfl, rfl⟩ := List.cons.inj hrest
      exact ⟨[], rootText rest, rfl⟩
    · exact (ih hinfix).trans (List.suffix_cons c _).isInfix
  | case3 => exact h

/-! ## What the set admits -/

section Set

variable {G G' : RuleEcpaGuardrail E} {toolName root : String}

theorem parse_pathWithinRoot (root : String) : ∃ derived,
    regexPattern "path_within_root" root = some derived ∧
      Regex.parse derived = some (Regex.under (rootText root.toList)) := by
  refine ⟨_, rfl, Regex.parse_under ?_ (spells_unescapeSlashes root.toList)⟩
  simp [Str.replace, Regex.escape, unescapeSlashes, escaped, toString]

/-- The pattern of the builder's `no_path_traversal`. -/
theorem parse_noPathTraversal : ∃ derived,
    regexPattern "no_path_traversal" "\\.\\." = some derived ∧
      Regex.parse derived = some (Regex.seq ("..".toList.map Regex.chr)) :=
  ⟨_, rfl, by decide +kernel⟩

/-- The set is satisfied by the continuations of the root's text in one line without `..`. -/
theorem satisfiedBy_rootConstraint_iff (hE : E.Reads)
    (hreg : G.registerConstraints (rootConstraint toolName root) = .ok G') (path : String) :
    SatisfiedBy G' toolName "path" path ↔
      (∃ rest, path.toList = rootText root.toList ++ rest ∧ '\n' ∉ rest) ∧
        ¬ "..".toList <:+: path.toList := by
  obtain ⟨word, hadmits⟩ := exists_admits_iff hE
  obtain ⟨within, hwithin, hparse⟩ := parse_pathWithinRoot root
  obtain ⟨traversal, htraversal, hparse'⟩ := parse_noPathTraversal
  have hroot := hadmits hreg (.head _) hwithin hparse path
  have hdots := hadmits hreg (.tail _ (.head _)) htraversal hparse' path
  have hpredicates : ∀ p ∈ (rootConstraint toolName root : ToolConstraint E).predicates,
      p = requiredPredicate p.name ["path"] p.expression ∧
        (regexPattern p.name p.expression).isSome = true := by
    intro p hp
    rcases List.mem_pair.mp hp with rfl | rfl
    · exact ⟨rfl, rfl⟩
    · exact ⟨rfl, rfl⟩
  have hboth : (∀ p ∈ [requiredPredicate (E := E) "path_within_root" ["path"] root,
      requiredPredicate "no_path_traversal" ["path"] "\\.\\."],
      AdmitsText E p.name p.expression path) ↔
        AdmitsText E "path_within_root" root path ∧
          AdmitsText E "no_path_traversal" "\\.\\." path := by
    rw [List.forall_mem_cons, List.forall_mem_singleton]
    rfl
  have hwithin' : "path_within_root" ∉ rejections := by decide
  have htraversal' : "no_path_traversal" ∈ rejections := by decide
  refine (satisfiedBy_iff hreg hpredicates path).trans (hboth.trans (and_congr ?_ ?_))
  · rw [hroot, iff_true_right hwithin', Regex.found_under]
  · rw [hdots, iff_false_right (not_not.mpr htraversal'), Regex.found_seq_chars]

end Set

/-! ## Confinement -/

/-- The path does not leave the root behind: if it continues the text of the root in one line and
has no `..`, then it begins a new component, or what it continues ends in no name.  A root with a
backslash before a slash has another text, and then the path must go down the names of the root. -/
def StaysUnder (root path : String) : Prop :=
  ∀ rest, path.toList = rootText root.toList ++ rest → '\n' ∉ rest →
    ¬ "..".toList <:+: path.toList →
      if rootText root.toList = root.toList then
        Path.lastComponent root ∈ [[], ['.']] ∨ ∀ c ∈ rest.head?, c = '/'
      else Path.components root <+: Path.components path

section Confinement

variable {G G' : RuleEcpaGuardrail E} {toolName root path : String} {rest : List Char}

/-- What the set admits lies under the root when it goes down its names. -/
theorem inside_iff (habsolute : Str.startsWith root "/" = true)
    (hpath : path.toList = rootText root.toList ++ rest) (hdots : ¬ "..".toList <:+: path.toList) :
    Path.Inside (Path.normalize root).names (Path.normalize path) ↔
      Path.components root <+: Path.components path := by
  have hroot : ¬ "..".toList <:+: root.toList := fun hinfix => by
    refine hdots ((infix_rootText hinfix).trans ?_)
    rw [hpath]
    exact (List.prefix_append _ rest).isInfix
  have hslash : Str.startsWith path "/" = true := by
    obtain ⟨cs, hcs⟩ := List.isPrefixOf_iff_prefix.mp habsolute
    refine List.isPrefixOf_iff_prefix.mpr ⟨rootText cs ++ rest, ?_⟩
    rw [hpath, ← hcs]
    rfl
  rw [Path.normalize_of_not_infix habsolute hroot, Path.normalize_of_not_infix hslash hdots]
  exact and_iff_right rfl

/-- A root set confines a path exactly when the path does not leave the root behind. -/
theorem confined_iff (hE : E.Reads)
    (hreg : G.registerConstraints (rootConstraint toolName root) = .ok G')
    (habsolute : Str.startsWith root "/" = true) (path : String) :
    Confined G' toolName root path ↔ StaysUnder root path := by
  have hunder : ∀ rest, path.toList = rootText root.toList ++ rest →
      ¬ "..".toList <:+: path.toList →
        (Path.Inside (Path.normalize root).names (Path.normalize path) ↔
          if rootText root.toList = root.toList then
            Path.lastComponent root ∈ [[], ['.']] ∨ ∀ c ∈ rest.head?, c = '/'
          else Path.components root <+: Path.components path) := by
    intro rest hpath hdots
    rw [inside_iff habsolute hpath hdots]
    split_ifs with htext
    · rw [← Path.components_prefix_append_iff habsolute, ← htext, ← hpath, String.ofList_toList]
    · exact Iff.rfl
  rw [Confined, satisfiedBy_rootConstraint_iff hE hreg]
  constructor
  · intro h rest hpath hline hdots
    exact (hunder rest hpath hdots).mp (h ⟨⟨rest, hpath, hline⟩, hdots⟩)
  · rintro h ⟨⟨rest, hpath, hline⟩, hdots⟩
    exact (hunder rest hpath hdots).mpr (h rest hpath hline hdots)

end Confinement

/-! ### Siblings -/

theorem exists_registered_root : ∃ G' : RuleEcpaGuardrail .backtracking,
    RuleEcpaGuardrail.new.registerConstraints (rootConstraint "files" "/data/app") = .ok G' :=
  exists_registered (by decide +kernel)

/-- A file in the root is admitted and lies under it. -/
theorem confined_file : ∃ G' : RuleEcpaGuardrail .backtracking,
    RuleEcpaGuardrail.new.registerConstraints (rootConstraint "files" "/data/app") = .ok G' ∧
      SatisfiedBy G' "files" "path" "/data/app/x" ∧
      Path.Inside (Path.normalize "/data/app").names (Path.normalize "/data/app/x") := by
  obtain ⟨G', hreg⟩ := exists_registered_root
  have hsatisfied : SatisfiedBy G' "files" "path" "/data/app/x" :=
    (satisfiedBy_rootConstraint_iff RegexEngine.backtracking_reads hreg _).mpr
      ⟨⟨"/x".toList, by decide +kernel, by decide +kernel⟩, by decide +kernel⟩
  have hstays : StaysUnder "/data/app" "/data/app/x" := by
    intro rest hpath _ _
    have hrest : "/data/app".toList ++ "/x".toList = "/data/app".toList ++ rest := by
      rw [← show rootText "/data/app".toList = "/data/app".toList by decide +kernel, ← hpath]
      decide +kernel
    obtain rfl : "/x".toList = rest := List.append_cancel_left hrest
    rw [if_pos (by decide +kernel)]
    refine .inr ?_
    rintro c ⟨⟩
    rfl
  exact ⟨G', hreg, hsatisfied,
    (confined_iff RegexEngine.backtracking_reads hreg (by decide +kernel) _).mpr hstays hsatisfied⟩

/-- A sibling of the root whose name begins like it is admitted. -/
theorem sibling_not_confined : ∃ G' : RuleEcpaGuardrail .backtracking,
    RuleEcpaGuardrail.new.registerConstraints (rootConstraint "files" "/data/app") = .ok G' ∧
      SatisfiedBy G' "files" "path" "/data/app-secret/x" ∧
      ¬ Path.Inside (Path.normalize "/data/app").names (Path.normalize "/data/app-secret/x") := by
  obtain ⟨G', hreg⟩ := exists_registered_root
  exact ⟨G', hreg, (satisfiedBy_rootConstraint_iff RegexEngine.backtracking_reads hreg _).mpr
    ⟨⟨"-secret/x".toList, by decide +kernel, by decide +kernel⟩, by decide +kernel⟩, by decide +kernel⟩

end McpShield
