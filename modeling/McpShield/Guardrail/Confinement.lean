import McpShield.Guardrail.Ecpa
import McpShield.Lib.RegexParse

/-!
# Filesystem confinement

The shipped constraints of the filesystem tools admit the paths that begin with the allowed root and
have no line feed after it.  A path is only kept from beginning with `..`, so what follows the root
may leave it again: `fsConfined_iff` says which paths do not.
-/

namespace McpShield

namespace RuleEcpaGuardrail

open Regex

variable {E : RegexEngine} {word : Char → Bool} {text : List Char}

/-! ## The patterns -/

/-- The pattern of `path_within_root`. -/
def withinRoot : Regex.Expr :=
  seq (.startText :: ("/allowed/roots/".toList.map chr ++
    [.alt (seq [.star true (.set .dot)]) .empty, .endText]))

/-- The pattern of `no_path_traversal`. -/
def traversal : Regex.Expr := seq (.startText :: "..".toList.map chr)

/-- The pattern of `not_system_path`. -/
def systemPath : Regex.Expr :=
  seq [.startText, oneOf "/etc".toList
    ["/sys".toList, "/proc".toList, "/boot".toList, "/dev".toList, "/root".toList]]

theorem found_withinRoot :
    Found word withinRoot text ↔ ∃ rest, text = "/allowed/roots/".toList ++ rest ∧ '\n' ∉ rest :=
  found_under

theorem not_found_traversal {rest : List Char} : ¬ Found word traversal ('/' :: rest) := by
  rw [traversal, found_seq_startText, exists_matches_seq_chars]
  simp

theorem not_found_systemPath {rest : List Char} : ¬ Found word systemPath ('/' :: 'a' :: rest) := by
  rw [systemPath, found_seq_startText]
  rintro ⟨j, hj⟩
  obtain ⟨m, hm, -⟩ := matches_seq_cons.mp hj
  obtain ⟨cs, hcs, hprefix⟩ := matches_oneOf.mp hm
  have hcs' : cs <+: '/' :: 'a' :: rest := exists_matches_seq_chars.mp ⟨m, hprefix⟩
  simp only [List.mem_cons, List.not_mem_nil, or_false] at hcs
  rcases hcs with rfl | rfl | rfl | rfl | rfl | rfl <;> simp at hcs'

/-! ## What the constraints admit -/

/-- A shipped predicate with its compiled pattern. -/
def compiled (name : String) (fields : List String) (expression : String) (r : E.Regex) :
    Predicate E :=
  { name, fields, expression, required := true, compiledRegex := some r }

/-- A shipped predicate compiles to what its pattern stands for. -/
theorem exists_compiled (hE : E.Documented) : ∃ word : Char → Bool,
    ∀ name fields expression pattern e, regexPattern name expression = some pattern →
      pattern.length ≤ 128 → Regex.parse pattern = some e →
        ∃ r, compilePredicateRegex (requiredPredicate name fields expression) =
            .ok (compiled name fields expression r) ∧
          ∀ s, E.isMatch r s = true ↔ Found word e s.toList := by
  obtain ⟨word, -, hcompiles⟩ := hE.compiles
  refine ⟨word, fun name fields expression pattern e hpattern hlen hparse => ?_⟩
  obtain ⟨r, hnew, hmatch⟩ := hcompiles pattern e hlen hparse
  refine ⟨r, ?_, hmatch⟩
  simp [compilePredicateRegex, requiredPredicate, compiled, hpattern, hnew]

/-- The arguments of a filesystem tool. -/
def pathArguments (path : String) : Value := .object [("path", .string path)]

/-- The patterns of the filesystem tools, compiled: only the first one makes a difference. -/
theorem exists_compiled_fs (hE : E.Documented) : ∃ r₁ r₂ r₃ : E.Regex,
    (fsRead.predicates.mapM compilePredicateRegex = .ok
      [compiled "path_within_root" ["path"] "/allowed/roots/" r₁,
        compiled "no_path_traversal" ["path"] "^\\.\\." r₂]) ∧
    (fsWrite.predicates.mapM compilePredicateRegex = .ok
      [compiled "path_within_root" ["path"] "/allowed/roots/" r₁,
        compiled "no_path_traversal" ["path"] "^\\.\\." r₂,
        compiled "not_system_path" ["path"] "^(/etc|/sys|/proc|/boot|/dev|/root)" r₃]) ∧
    ∀ path, (E.isMatch r₁ path = true ↔
        ∃ rest, path.toList = "/allowed/roots/".toList ++ rest ∧ '\n' ∉ rest) ∧
      (E.isMatch r₁ path = true → E.isMatch r₂ path = false ∧ E.isMatch r₃ path = false) := by
  obtain ⟨word, hcompiled⟩ := exists_compiled hE
  obtain ⟨r₁, h₁, hr₁⟩ := hcompiled "path_within_root" ["path"] "/allowed/roots/"
    "^/allowed/roots/(.*)?$" withinRoot (by decide +kernel) (by decide) (by decide +kernel)
  obtain ⟨r₂, h₂, hr₂⟩ := hcompiled "no_path_traversal" ["path"] "^\\.\\." "^\\.\\." traversal rfl
    (by decide) (by decide +kernel)
  obtain ⟨r₃, h₃, hr₃⟩ := hcompiled "not_system_path" ["path"]
    "^(/etc|/sys|/proc|/boot|/dev|/root)" "^(/etc|/sys|/proc|/boot|/dev|/root)" systemPath rfl
    (by decide) (by decide +kernel)
  refine ⟨r₁, r₂, r₃, ?_, ?_, fun path => ?_⟩
  · simp only [fsRead, List.mapM_cons, List.mapM_nil, h₁, h₂]
    rfl
  · simp only [fsWrite, List.mapM_cons, List.mapM_nil, h₁, h₂, h₃]
    rfl
  · have hwithin := (hr₁ path).trans found_withinRoot
    refine ⟨hwithin, fun hmatch => ?_⟩
    obtain ⟨rest, hpath, -⟩ := hwithin.mp hmatch
    rw [← Bool.not_eq_true, ← Bool.not_eq_true, hr₂, hr₃, hpath]
    exact ⟨not_found_traversal, not_found_systemPath⟩

/-- A path is admitted if it begins with the root and has no line feed after it. -/
theorem fsSatisfied_iff (hE : E.Documented) {toolName : String}
    (htool : toolName = "fs:read" ∨ toolName = "fs:write") (path : String) :
    (∃ result, (withDefaults : RuleEcpaGuardrail E).evaluateConstraints toolName
        (pathArguments path) = .ok result ∧ result.satisfied = true) ↔
      ∃ rest, path.toList = "/allowed/roots/".toList ++ rest ∧ '\n' ∉ rest := by
  obtain ⟨r₁, r₂, r₃, hread, hwrite, hmatch⟩ := exists_compiled_fs hE
  obtain ⟨hwithin, hothers⟩ := hmatch path
  have hwithin' : evaluatePredicate (compiled "path_within_root" ["path"] "/allowed/roots/" r₁)
      (pathArguments path) = E.isMatch r₁ path := rfl
  have htraversal : evaluatePredicate (compiled "no_path_traversal" ["path"] "^\\.\\." r₂)
      (pathArguments path) = !E.isMatch r₂ path := rfl
  have hsystem : evaluatePredicate (compiled "not_system_path" ["path"]
      "^(/etc|/sys|/proc|/boot|/dev|/root)" r₃) (pathArguments path) = !E.isMatch r₃ path := rfl
  rw [← hwithin]
  rcases htool with rfl | rfl
  · refine (satisfied_iff hread (lookup_withDefaults (by simp) hread) _).trans ?_
    simp only [List.forall_mem_cons, List.not_mem_nil, hwithin', htraversal]
    simp only [compiled, true_implies, false_implies, implies_true, and_true, Bool.not_eq_true']
    exact ⟨fun h => h.1, fun h => ⟨h, (hothers h).1⟩⟩
  · refine (satisfied_iff hwrite (lookup_withDefaults (by simp) hwrite) _).trans ?_
    simp only [List.forall_mem_cons, List.not_mem_nil, hwithin', htraversal, hsystem]
    simp only [compiled, true_implies, false_implies, implies_true, and_true, Bool.not_eq_true']
    exact ⟨fun h => h.1, fun h => ⟨h, hothers h⟩⟩

/-! ## Confinement -/

/-- The directory that the constraints are about. -/
def allowedRoot : List String := ["allowed", "roots"]

theorem split_allowed (rest : List Char) :
    Str.split (String.ofList ("/allowed/roots/".toList ++ rest)) '/' =
      ["", "allowed", "roots"] ++ Str.split (String.ofList rest) '/' := by
  simp [Str.split, List.splitOn_cons_eq_if_modifyHead]

/-- A path under the root is the root joined with what follows it. -/
theorem normalize_allowed (rest : List Char) :
    Path.normalize (String.ofList ("/allowed/roots/".toList ++ rest)) =
      Path.join allowedRoot (Path.normalizeRelative (String.ofList rest)) := by
  have hstart : Str.startsWith (String.ofList ("/allowed/roots/".toList ++ rest)) "/" = true := by
    simp [Str.startsWith]
  rw [Path.normalize, if_pos hstart, split_allowed, List.foldl_append]
  exact Path.foldl_push_down allowedRoot _

/-- The path does not leave the root for good: it does not begin with the root, has a line feed
after it, or what follows goes down again into what it has gone up from. -/
def StaysInside (path : String) : Prop :=
  ∀ rest, path.toList = "/allowed/roots/".toList ++ rest → '\n' ∉ rest →
    let r := Path.normalizeRelative (String.ofList rest)
    allowedRoot.drop (allowedRoot.length - r.ups) <+: r.names

/-- The shipped constraints confine a path to the root exactly when it does not leave the root for
good. -/
theorem fsConfined_iff (hE : E.Documented) {toolName : String}
    (htool : toolName = "fs:read" ∨ toolName = "fs:write") (path : String) :
    (∀ result, (withDefaults : RuleEcpaGuardrail E).evaluateConstraints toolName
        (pathArguments path) = .ok result → result.satisfied = true →
          Path.Inside allowedRoot (Path.normalize path)) ↔ StaysInside path := by
  have hsatisfied := fsSatisfied_iff hE htool path
  have hinside : ∀ rest, path.toList = "/allowed/roots/".toList ++ rest →
      Path.normalize path = Path.join allowedRoot (Path.normalizeRelative (String.ofList rest)) :=
    fun rest hpath => by rw [← normalize_allowed, ← hpath, String.ofList_toList]
  constructor
  · intro h rest hpath hline
    obtain ⟨result, heval, hsat⟩ := hsatisfied.mpr ⟨rest, hpath, hline⟩
    have hin := h result heval hsat
    rw [hinside rest hpath] at hin
    exact Path.inside_join.mp hin
  · intro h result heval hsat
    obtain ⟨rest, hpath, hline⟩ := hsatisfied.mp ⟨result, heval, hsat⟩
    rw [hinside rest hpath]
    exact Path.inside_join.mpr (h rest hpath hline)

/-- A path that goes up no further than it has gone down. -/
theorem fsConfined_dots :
    (∃ result, (withDefaults : RuleEcpaGuardrail .backtracking).evaluateConstraints "fs:read"
        (pathArguments "/allowed/roots/a/../b") = .ok result ∧ result.satisfied = true) ∧
    Path.Inside allowedRoot (Path.normalize "/allowed/roots/a/../b") := by
  have hadmitted := (fsSatisfied_iff RegexEngine.backtracking_documented (.inl rfl)
    "/allowed/roots/a/../b").mpr ⟨"a/../b".toList, by decide, by decide⟩
  have hstays : StaysInside "/allowed/roots/a/../b" := by
    intro rest hpath _
    have hroot : "/allowed/roots/".toList ++ "a/../b".toList =
        "/allowed/roots/".toList ++ rest := by
      rw [← hpath]
      decide
    obtain rfl : "a/../b".toList = rest := List.append_cancel_left hroot
    decide
  obtain ⟨result, heval, hsat⟩ := hadmitted
  exact ⟨⟨result, heval, hsat⟩,
    (fsConfined_iff RegexEngine.backtracking_documented (.inl rfl) _).mpr hstays result heval hsat⟩

/-- The constraints admit a path that leads out of the root. -/
theorem fs_not_confined :
    (∃ result, (withDefaults : RuleEcpaGuardrail .backtracking).evaluateConstraints "fs:read"
        (pathArguments "/allowed/roots/../../etc/passwd") = .ok result ∧
      result.satisfied = true) ∧
    ¬ Path.Inside allowedRoot (Path.normalize "/allowed/roots/../../etc/passwd") :=
  ⟨(fsSatisfied_iff RegexEngine.backtracking_documented (.inl rfl) _).mpr
    ⟨"../../etc/passwd".toList, by decide, by decide⟩, by decide⟩

end RuleEcpaGuardrail

end McpShield
