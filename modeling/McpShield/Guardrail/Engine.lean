import McpShield.Lib.RegexLanguage
import McpShield.Lib.RegexSyntax
import McpShield.Lib.Rewriting

/-!
# The regex engine

The guardrails compile and search patterns with a crate, which is a parameter here.  `Documented`
says what the code relies on, and `backtracking` is an engine that behaves so.
-/

namespace McpShield

/-- The `regex` crate: compiling a pattern, and searching a text.  A match is its byte offset and
its text; an error is its text. -/
structure RegexEngine where
  Regex : Type
  new : String → Except String Regex
  isMatch : Regex → String → Bool
  findIter : Regex → String → List (ℕ × String)
  replaceAll : Regex → String → String → String

/-- The ASCII word characters. -/
def isAsciiWord (c : Char) : Bool := Regex.isAsciiLetter c || Str.isAsciiDigit c || c == '_'

namespace RegexEngine

/-- The documented behaviour: a pattern of the plain syntax that is not too long compiles and
matches what it stands for, and the matches that are found are none exactly when nothing matches. -/
structure Documented (E : RegexEngine) : Prop where
  compiles : ∃ word : Char → Bool, (∀ c, c.toNat < 128 → word c = isAsciiWord c) ∧
    ∀ pattern e, pattern.length ≤ 128 → Regex.parse pattern = some e →
      ∃ r, E.new pattern = .ok r ∧ ∀ s, E.isMatch r s = true ↔ Regex.Found word e s.toList
  findIter_eq_nil : ∀ r s, E.findIter r s = [] ↔ E.isMatch r s = false

/-- The documented behaviour of the patterns that compile, whatever their length: they match what
they stand for. -/
structure Reads (E : RegexEngine) : Prop where
  isMatch_iff : ∃ word : Char → Bool, (∀ c, c.toNat < 128 → word c = isAsciiWord c) ∧
    ∀ pattern e r, Regex.parse pattern = some e → E.new pattern = .ok r →
      ∀ s, E.isMatch r s = true ↔ Regex.Found word e s.toList

/-- The documented behaviour with the word characters `word`: a pattern that compiles matches what it
stands for, and all its matches are replaced from left to right.  A dollar sign in the replacement
would have a meaning of its own. -/
structure Replaces (E : RegexEngine) (word : Char → Bool) : Prop where
  word_ascii : ∀ c, c.toNat < 128 → word c = isAsciiWord c
  isMatch_iff : ∀ pattern e r, Regex.parse pattern = some e → E.new pattern = .ok r →
    ∀ s, E.isMatch r s = true ↔ Regex.Found word e s.toList
  replaceAll : ∀ pattern e r, Regex.parse pattern = some e → E.new pattern = .ok r →
    Regex.anchorFree e = true → [] ∉ Regex.language word e → ∀ s rep, '$' ∉ rep.toList →
      Redaction.Scan rep.toList (Regex.language word e) s.toList (E.replaceAll r s rep).toList

/-- The documented behaviour of one regex and a replacement: the regex has its matches, each between
what stands around it and with what it is replaced by.  A text matches if there is one, and if none is
empty all are replaced from left to right. -/
structure Finds (E : RegexEngine) (r : E.Regex) (rep : String) (S : Redaction.Matcher Char) :
    Prop where
  isMatch_iff : ∀ s, E.isMatch r s = false ↔ S.Absent s.toList
  replaceAll : S.Proper → ∀ s, Redaction.Search S s.toList (E.replaceAll r s rep).toList

/-- An engine by backtracking, with the ASCII word characters.  It has no capture references in
replacements. -/
def backtracking : RegexEngine where
  Regex := Regex.Expr
  new pattern :=
    match Regex.parse pattern with
    | some e => .ok e
    | none => .error s!"unsupported pattern: {pattern}"
  isMatch e s := (Regex.firstMatch isAsciiWord e true s.toList).isSome
  findIter e s := (Regex.allMatches isAsciiWord e s.toList).map fun (i, j) =>
    (Str.len s - Str.len (String.ofList i.rest),
      String.ofList (i.rest.take (i.rest.length - j.rest.length)))
  replaceAll e s rep := String.ofList
    (Regex.substitute rep.toList s.toList (Regex.allMatches isAsciiWord e s.toList))

theorem backtracking_documented : backtracking.Documented where
  compiles := by
    refine ⟨isAsciiWord, fun _ _ => rfl, fun pattern e _ hparse => ⟨e, ?_, fun s => ?_⟩⟩
    · simp [backtracking, hparse]
    · exact Regex.firstMatch_isSome_iff_found
  findIter_eq_nil (e : Regex.Expr) s :=
    calc backtracking.findIter e s = []
        ↔ Regex.allMatches isAsciiWord e s.toList = [] := List.map_eq_nil_iff
      _ ↔ ¬ Regex.Found isAsciiWord e s.toList := Regex.allMatches_eq_nil
      _ ↔ ¬ backtracking.isMatch e s = true := not_congr Regex.firstMatch_isSome_iff_found.symm
      _ ↔ backtracking.isMatch e s = false := by rw [Bool.not_eq_true]

theorem backtracking_replaces : backtracking.Replaces isAsciiWord where
  word_ascii _ _ := rfl
  isMatch_iff pattern e r hparse hr s := by
    have hnew : backtracking.new pattern = .ok e := by simp [backtracking, hparse]
    obtain rfl : e = r := Except.ok.inj (hnew.symm.trans hr)
    exact Regex.firstMatch_isSome_iff_found
  replaceAll pattern e r hparse hr he hnil s rep _ := by
    have hnew : backtracking.new pattern = .ok e := by simp [backtracking, hparse]
    obtain rfl : e = r := Except.ok.inj (hnew.symm.trans hr)
    have hlength : s.toList.length < 2 * s.toList.length + 2 := by omega
    have hscan : Redaction.Scan rep.toList (Regex.language isAsciiWord e) s.toList
        (Regex.substitute rep.toList s.toList (Regex.allMatches isAsciiWord e s.toList)) :=
      Regex.scan_substitute (i := ⟨true, s.toList⟩) he hnil hlength
    simpa [backtracking] using hscan

theorem backtracking_reads : backtracking.Reads where
  isMatch_iff := ⟨isAsciiWord, fun _ _ => rfl, backtracking_replaces.isMatch_iff⟩

end RegexEngine

end McpShield
