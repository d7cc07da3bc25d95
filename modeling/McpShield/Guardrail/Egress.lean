import McpShield.Guardrail.Basic
import McpShield.Guardrail.Engine

/-!
# The egress inspector

The inspector looks for the patterns of prompt injection in the text of every content block.  It
replaces the matches of the patterns one after the other; which patterns those are is decided on the
text as it was.
-/

namespace McpShield

open Redaction

/-- The inspector: its compiled patterns, and the text that replaces a match. -/
structure PatternEgressInspector (E : RegexEngine) where
  patterns : List (PatternType × E.Regex)
  replacement : String

variable {E : RegexEngine}

namespace PatternEgressInspector

/-! ## The shipped patterns -/

def defaultPatterns : List (PatternType × String) :=
  [ (.systemOverride, "(?i)\\[system\\]:?"),
    (.systemOverride, "(?i)<\\s*system\\s*>"),
    (.systemOverride, "(?i)ignore\\s+(?:previous|all|above)\\s+instructions?"),
    (.systemOverride, "(?i)forget\\s+(?:previous|all|above)\\s+instructions?"),
    (.systemOverride, "(?i)disregard\\s+(?:previous|all|above)\\s+instructions?"),
    (.systemOverride, "(?i)you\\s+are\\s+now\\s+(?:a|an)\\s+"),
    (.systemOverride, "(?i)act\\s+as\\s+(?:a|an)\\s+"),
    (.dataExfiltration, "(?i)send\\s+(?:to|data\\s+to)\\s+[\\w\\.-]+@[\\w\\.-]+"),
    (.dataExfiltration, "(?i)exfiltrate\\s+(?:data|information)"),
    (.dataExfiltration, "(?i)post\\s+(?:to|data\\s+to)\\s+https?://"),
    (.dataExfiltration, "(?i)upload\\s+(?:to|data\\s+to)\\s+"),
    (.dataExfiltration, "(?i)leak\\s+(?:data|secrets|keys)"),
    (.dataExfiltration,
      "(?i)(?:send|upload|post|exfiltrate)\\s+(?:data|keys|secrets|information|the\\s+\\w+\\s+\\w+)?\\s+(?:to|into)\\s+https?://"),
    (.hiddenInstruction, "<!--\\s*[^>]*-->?"),
    (.hiddenInstruction, "/\\*\\s*[^*]*\\*/"),
    (.hiddenInstruction, "[\\u200B-\\u200D\\uFEFF]"),
    (.hiddenInstruction, "(?i)style\\s*=\\s*[\"']display:\\s*none[\"']"),
    (.toolInvocation, "(?i)<\\s*(?:execute|use_tool|invoke|function|tool)\\s*>"),
    (.toolInvocation, "(?i)\\\x7b\\s*[\"']tool[\"']\\s*:\\s*[\"']\\w+[\"']\\s*\\\x7d"),
    (.toolInvocation, "(?i)function_call\\s*:\\s*\\\x7b\\s*[\"']name[\"']"),
    (.suspiciousUrl,
      "(?i)(?:pastebin|ghostbin|hastebin|dpaste|gist\\.github|raw\\.githubusercontent)\\.com"),
    (.suspiciousUrl, "(?i)(?:bit\\.ly|tinyurl|t\\.co|goo\\.gl|ow\\.ly)/\\w+"),
    (.suspiciousUrl, "(?i)https?://[^/]*\\.(?:xyz|top|club|online|site|info)/") ]

/-- Compile a pattern. -/
def compilePattern (p : PatternType × String) : Option (PatternType × E.Regex) :=
  (E.new p.2).toOption.map fun regex => (p.1, regex)

/-- The inspector with the shipped patterns; `none` is the panic of a pattern that does not
compile. -/
def new : Option (PatternEgressInspector E) :=
  (defaultPatterns.mapM compilePattern).map fun patterns =>
    { patterns, replacement := "[REDACTED: Potential prompt injection detected]" }

/-- The inspector with more patterns and another replacement. -/
def withPatterns (patterns : List (PatternType × E.Regex)) (replacement : String) :
    Option (PatternEgressInspector E) :=
  new.map fun I => { patterns := I.patterns ++ patterns, replacement }

/-! ## Inspection -/

/-- Note a match of a pattern and replace all matches of the pattern in the text so far. -/
def noteMatch (I : PatternEgressInspector E) (blockIdx : ℕ) (patternType : PatternType)
    (regex : E.Regex) (found : List InjectionPattern × String) (m : ℕ × String) :
    List InjectionPattern × String :=
  let snippet := String.ofList (m.2.toList.take 100)
  let start := m.1
  (found.1 ++ [{ patternType, location := s!"block[{blockIdx}]:{start}", snippet }],
    E.replaceAll regex found.2 I.replacement)

/-- Look for a pattern in a text. -/
def inspectPattern (I : PatternEgressInspector E) (text : String) (blockIdx : ℕ)
    (found : List InjectionPattern × String) (p : PatternType × E.Regex) :
    List InjectionPattern × String :=
  (E.findIter p.2 text).foldl (I.noteMatch blockIdx p.1 p.2) found

/-- The patterns that are detected in a text, and the sanitized text. -/
def inspectText (I : PatternEgressInspector E) (text : String) (blockIdx : ℕ) :
    List InjectionPattern × String :=
  I.patterns.foldl (I.inspectPattern text blockIdx) ([], text)

/-- The text of a content block: its string field `text`, or the block itself. -/
def blockText (block : Value) : Option String :=
  ((block.get "text").bind Value.asStr).or block.asStr

/-- Inspect a block: the detected patterns, whether it counts as modified, and the new block.  Only
a field `text` is written. -/
def inspectBlock (I : PatternEgressInspector E) (block : Value) (idx : ℕ) :
    List InjectionPattern × Bool × Value :=
  match blockText block with
  | none => ([], false, block)
  | some text =>
      let (detected, sanitizedText) := I.inspectText text idx
      (detected, !detected.isEmpty || sanitizedText != text,
        block.assign "text" (.string sanitizedText))

/-- Inspect and sanitize a tool result. -/
def sanitizeResponse (I : PatternEgressInspector E) (result : InspectableResult) :
    Except GuardrailError InspectionResult :=
  let blocks := result.content.zipIdx.map fun (block, idx) => I.inspectBlock block idx
  .ok
    { modified := blocks.any fun b => b.2.1
      sanitizedContent := blocks.map fun b => b.2.2
      detectedPatterns := blocks.flatMap fun b => b.1 }

/-! ## Clean texts -/

/-- No pattern matches the text. -/
def Clean (I : PatternEgressInspector E) (text : String) : Prop :=
  ∀ p ∈ I.patterns, E.isMatch p.2 text = false

/-- Replace the matches of a pattern as often as it has matches in `text`. -/
def redactPattern (I : PatternEgressInspector E) (text : String) (t : String)
    (p : PatternType × E.Regex) : String :=
  (fun t => E.replaceAll p.2 t I.replacement)^[(E.findIter p.2 text).length] t

/-- The text with the matches of the patterns it has replaced, pattern by pattern. -/
def redact (I : PatternEgressInspector E) (text : String) : String :=
  I.patterns.foldl (I.redactPattern text) text

variable {I : PatternEgressInspector E} {text : String} {idx : ℕ}

theorem foldl_noteMatch (I : PatternEgressInspector E) (idx : ℕ) (t : PatternType)
    (regex : E.Regex) (ms : List (ℕ × String)) (found : List InjectionPattern × String) :
    (ms.foldl (I.noteMatch idx t regex) found).2 =
        (fun s => E.replaceAll regex s I.replacement)^[ms.length] found.2 ∧
      ((ms.foldl (I.noteMatch idx t regex) found).1 = [] ↔ found.1 = [] ∧ ms = []) := by
  induction ms generalizing found with
  | nil => simp
  | cons m ms ih =>
    rw [List.foldl_cons]
    exact ⟨(ih _).1, by simp [(ih _).2, noteMatch]⟩

theorem foldl_inspectPattern (ps : List (PatternType × E.Regex))
    (found : List InjectionPattern × String) :
    (ps.foldl (I.inspectPattern text idx) found).2 = ps.foldl (I.redactPattern text) found.2 ∧
      ((ps.foldl (I.inspectPattern text idx) found).1 = [] ↔
        found.1 = [] ∧ ∀ p ∈ ps, E.findIter p.2 text = []) := by
  induction ps generalizing found with
  | nil => simp
  | cons p ps ih =>
    have hnote := foldl_noteMatch I idx p.1 p.2 (E.findIter p.2 text) found
    rw [List.foldl_cons, List.foldl_cons, (ih _).1, (ih _).2]
    refine ⟨congrArg (fun s => ps.foldl (I.redactPattern text) s) hnote.1, ?_⟩
    rw [List.forall_mem_cons, ← and_assoc]
    exact and_congr_left fun _ => hnote.2

/-- The sanitized text is the redacted one. -/
theorem inspectText_snd : (I.inspectText text idx).2 = I.redact text :=
  (foldl_inspectPattern I.patterns ([], text)).1

/-- Nothing is detected exactly in a clean text. -/
theorem inspectText_fst (hE : E.Documented) : (I.inspectText text idx).1 = [] ↔ I.Clean text := by
  rw [inspectText, (foldl_inspectPattern I.patterns ([], text)).2]
  simp [Clean, hE.findIter_eq_nil]

/-- A pattern without a match in the text changes nothing. -/
theorem redactPattern_of_noMatch (hE : E.Documented) {p : PatternType × E.Regex}
    (h : E.isMatch p.2 text = false) (t : String) : I.redactPattern text t p = t := by
  have hnone : E.findIter p.2 text = [] := (hE.findIter_eq_nil _ _).mpr h
  rw [redactPattern, hnone]
  rfl

theorem foldl_redactPattern_of_noMatch (hE : E.Documented) {ps : List (PatternType × E.Regex)}
    (h : ∀ p ∈ ps, E.isMatch p.2 text = false) (t : String) :
    ps.foldl (I.redactPattern text) t = t := by
  induction ps with
  | nil => rfl
  | cons p ps ih =>
    obtain ⟨hp, hps⟩ := List.forall_mem_cons.mp h
    rw [List.foldl_cons, redactPattern_of_noMatch hE hp]
    exact ih hps

/-- A clean text is not redacted. -/
theorem Clean.redact_eq (hE : E.Documented) (h : I.Clean text) : I.redact text = text :=
  foldl_redactPattern_of_noMatch hE h text

/-! ## Clean after the redaction -/

/-- What the configured patterns match, and with what it is replaced. -/
def Finds (I : PatternEgressInspector E) (Ss : List (Matcher Char)) : Prop :=
  List.Forall₂ (fun p S => E.Finds p.2 I.replacement S) I.patterns Ss

/-- The text has no match, or no pattern matches an empty part and replacing matches in the text brings
none about. -/
def Redactable (I : PatternEgressInspector E) (Ss : List (Matcher Char)) (text : String) : Prop :=
  I.Clean text ∨ (∀ S ∈ Ss, S.Proper) ∧ Harmless Ss text.toList

section Redactable

variable {S : Matcher Char} {Ss : List (Matcher Char)} {ps : List (PatternType × E.Regex)}

/-- A replacement that is iterated is one search after the other. -/
theorem searches_iterate {f : String → String} (hf : ∀ s, Search S s.toList (f s).toList) (n : ℕ)
    (s : String) : Relation.TransGen (Search S) s.toList (f^[n + 1] s).toList := by
  induction n with
  | zero => exact .single (hf s)
  | succ n ih =>
    rw [Function.iterate_succ_apply']
    exact ih.tail (hf _)

/-- The redaction searches for the patterns that have a match in the text. -/
theorem sweeps_foldl (hE : E.Documented)
    (hfinds : List.Forall₂ (fun p S => E.Finds p.2 I.replacement S) ps Ss)
    (hproper : ∀ S ∈ Ss, S.Proper) (s : String) :
    Sweeps text.toList Ss s.toList (ps.foldl (I.redactPattern text) s).toList := by
  induction hfinds generalizing s with
  | nil => exact .nil
  | @cons p S ps Ss hp _ ih =>
    obtain ⟨hS, hSs⟩ := List.forall_mem_cons.mp hproper
    rw [List.foldl_cons]
    cases hfind : E.findIter p.2 text with
    | nil =>
      have hnone : E.isMatch p.2 text = false := (hE.findIter_eq_nil p.2 text).mp hfind
      rw [redactPattern_of_noMatch hE hnone]
      exact .skip ((hp.isMatch_iff text).mp hnone) (ih hSs s)
    | cons m ms =>
      have hiterated : I.redactPattern text s p =
          (fun t => E.replaceAll p.2 t I.replacement)^[ms.length + 1] s := by
        rw [redactPattern, hfind, List.length_cons]
      rw [hiterated]
      exact .searches (searches_iterate (hp.replaceAll hS) ms.length s) (ih hSs _)

/-- A text is clean exactly when nothing in it is matched. -/
theorem noMatch_iff_absent {rep s : String}
    (hfinds : List.Forall₂ (fun p S => E.Finds p.2 rep S) ps Ss) : (∀ p ∈ ps, E.isMatch p.2 s = false) ↔ ∀ S ∈ Ss, S.Absent s.toList := by
  induction hfinds with
  | nil => simp
  | cons hp _ ih =>
    rw [List.forall_mem_cons, List.forall_mem_cons]
    exact and_congr (hp.isMatch_iff s) ih

/-- The redacted text is clean. -/
theorem Redactable.clean_redact (hE : E.Documented) (hfinds : I.Finds Ss)
    (h : I.Redactable Ss text) : I.Clean (I.redact text) := by
  obtain hclean | ⟨hproper, hharmless⟩ := h
  · rwa [hclean.redact_eq hE]
  · have hsweeps : Sweeps text.toList Ss text.toList (I.redact text).toList :=
      sweeps_foldl hE hfinds hproper text
    exact (noMatch_iff_absent hfinds).mpr (hsweeps.absent hharmless)

end Redactable

/-! ## Sanitized blocks -/

/-- The text of a block after the inspection: a field `text` is redacted, a string stays. -/
def sanitizedText (I : PatternEgressInspector E) (block : Value) : Option String :=
  match (block.get "text").bind Value.asStr with
  | some text => some (I.redact text)
  | none => block.asStr

variable {block : Value}

theorem blockText_of_field (h : (block.get "text").bind Value.asStr = some text) :
    blockText block = some text := by
  simp [blockText, h]

theorem blockText_inspectBlock : blockText (I.inspectBlock block idx).2.2 = I.sanitizedText block := by
  unfold sanitizedText
  cases hfield : (block.get "text").bind Value.asStr with
  | some text =>
    obtain ⟨v, hget, -⟩ := Option.bind_eq_some_iff.mp hfield
    have hsome : (block.get "text").isSome := by rw [hget]; rfl
    have hblock : (I.inspectBlock block idx).2.2 = block.assign "text" (.string (I.redact text)) := by
      rw [inspectBlock, blockText_of_field hfield, ← inspectText_snd]
    rw [hblock]
    exact blockText_of_field (by rw [Value.get_assign_self hsome]; rfl)
  | none =>
    have htext : blockText block = block.asStr := by simp [blockText, hfield]
    cases block with
    | string text => rfl
    | _ => simp_all [inspectBlock, Value.asStr]

/-- A block that does not count as modified keeps its text. -/
theorem sanitizedText_of_unmodified (hE : E.Documented)
    (h : (I.inspectBlock block idx).2.1 = false) : I.sanitizedText block = blockText block := by
  unfold sanitizedText
  cases hfield : (block.get "text").bind Value.asStr with
  | some text =>
    rw [blockText_of_field hfield]
    rw [inspectBlock, blockText_of_field hfield] at h
    have hnone : (I.inspectText text idx).1 = [] := by simp_all
    have hclean : I.Clean text := (inspectText_fst hE).mp hnone
    exact congrArg some (hclean.redact_eq hE)
  | none => simp [blockText, hfield]

/-- The texts of the sanitized blocks. -/
theorem filterMap_blockText (I : PatternEgressInspector E) (blocks : List Value) (n : ℕ) :
    (((blocks.zipIdx n).map fun (block, idx) => I.inspectBlock block idx).map
      fun b => b.2.2).filterMap blockText = blocks.filterMap I.sanitizedText := by
  induction blocks generalizing n with
  | nil => rfl
  | cons block blocks ih =>
    simp only [List.zipIdx_cons, List.map_cons, List.filterMap_cons, blockText_inspectBlock, ih]

/-- Where no block counts as modified, the blocks have the texts of the sanitized ones. -/
theorem filterMap_of_unmodified (hE : E.Documented) (blocks : List Value) (n : ℕ)
    (h : (((blocks.zipIdx n).map fun (block, idx) => I.inspectBlock block idx).any
      fun b => b.2.1) = false) :
    blocks.filterMap blockText = blocks.filterMap I.sanitizedText := by
  induction blocks generalizing n with
  | nil => rfl
  | cons block blocks ih =>
    simp only [List.zipIdx_cons, List.map_cons, List.any_cons, Bool.or_eq_false_iff] at h
    rw [List.filterMap_cons, List.filterMap_cons, ih _ h.2, sanitizedText_of_unmodified hE h.1]

end PatternEgressInspector

end McpShield
