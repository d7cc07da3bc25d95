import McpShield.Gateway.Mediation
import McpShield.Guardrail.FixedPoint

/-!
# Sanitized responses

What the client receives of the response of an upstream server when the pattern inspector is
configured.  A text field of a content block comes back redacted; a string among the blocks, and the
text of a result without blocks, come back as they are.  `SanitizedRun.clean_of_sanitizable` says for
which results the client receives no match.
-/

open Effect Effect.Prog

namespace McpShield

open Regex Redaction PatternEgressInspector

variable {E : RegexEngine} {Ss : List (Matcher Char)}

/-- The texts in a result at the places that are examined in the result of the server. -/
def examinedTexts (upstream result : Value) : List String :=
  match (upstream.get "content").bind Value.asArray with
  | some _ => (((result.get "content").bind Value.asArray).getD []).filterMap blockText
  | none => ((result.get "text").bind Value.asStr).toList

/-- The texts that come back for a result. -/
def PatternEgressInspector.returnedTexts (I : PatternEgressInspector E) (result : Value) :
    List String :=
  match (result.get "content").bind Value.asArray with
  | some blocks => blocks.filterMap I.sanitizedText
  | none => ((result.get "text").bind Value.asStr).toList

/-- The texts that the inspection never writes are clean: the strings among the blocks, and the text of
a result without blocks. -/
def PatternEgressInspector.KeptClean (I : PatternEgressInspector E) (result : Value) : Prop :=
  match (result.get "content").bind Value.asArray with
  | some blocks => ∀ text, .string text ∈ blocks → I.Clean text
  | none => ∀ text, (result.get "text").bind Value.asStr = some text → I.Clean text

/-- Every text field of a block of the result is such a text. -/
def OnTextFields (P : String → Prop) (result : Value) : Prop :=
  ∀ blocks, (result.get "content").bind Value.asArray = some blocks → ∀ block ∈ blocks, ∀ text,
    (block.get "text").bind Value.asStr = some text → P text

/-- The result of a server has no match where the inspection does not write, and replacing the matches
in its text fields brings none about. -/
structure PatternEgressInspector.Sanitizable (I : PatternEgressInspector E) (Ss : List (Matcher Char))
    (result : Value) : Prop where
  kept : I.KeptClean result
  fields : OnTextFields (I.Redactable Ss) result

section Returned

variable {I : PatternEgressInspector E} {result : Value}

/-- The texts of a result that is not rebuilt. -/
theorem examinedTexts_self
    (h : ∀ blocks, (result.get "content").bind Value.asArray = some blocks →
      blocks.filterMap blockText = blocks.filterMap I.sanitizedText) :
    examinedTexts result result = I.returnedTexts result := by
  unfold examinedTexts returnedTexts
  cases hcontent : (result.get "content").bind Value.asArray with
  | none => rfl
  | some blocks => exact h blocks hcontent

/-- The texts of a rebuilt result. -/
theorem examinedTexts_assign {content : List Value}
    (h : ∀ blocks, (result.get "content").bind Value.asArray = some blocks →
      content.filterMap blockText = blocks.filterMap I.sanitizedText) :
    examinedTexts result (result.assign "content" (.array content)) = I.returnedTexts result := by
  unfold examinedTexts returnedTexts
  cases hcontent : (result.get "content").bind Value.asArray with
  | none =>
    have hne : "text" ≠ "content" := by decide
    rw [Value.get_assign_ne hne]
  | some blocks =>
    obtain ⟨v, hget, -⟩ := Option.bind_eq_some_iff.mp hcontent
    have hsome : (result.get "content").isSome := by rw [hget]; rfl
    rw [Value.get_assign_self hsome]
    exact h blocks hcontent

theorem clean_sanitizedText_iff {block : Value} :
    (∀ text, I.sanitizedText block = some text → I.Clean text) ↔
      (∀ text, block = .string text → I.Clean text) ∧
        ∀ text, (block.get "text").bind Value.asStr = some text → I.Clean (I.redact text) := by
  unfold sanitizedText
  cases block with
  | string text => simp [Value.get, Value.asStr]
  | object fields =>
    cases hfield : ((Value.object fields).get "text").bind Value.asStr <;> simp [Value.asStr]
  | _ => simp [Value.get, Value.asStr]

/-- The returned texts are clean exactly when those are that are never written and those that are
redacted. -/
theorem clean_returnedTexts_iff :
    (∀ text ∈ I.returnedTexts result, I.Clean text) ↔
      I.KeptClean result ∧ OnTextFields (fun text => I.Clean (I.redact text)) result := by
  unfold returnedTexts KeptClean OnTextFields
  cases hcontent : (result.get "content").bind Value.asArray with
  | none => simp
  | some blocks =>
    have hblocks : (∀ text ∈ blocks.filterMap I.sanitizedText, I.Clean text) ↔
        ∀ block ∈ blocks, ∀ text, I.sanitizedText block = some text → I.Clean text := by
      simp only [List.mem_filterMap, forall_exists_index, and_imp]
      rw [forall_comm]
      exact forall_congr' fun block => forall_comm
    rw [hblocks]
    simp only [clean_sanitizedText_iff, Option.some.injEq, forall_eq']
    constructor
    · exact fun h => ⟨fun text htext => (h _ htext).1 text rfl, fun block hblock => (h block hblock).2⟩
    · rintro ⟨hkept, hfields⟩ block hblock
      exact ⟨fun text heq => hkept text (heq ▸ hblock), hfields block hblock⟩

theorem inspectedContent_of_array {blocks : List Value} (id : RequestId)
    (h : (result.get "content").bind Value.asArray = some blocks) :
    inspectedContent (.success id result) = blocks := by
  simp [inspectedContent, h]

/-- What the router hands back for a successful response that the inspector has seen. -/
theorem inspected_returnedTexts (hE : E.Documented) {router : McpRouter}
    (hr : router.egressInspector = true) {toolName server : String} {id : RequestId}
    {out : JsonRpcMessage} {tr : GatewayTrace}
    (hanswer : ∀ shown (answer : Except GuardrailError InspectionResult),
      ⟨.sanitizeResponse shown, answer⟩ ∈ tr → answer = I.sanitizeResponse shown)
    (hins : Inspected router toolName server (.success id result) out tr) :
    ∃ result', out = .success id result' ∧
      examinedTexts result result' = I.returnedTexts result := by
  unfold Inspected at hins
  split at hins
  · obtain ⟨inspection, hmem, hout⟩ := hins
    obtain rfl := hanswer _ _ hmem
    simp only [sanitizeResponse] at hout
    split at hout
    · next hmodified =>
      refine ⟨_, hout, examinedTexts_assign fun blocks hblocks => ?_⟩
      rw [inspectedContent_of_array id hblocks]
      exact filterMap_blockText I blocks 0
    · next hmodified =>
      refine ⟨_, hout, examinedTexts_self fun blocks hblocks => ?_⟩
      rw [inspectedContent_of_array id hblocks, Bool.not_eq_true] at hmodified
      exact filterMap_of_unmodified hE blocks 0 hmodified
  · next hempty =>
    refine ⟨result, hins, examinedTexts_self fun blocks hblocks => ?_⟩
    rw [inspectedContent_of_array id hblocks, hr, Bool.true_and, Bool.not_eq_true',
      Bool.not_eq_false, List.isEmpty_iff] at hempty
    rw [hempty]
    rfl

end Returned

/-- A run of the pipeline in which the inspector answers as a pattern inspector, and an upstream
server answers a tool call with a successful response. -/
structure SanitizedRun (I : PatternEgressInspector E) (router : McpRouter) (tr : GatewayTrace)
    (r : Except McpError JsonRpcMessage) (id : RequestId) (result : Value) : Prop where
  configured : router.egressInspector = true
  ends : ∃ enforcer sessionId message,
    Steps (handleMessage router enforcer sessionId message) tr (.done r)
  answers : ∀ shown (answer : Except GuardrailError InspectionResult),
    ⟨.sanitizeResponse shown, answer⟩ ∈ tr → answer = I.sanitizeResponse shown
  replied : ∃ server sent, ⟨.forwardRequest server sent, .ok (.success id result)⟩ ∈ tr ∧
    sent.method = some methodToolsCall

section Run

variable {I : PatternEgressInspector E} {router : McpRouter} {tr : GatewayTrace}
  {r : Except McpError JsonRpcMessage} {id : RequestId} {result : Value}

/-- What the client receives. -/
theorem SanitizedRun.returned (hE : E.Documented) (hrun : SanitizedRun I router tr r id result) :
    ∃ result', r = .ok (.success id result') ∧
      examinedTexts result result' = I.returnedTexts result := by
  obtain ⟨enforcer, sessionId, message, hsteps⟩ := hrun.ends
  obtain ⟨server, sent, hmem, hmethod⟩ := hrun.replied
  obtain ⟨toolName, out, rfl, hins⟩ :=
    (handleMessage_spec router enforcer sessionId message).post_of_steps hsteps
      server sent _ hmem hmethod
  obtain ⟨result', rfl, htexts⟩ :=
    inspected_returnedTexts hE hrun.configured hrun.answers hins
  exact ⟨result', rfl, htexts⟩

/-- No text that the inspector has examined comes back with a match if the result is sanitizable, and
only if the texts that are never written are clean. -/
theorem SanitizedRun.clean_of_sanitizable (hE : E.Documented) (hfinds : I.Finds Ss)
    (hrun : SanitizedRun I router tr r id result) :
    (I.Sanitizable Ss result → ∃ result', r = .ok (.success id result') ∧
      ∀ text ∈ examinedTexts result result', I.Clean text) ∧
    ((∃ result', r = .ok (.success id result') ∧
      ∀ text ∈ examinedTexts result result', I.Clean text) → I.KeptClean result) := by
  obtain ⟨result', rfl, htexts⟩ := hrun.returned hE
  constructor
  · intro h
    refine ⟨result', rfl, ?_⟩
    rw [htexts, clean_returnedTexts_iff]
    refine ⟨h.kept, fun blocks hblocks block hblock text htext => ?_⟩
    exact (h.fields blocks hblocks block hblock text htext).clean_redact hE hfinds
  · rintro ⟨result'', heq, hclean⟩
    obtain ⟨-, rfl⟩ := JsonRpcMessage.success.inj (Except.ok.inj heq)
    rw [htexts] at hclean
    exact (clean_returnedTexts_iff.mp hclean).1

end Run

/-! ## Runs with the shipped inspector -/

/-- A router with an inspector and no other optional component. -/
def egressRouter : McpRouter := { plainRouter with egressInspector := true }

/-- Open components with an inspector, whose servers answer with `result`. -/
def egressComponents (I : PatternEgressInspector E) (result : Value) : Components :=
  { openComponents with
    upstream := fun _ _ => .ok (.success (.integer 1) result)
    sanitizeResponse := I.sanitizeResponse }

/-- Every result may be the response to a tool call. -/
theorem exists_sanitizedRun (I : PatternEgressInspector E) (result : Value) :
    ∃ tr r, SanitizedRun I egressRouter tr r (.integer 1) result := by
  let message : JsonRpcMessage := .request (.integer 1) methodToolsCall (some echoParams)
  let program := handleMessage egressRouter (.new [scopeToolsCall]) none message
  let answer := (egressComponents I result).answer
  -- the tool is looked up, its arguments are validated, and the call is forwarded
  have hstart := steps_stepWith answer 3 program
  have hforward : ⟨.forwardRequest "echo" message, .ok (.success (.integer 1) result)⟩ ∈
      (stepWith answer 3 program).1 := List.mem_of_getElem? (i := 2) rfl
  obtain ⟨tr, r, hrest, hanswer⟩ := exists_steps_done answer (stepWith answer 3 program).2
  refine ⟨_, r,
    { configured := rfl
      ends := ⟨_, _, _, hstart.trans hrest⟩
      answers := fun shown given hmem => ?_
      replied := ⟨"echo", message, List.mem_append_left _ hforward, rfl⟩ }⟩
  rcases List.mem_append.mp hmem with hmem | hmem
  · exact eq_answer_of_mem_stepWith hmem
  · exact hanswer _ _ hmem

/-- The shipped inspector finds the injection. -/
theorem exists_shipped : ∃ I : PatternEgressInspector .backtracking,
    new = some I ∧ ¬ I.Clean injection := by
  obtain ⟨I, hI⟩ := exists_new RegexEngine.backtracking_documented
  have hfirst : (parse "(?i)\\[system\\]:?").any (fun e =>
      (firstMatch isAsciiWord e true injection.toList).isSome) = true := by
    decide +kernel
  obtain ⟨e, hparse, hmatch⟩ := (Option.any_eq_true _ _).mp hfirst
  refine ⟨I, hI, ?_⟩
  exact not_clean_of_found RegexEngine.backtracking_replaces hI (List.mem_cons_self ..) hparse
    (firstMatch_isSome_iff_found.mp hmatch)

/-- An injection in a text block. -/
def textBlockResult : Value :=
  .object [("content", .array [.object [("type", .string "text"), ("text", .string injection)]])]

/-- An injection in a bare string. -/
def bareStringResult : Value := .object [("content", .array [.string injection])]

theorem clean_of_sanitizable_textBlock : ∃ (I : PatternEgressInspector .backtracking)
    (tr : GatewayTrace) (r : Except McpError JsonRpcMessage), new = some I ∧ ¬ I.Clean injection ∧
      SanitizedRun I egressRouter tr r (.integer 1) textBlockResult ∧
      ∃ result', r = .ok (.success (.integer 1) result') ∧
        ∀ text ∈ examinedTexts textBlockResult result', I.Clean text := by
  obtain ⟨I, hI, hmatch⟩ := exists_shipped
  obtain ⟨tr, r, hrun⟩ := exists_sanitizedRun I textBlockResult
  have hfinds := finds_of_new RegexEngine.backtracking_replaces hI
  refine ⟨I, tr, r, hI, hmatch, hrun,
    (hrun.clean_of_sanitizable RegexEngine.backtracking_documented hfinds).1 ⟨?_, ?_⟩⟩
  · intro text htext
    cases List.mem_singleton.mp htext
  · intro blocks hblocks block hblock text htext
    obtain rfl : _ = blocks := Option.some.inj hblocks
    obtain rfl := List.mem_singleton.mp hblock
    obtain rfl : injection = text := Option.some.inj htext
    exact redactable_of_separated RegexEngine.backtracking_replaces separated_injection

/-- A bare string comes back with its injection. -/
theorem bareString_not_clean : ∃ (I : PatternEgressInspector .backtracking) (tr : GatewayTrace)
    (result' : Value), new = some I ∧
      SanitizedRun I egressRouter tr (.ok (.success (.integer 1) result')) (.integer 1)
        bareStringResult ∧
      ∃ text ∈ examinedTexts bareStringResult result', ¬ I.Clean text := by
  obtain ⟨I, hI, hmatch⟩ := exists_shipped
  obtain ⟨tr, r, hrun⟩ := exists_sanitizedRun I bareStringResult
  obtain ⟨result', rfl, htexts⟩ := hrun.returned RegexEngine.backtracking_documented
  refine ⟨I, tr, result', hI, hrun, injection, ?_, hmatch⟩
  rw [htexts]
  exact List.mem_singleton.mpr rfl

end McpShield
