import McpShield.Gateway.Sanitization

/-!
# What sanitization leaves alone

An inspection returns a block for every block, in order, which differs in the string of its field
`text` at most.  The router puts the blocks back under `content` and keeps the id and the other
members of the result.
-/

open Effect Effect.Prog

namespace McpShield

/-! ## Changed members -/

/-- `v'` is `v`, or it differs in one member named `key`, where `change` relates the two values of
that member. -/
def Value.ChangedAt (key : String) (change : Value → Value → Prop) (v v' : Value) : Prop :=
  v' = v ∨ ∃ before after w w', change w w' ∧
    v = .object (before ++ (key, w) :: after) ∧ v' = .object (before ++ (key, w') :: after)

/-- One string for another. -/
def Value.BothStrings (w w' : Value) : Prop := ∃ s s', w = .string s ∧ w' = .string s'

namespace Value

variable {key : String} {v w w' : Value} {change : Value → Value → Prop}

theorem assignField_of_find (w' : Value) : ∀ {fields : List (String × Value)},
    findField key fields = some w → ∃ before after, fields = before ++ (key, w) :: after ∧
      assignField key w' fields = before ++ (key, w') :: after
  | [], h => by simp [findField] at h
  | (k, u) :: rest, h => by
      by_cases hk : k = key
      · subst hk
        obtain rfl : u = w := by simpa [findField] using h
        exact ⟨[], rest, rfl, by simp [assignField]⟩
      · have hrest : findField key rest = some w := by simpa [findField, hk] using h
        obtain ⟨before, after, rfl, hassign⟩ := assignField_of_find w' hrest
        exact ⟨(k, u) :: before, after, rfl, by simp [assignField, hk, hassign]⟩

theorem assignField_of_find_none : ∀ {fields : List (String × Value)},
    findField key fields = none → assignField key w' fields = fields
  | [], _ => rfl
  | (k, u) :: rest, h => by
      have hk : k ≠ key := fun hk => by simp [findField, hk] at h
      have hrest : findField key rest = none := by simpa [findField, hk] using h
      simp [assignField, hk, assignField_of_find_none hrest]

/-- An assignment changes the member it assigns, if there is one. -/
theorem changedAt_assign (h : ∀ w, v.get key = some w → change w w') :
    ChangedAt key change v (v.assign key w') := by
  cases v with
  | object fields =>
    cases hfind : findField key fields with
    | none => exact .inl (congrArg object (assignField_of_find_none hfind))
    | some w =>
      obtain ⟨before, after, rfl, hassign⟩ := assignField_of_find w' hfind
      exact .inr ⟨before, after, w, w', h w hfind, rfl, congrArg object hassign⟩
  | _ => exact .inl rfl

/-- A member can be assigned its own value. -/
theorem assign_get (h : v.get key = some w) : v.assign key w = v := by
  cases v with
  | object fields =>
    obtain ⟨before, after, rfl, hassign⟩ := assignField_of_find w h
    exact congrArg object hassign
  | _ => rfl

end Value

/-! ## Blocks -/

namespace PatternEgressInspector

variable {E : RegexEngine}

/-- What an inspection of blocks may do to them. -/
structure Frames (I : PatternEgressInspector E) (content : List Value)
    (inspection : InspectionResult) : Prop where
  blocks : List.Forall₂ (Value.ChangedAt "text" Value.BothStrings) content
    inspection.sanitizedContent
  untexted : List.Forall₂ (fun block block' => blockText block = none → block' = block) content
    inspection.sanitizedContent
  unmodified : inspection.modified = false → inspection.sanitizedContent = content ∧
    ∀ block ∈ content, ∀ text, blockText block = some text →
      ∀ p ∈ I.patterns, E.findIter p.2 text = []

variable (I : PatternEgressInspector E) {block : Value} {text : String} (idx : ℕ)

/-- An examined text is the field `text` of an object or the block itself. -/
theorem blockText_cases (h : blockText block = some text) :
    block.get "text" = some (.string text) ∨ block = .string text := by
  cases block with
  | string s => exact .inr (congrArg Value.string (Option.some.inj h))
  | object fields =>
    have hnone : (Value.object fields).asStr = none := rfl
    rw [blockText, hnone, Option.or_none] at h
    obtain ⟨v, hget, hstr⟩ := Option.bind_eq_some_iff.mp h
    cases v with
    | string s => exact .inl (hget.trans (congrArg _ (congrArg Value.string (Option.some.inj hstr))))
    | _ => cases hstr
  | _ => cases h

theorem changedAt_inspectBlock :
    Value.ChangedAt "text" Value.BothStrings block (I.inspectBlock block idx).2.2 := by
  unfold inspectBlock
  cases htext : blockText block with
  | none => exact .inl rfl
  | some text =>
    rcases blockText_cases htext with hget | rfl
    · exact Value.changedAt_assign fun w hw =>
        ⟨text, _, Option.some.inj (hw.symm.trans hget), rfl⟩
    · exact .inl rfl

theorem inspectBlock_of_untexted (h : blockText block = none) :
    (I.inspectBlock block idx).2.2 = block := by
  simp [inspectBlock, h]

/-- Detected is what the patterns find. -/
theorem inspectText_fst_eq_nil :
    (I.inspectText text idx).1 = [] ↔ ∀ p ∈ I.patterns, E.findIter p.2 text = [] := by
  rw [inspectText, (foldl_inspectPattern I.patterns ([], text)).2]
  simp

variable {I idx}

/-- A block that does not count as modified is returned as it is, and no pattern finds anything. -/
theorem inspectBlock_of_unmodified (h : (I.inspectBlock block idx).2.1 = false) :
    (I.inspectBlock block idx).2.2 = block ∧ ∀ text, blockText block = some text →
      ∀ p ∈ I.patterns, E.findIter p.2 text = [] := by
  unfold inspectBlock at h ⊢
  cases htext : blockText block with
  | none => exact ⟨rfl, nofun⟩
  | some text =>
    simp only [htext, Bool.or_eq_false_iff, Bool.not_eq_false', List.isEmpty_iff,
      bne_eq_false_iff_eq] at h
    refine ⟨?_, fun text' heq => Option.some.inj heq ▸ (I.inspectText_fst_eq_nil idx).mp h.1⟩
    dsimp only
    rw [h.2]
    rcases blockText_cases htext with hget | rfl
    · exact Value.assign_get hget
    · rfl

/-- What holds of every inspected block holds of the blocks in order. -/
theorem forall₂_inspectBlock {R : Value → Value → Prop}
    (h : ∀ block idx, R block (I.inspectBlock block idx).2.2) (content : List Value) (n : ℕ) :
    List.Forall₂ R content (((content.zipIdx n).map fun (block, idx) =>
      I.inspectBlock block idx).map fun b => b.2.2) := by
  induction content generalizing n with
  | nil => exact .nil
  | cons block content ih => exact .cons (h block n) (ih (n + 1))

theorem unmodified_content (content : List Value) (n : ℕ)
    (h : (((content.zipIdx n).map fun (block, idx) => I.inspectBlock block idx).any
      fun b => b.2.1) = false) :
    (((content.zipIdx n).map fun (block, idx) => I.inspectBlock block idx).map
        fun b => b.2.2) = content ∧
      ∀ block ∈ content, ∀ text, blockText block = some text →
        ∀ p ∈ I.patterns, E.findIter p.2 text = [] := by
  induction content generalizing n with
  | nil => simp
  | cons block content ih =>
    simp only [List.zipIdx_cons, List.map_cons, List.any_cons, Bool.or_eq_false_iff] at h ⊢
    obtain ⟨hblock, hnone⟩ := inspectBlock_of_unmodified h.1
    obtain ⟨hcontent, hrest⟩ := ih (n + 1) h.2
    exact ⟨by rw [hblock, hcontent], List.forall_mem_cons.mpr ⟨hnone, hrest⟩⟩

variable (I) in
/-- Every content can be inspected, block by block. -/
theorem frames_sanitizeResponse (shown : InspectableResult) :
    ∃ inspection, I.sanitizeResponse shown = .ok inspection ∧
      I.Frames shown.content inspection := by
  refine ⟨_, rfl, ?_⟩
  constructor
  case blocks => exact forall₂_inspectBlock (fun _ idx => I.changedAt_inspectBlock idx) _ 0
  case untexted => exact forall₂_inspectBlock (fun _ idx => I.inspectBlock_of_untexted idx) _ 0
  case unmodified => exact unmodified_content shown.content 0

end PatternEgressInspector

/-! ## The response -/

/-- The value under `content` is replaced by an array, block for block if it was one. -/
def BlocksReplaced (w w' : Value) : Prop :=
  ∃ content', w' = .array content' ∧ ∀ content, w = .array content →
    List.Forall₂ (Value.ChangedAt "text" Value.BothStrings) content content'

/-- A run of the pipeline in which an upstream server answers a tool call with a successful
response, and the pattern inspector `I`, if it is asked, inspects it. -/
structure InspectedRun {E : RegexEngine} (I : PatternEgressInspector E) (router : McpRouter)
    (tr : GatewayTrace) (r : Except McpError JsonRpcMessage) (id : RequestId) (result : Value) :
    Prop where
  ends : ∃ enforcer sessionId message,
    Steps (handleMessage router enforcer sessionId message) tr (.done r)
  answers : ∀ shown (answer : Except GuardrailError InspectionResult),
    ⟨.sanitizeResponse shown, answer⟩ ∈ tr → answer = I.sanitizeResponse shown
  replied : ∃ server sent, ⟨.forwardRequest server sent, .ok (.success id result)⟩ ∈ tr ∧
    sent.method = some methodToolsCall

section Response

variable {E : RegexEngine} {I : PatternEgressInspector E} {router : McpRouter} {tr : GatewayTrace}
  {r : Except McpError JsonRpcMessage} {id : RequestId} {result : Value}

/-- The response that is rebuilt from inspected blocks. -/
theorem changedAt_rebuilt (id : RequestId) {content' : List Value}
    (h : List.Forall₂ (Value.ChangedAt "text" Value.BothStrings)
      (inspectedContent (.success id result)) content') :
    Value.ChangedAt "content" BlocksReplaced result
      (result.assign "content" (.array content')) := by
  refine Value.changedAt_assign fun w hw => ⟨content', rfl, ?_⟩
  rintro content rfl
  have hcontent : (result.get "content").bind Value.asArray = some content := by
    rw [hw]
    rfl
  rwa [inspectedContent_of_array id hcontent] at h

/-- The id and the other members of the result come back. -/
theorem InspectedRun.changedAt (hrun : InspectedRun I router tr r id result) :
    ∃ result', r = .ok (.success id result') ∧
      Value.ChangedAt "content" BlocksReplaced result result' := by
  obtain ⟨enforcer, sessionId, message, hsteps⟩ := hrun.ends
  obtain ⟨server, sent, hmem, hmethod⟩ := hrun.replied
  obtain ⟨toolName, out, rfl, hins⟩ :=
    (handleMessage_spec router enforcer sessionId message).post_of_steps hsteps
      server sent _ hmem hmethod
  unfold Inspected at hins
  split at hins
  · obtain ⟨inspection, hmem', rfl⟩ := hins
    obtain rfl := hrun.answers _ _ hmem'
    obtain ⟨inspected, hinspected, hframes⟩ := I.frames_sanitizeResponse
      { toolName, content := inspectedContent (.success id result), serverId := server }
    rw [hinspected]
    dsimp only
    split
    · exact ⟨_, rfl, changedAt_rebuilt id hframes.blocks⟩
    · exact ⟨result, rfl, .inl rfl⟩
  · exact ⟨result, by rw [hins], .inl rfl⟩

end Response

/-- An inspection changes the strings of text fields only, and the router keeps the id of the
response and all of its result but the content. -/
theorem sanitization_frames {E : RegexEngine} {I : PatternEgressInspector E} {router : McpRouter}
    {tr : GatewayTrace} {r : Except McpError JsonRpcMessage} {id : RequestId} {result : Value}
    (hrun : InspectedRun I router tr r id result) :
    (∀ shown, ∃ inspection, I.sanitizeResponse shown = .ok inspection ∧
      I.Frames shown.content inspection) ∧
    ∃ result', r = .ok (.success id result') ∧
      Value.ChangedAt "content" BlocksReplaced result result' :=
  ⟨I.frames_sanitizeResponse, hrun.changedAt⟩

/-- A response with an injection. -/
theorem sanitization_frames_textBlock :
    ∃ (I : PatternEgressInspector .backtracking) (tr : GatewayTrace)
      (r : Except McpError JsonRpcMessage), PatternEgressInspector.new = some I ∧
        InspectedRun I egressRouter tr r (.integer 1) textBlockResult ∧
        ∃ result', r = .ok (.success (.integer 1) result') ∧
          Value.ChangedAt "content" BlocksReplaced textBlockResult result' := by
  obtain ⟨I, hnew, -⟩ := exists_shipped
  obtain ⟨tr, r, hrun⟩ := exists_sanitizedRun I textBlockResult
  have hinspected : InspectedRun I egressRouter tr r (.integer 1) textBlockResult :=
    { ends := hrun.ends, answers := hrun.answers, replied := hrun.replied }
  exact ⟨I, tr, r, hnew, hinspected, (sanitization_frames hinspected).2⟩

end McpShield
