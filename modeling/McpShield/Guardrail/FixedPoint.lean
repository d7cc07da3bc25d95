import McpShield.Error
import McpShield.Guardrail.Egress
import McpShield.Lib.RegexParse

/-!
# Sanitized text

The patterns of the inspector are replaced one after the other in the text as it has become, but only
those that the text as it was has a match of.  The text of a match may be what kept another pattern
from matching, so the sanitized text need not be clean: `fixedPoint_of_separated` says when it is.
-/

namespace McpShield

open Regex Redaction PatternEgressInspector

/-! ## The shipped patterns -/

/-- The text that replaces a match. -/
def redactionMark : String := "[REDACTED: Potential prompt injection detected]"

/-- The patterns that can match across other text: their openings, the character that must not stand
between, and their closings. -/
def spans : List (String × Char × String) :=
  [ ("<!--\\s*", '>', "-->?"), ("/\\*\\s*", '*', "\\*/"),
    ("(?i)https?://", '/', "(?i)\\.(?:xyz|top|club|online|site|info)/") ]

/-- The texts that a pattern matches. -/
def patternLanguage (word : Char → Bool) (pattern : String) : Language Char :=
  match parse pattern with
  | some e => language word e
  | none => 0

/-- The texts that some shipped pattern matches. -/
def matchedTexts (word : Char → Bool) : Language Char :=
  {u | ∃ p ∈ defaultPatterns, u ∈ patternLanguage word p.2}

/-- No redaction clears the way between an opening and a closing: where every blocker between them
is in a text that some pattern matches, there is none. -/
def Separated (word : Char → Bool) (text : String) : Prop :=
  ∀ opening blocker closing, (opening, blocker, closing) ∈ spans →
    ∀ o ∈ patternLanguage word opening, ∀ c ∈ patternLanguage word closing, ∀ between,
      o ++ (between ++ c) <:+: text.toList → Covered (matchedTexts word) blocker between →
        blocker ∉ between

/-- The sanitized text is clean, as is the text that replaces a match, and a second inspection detects
nothing and changes nothing. -/
structure FixedPoint {E : RegexEngine} (I : PatternEgressInspector E) (text : String) : Prop where
  replacement : I.Clean I.replacement
  clean : ∀ idx, I.Clean (I.inspectText text idx).2
  again : ∀ idx idx',
    I.inspectText (I.inspectText text idx).2 idx' = ([], (I.inspectText text idx).2)

/-! ## Checks of the patterns -/

/-- The texts of the expression have no bracket, are not empty, and do not occur in the mark. -/
def apartFromMark (mark : List Char) (e : Expr) : Bool :=
  !nullable e && avoids isAsciiWord '[' e && avoids isAsciiWord ']' e &&
    (firstMatch isAsciiWord e true mark).isNone

/-- The texts of the expression begin with their only bracket, do not go on as the mark does, and do
not occur in the mark. -/
def bracketFirst (mark : List Char) : Expr → Bool
  | .cat (.set s) (.cat (.set t) e) =>
      s == .single '[' && !t.mem isAsciiWord 'R' && avoids isAsciiWord '[' (.cat (.set t) e) &&
        (firstMatch isAsciiWord (.cat (.set s) (.cat (.set t) e)) true mark).isNone
  | _ => false

/-- The expression is the span, and its opening and closing are apart from the mark. -/
def isSpan (mark : List Char) (e : Expr) (span : String × Char × String) : Bool :=
  match parse span.1, parse span.2.2 with
  | some opening, some closing =>
      e == append opening (.cat (.star true (.set (.but span.2.1))) closing) &&
        anchorFree opening && anchorFree closing && apartFromMark mark opening &&
        apartFromMark mark closing && !mark.contains span.2.1
  | _, _ => false

def checkedExpr (mark : List Char) (e : Expr) : Bool :=
  anchorFree e && !nullable e &&
    (apartFromMark mark e || bracketFirst mark e || spans.any (isSpan mark e))

theorem checked_of_chars {mark cs : List Char}
    (h : (parseChars cs).any (checkedExpr mark) = true) :
    (parse (String.ofList cs)).any (checkedExpr (String.ofList mark).toList) = true := by
  rwa [parse_ofList, String.toList_ofList]

/-- All shipped patterns are of one of the three kinds. -/
theorem checked_defaultPatterns :
    ∀ p ∈ defaultPatterns, (parse p.2).any (checkedExpr redactionMark.toList) = true := by
  simp only [defaultPatterns, List.forall_mem_cons]
  refine ⟨?_, ?_, ?_, ?_, ?_, ?_, ?_, ?_, ?_, ?_, ?_, ?_, ?_, ?_, ?_, ?_, ?_, ?_, ?_, ?_, ?_, ?_, ?_,
    nofun⟩
  all_goals exact checked_of_chars (by decide +kernel)

theorem length_defaultPatterns : ∀ p ∈ defaultPatterns, p.2.length ≤ 128 := by
  simp only [defaultPatterns, List.forall_mem_cons]
  refine ⟨?_, ?_, ?_, ?_, ?_, ?_, ?_, ?_, ?_, ?_, ?_, ?_, ?_, ?_, ?_, ?_, ?_, ?_, ?_, ?_, ?_, ?_, ?_,
    nofun⟩
  all_goals exact String.length_ofList.trans_le (by decide)

theorem anchorFree_of_checkedExpr {mark : List Char} {e : Expr} (h : checkedExpr mark e = true) :
    anchorFree e = true := by
  simp only [checkedExpr, Bool.and_eq_true] at h
  exact h.1.1

theorem nil_not_mem_of_checkedExpr {mark : List Char} {e : Expr} {word : Char → Bool}
    (h : checkedExpr mark e = true) : [] ∉ language word e := by
  simp only [checkedExpr, Bool.and_eq_true, Bool.not_eq_true'] at h
  intro hmem
  rw [nullable_of_nil_mem hmem] at h
  exact Bool.noConfusion h.1.2

section Tame

variable {word : Char → Bool} {e : Expr} {text : String} {u : List Char}

/-- The mark begins with its only opening bracket and ends with a closing one, is ASCII and has no
dollar sign. -/
theorem redactionMark_eq : ∃ inner, redactionMark.toList = '[' :: 'R' :: inner ∧
    '[' ∉ 'R' :: inner ∧ redactionMark.toList.getLast? = some ']' ∧
      (redactionMark.toList.all fun c => decide (c.toNat < 128)) = true ∧
        '$' ∉ redactionMark.toList := by
  have hchars : redactionMark.toList = _ := String.toList_ofList
  rw [hchars]
  exact ⟨_, rfl, by decide, by decide, by decide, by decide⟩

theorem redactionMark_ne_nil : redactionMark.toList ≠ [] := by
  obtain ⟨inner, hmark, -⟩ := redactionMark_eq
  rw [hmark]
  exact List.cons_ne_nil _ _

/-- A text that is not found in the mark does not occur in it. -/
theorem not_infix_mark (hword : ∀ c, c.toNat < 128 → word c = isAsciiWord c)
    (he : anchorFree e = true) (hnone : (firstMatch isAsciiWord e true redactionMark.toList).isNone)
    (hu : u ∈ language word e) : ¬ u <:+: redactionMark.toList := by
  obtain ⟨_, -, -, -, hascii, -⟩ := redactionMark_eq
  rw [List.all_eq_true] at hascii
  intro hoccurs
  have hu' : u ∈ language isAsciiWord e := mem_language_congr
    (fun c hc => hword c (of_decide_eq_true (hascii c (hoccurs.subset hc)))) hu
  have hfound := firstMatch_isSome_iff_found.mpr ((found_iff_language he).mpr ⟨u, hu', hoccurs⟩)
  rw [Option.isNone_iff_eq_none.mp hnone] at hfound
  cases hfound

theorem not_mem_of_avoids_ascii (hword : ∀ c, c.toNat < 128 → word c = isAsciiWord c) {c : Char}
    (hc : c.toNat < 128) (h : avoids isAsciiWord c e = true) (hu : u ∈ language word e) : c ∉ u := by
  rw [← avoids_congr (hword c hc)] at h
  exact not_mem_of_avoids h hu

theorem apart_of_apartFromMark (hword : ∀ c, c.toNat < 128 → word c = isAsciiWord c)
    (he : anchorFree e = true) (h : apartFromMark redactionMark.toList e = true) (hu : u ∈ language word e) :
    Apart redactionMark.toList u := by
  simp only [apartFromMark, Bool.and_eq_true, Bool.not_eq_true'] at h
  obtain ⟨⟨⟨hnullable, hopen⟩, hclose⟩, hnone⟩ := h
  have hne : u ≠ [] := by
    rintro rfl
    rw [nullable_of_nil_mem hu] at hnullable
    cases hnullable
  obtain ⟨inner, hmark, -, hlast, -⟩ := redactionMark_eq
  have hfirst : redactionMark.toList.head? = some '[' := by rw [hmark]; rfl
  exact apart_of_ends hfirst hlast hne (not_mem_of_avoids_ascii hword (by decide) hopen hu)
    (not_mem_of_avoids_ascii hword (by decide) hclose hu) (not_infix_mark hword he hnone hu)

theorem apart_of_bracketFirst (hword : ∀ c, c.toNat < 128 → word c = isAsciiWord c)
    (he : anchorFree e = true) (h : bracketFirst redactionMark.toList e = true) (hu : u ∈ language word e) :
    Apart redactionMark.toList u := by
  unfold bracketFirst at h
  split at h
  · next s t e' =>
    simp only [Bool.and_eq_true, beq_iff_eq, Bool.not_eq_true'] at h
    obtain ⟨⟨⟨hs, ht⟩, hopen⟩, hnone⟩ := h
    have hoccurs := not_infix_mark hword he hnone hu
    obtain ⟨_, ⟨c, rfl, hc⟩, tail, htail, rfl⟩ := mem_language_cat.mp hu
    have hbracket : '[' ∉ tail := not_mem_of_avoids_ascii hword (by decide) hopen htail
    obtain ⟨_, ⟨d, rfl, hd⟩, rest, -, rfl⟩ := mem_language_cat.mp htail
    rw [hs, mem_single] at hc
    have hne : d ≠ 'R' := by
      rintro rfl
      rw [CharSet.mem_congr (hword 'R' (by decide)), ht] at hd
      cases hd
    obtain ⟨inner, hmark, hmem, -⟩ := redactionMark_eq
    exact apart_of_head hmark hmem (by rw [hc]; rfl) hbracket rfl hne hoccurs
  · cases h

theorem tame_of_checkedExpr (hword : ∀ c, c.toNat < 128 → word c = isAsciiWord c)
    (hsep : Separated word text) (h : checkedExpr redactionMark.toList e = true) :
    Tame redactionMark.toList text.toList (matchedTexts word) (language word e) := by
  simp only [checkedExpr, Bool.and_eq_true, Bool.or_eq_true, List.any_eq_true] at h
  obtain ⟨⟨he, -⟩, (hapart | hbracket) | ⟨⟨o, blocker, c⟩, hmem, hspan⟩⟩ := h
  · exact .apart fun u hu => apart_of_apartFromMark hword he hapart hu
  · exact .apart fun u hu => apart_of_bracketFirst hword he hbracket hu
  · unfold isSpan at hspan
    split at hspan
    · next opening closing hopening hclosing =>
      simp only [Bool.and_eq_true, beq_iff_eq, Bool.not_eq_true'] at hspan
      obtain ⟨⟨⟨⟨⟨rfl, ho⟩, hc⟩, hoApart⟩, hcApart⟩, hblocker⟩ := hspan
      rw [language_span]
      refine .span (fun u hu => apart_of_apartFromMark hword ho hoApart hu)
        (fun u hu => apart_of_apartFromMark hword hc hcApart hu)
        (fun hmem => ?_) fun u hu v hv between => ?_
      · rw [List.contains_iff_mem.mpr hmem] at hblocker
        cases hblocker
      · refine hsep o blocker c hmem u ?_ v ?_ between
        · rwa [patternLanguage, hopening]
        · rwa [patternLanguage, hclosing]
    · cases hspan

end Tame

/-! ## The redaction -/

section Redact

variable {E : RegexEngine} {I : PatternEgressInspector E} {word : Char → Bool} {text : String}

theorem patternLanguage_of_parse {pattern : String} {e : Expr} (h : parse pattern = some e) :
    patternLanguage word pattern = language word e := by
  rw [patternLanguage, h]

/-- A shipped pattern is of one of the three kinds. -/
theorem exists_checkedExpr {p : PatternType × String} (hp : p ∈ defaultPatterns) :
    ∃ e, parse p.2 = some e ∧ checkedExpr redactionMark.toList e = true := by
  have hchecked := checked_defaultPatterns p hp
  cases hparse : parse p.2 with
  | none => simp [hparse] at hchecked
  | some e => exact ⟨e, rfl, by simpa [hparse] using hchecked⟩

theorem tame_defaultPatterns (hE : E.Replaces word) (hsep : Separated word text) :
    ∀ L ∈ defaultPatterns.map fun p => patternLanguage word p.2,
      Tame redactionMark.toList text.toList (matchedTexts word) L ∧ L ≤ matchedTexts word := by
  rw [List.forall_mem_map]
  intro p hp
  obtain ⟨e, hparse, hchecked⟩ := exists_checkedExpr hp
  refine ⟨?_, fun u hu => ⟨p, hp, hu⟩⟩
  rw [patternLanguage_of_parse hparse]
  exact tame_of_checkedExpr hE.word_ascii hsep hchecked

theorem compilePattern_eq_some {p : PatternType × String} {q : PatternType × E.Regex} :
    compilePattern p = some q ↔ p.1 = q.1 ∧ E.new p.2 = .ok q.2 := by
  obtain ⟨t, r⟩ := q
  unfold compilePattern
  cases E.new p.2 <;> simp [Except.toOption]

/-- All shipped patterns compile. -/
theorem exists_new (hE : E.Documented) : ∃ I : PatternEgressInspector E, new = some I := by
  obtain ⟨_, -, hcompiles⟩ := hE.compiles
  have hpatterns : ∃ qs, defaultPatterns.mapM (compilePattern (E := E)) = some qs := by
    refine exists_mapM fun p hp => ?_
    obtain ⟨e, hparse, -⟩ := exists_checkedExpr hp
    obtain ⟨r, hr, -⟩ := hcompiles p.2 e (length_defaultPatterns p hp) hparse
    exact ⟨(p.1, r), compilePattern_eq_some.mpr ⟨rfl, hr⟩⟩
  obtain ⟨qs, hqs⟩ := hpatterns
  exact ⟨_, Option.map_eq_some_iff.mpr ⟨qs, hqs, rfl⟩⟩

/-- The compiled patterns of the shipped inspector. -/
theorem patterns_of_new (h : new = some I) :
    I.replacement = redactionMark ∧
      List.Forall₂ (fun p q => E.new p.2 = .ok q.2) defaultPatterns I.patterns := by
  obtain ⟨patterns, hpatterns, rfl⟩ := Option.map_eq_some_iff.mp h
  exact ⟨rfl, (mapM_eq_some_iff.mp hpatterns).imp fun p q h => (compilePattern_eq_some.mp h).2⟩

theorem isMatch_eq_false_iff (hE : E.Replaces word) {p : PatternType × String} {r : E.Regex}
    {s : String} (hp : p ∈ defaultPatterns) (hr : E.new p.2 = .ok r) :
    E.isMatch r s = false ↔ Free (patternLanguage word p.2) s.toList := by
  obtain ⟨e, hparse, hchecked⟩ := exists_checkedExpr hp
  rw [patternLanguage_of_parse hparse, ← not_found_iff_free (anchorFree_of_checkedExpr hchecked),
    ← hE.isMatch_iff p.2 e r hparse hr, Bool.not_eq_true]

/-- All matches of a shipped pattern are replaced by the mark. -/
theorem scan_replaceAll (hE : E.Replaces word) {p : PatternType × String} {r : E.Regex}
    (hp : p ∈ defaultPatterns) (hr : E.new p.2 = .ok r) (s : String) :
    Scan redactionMark.toList (patternLanguage word p.2) s.toList
      (E.replaceAll r s redactionMark).toList := by
  obtain ⟨e, hparse, hchecked⟩ := exists_checkedExpr hp
  obtain ⟨_, -, -, -, -, hdollar⟩ := redactionMark_eq
  rw [patternLanguage_of_parse hparse]
  exact hE.replaceAll p.2 e r hparse hr (anchorFree_of_checkedExpr hchecked)
    (nil_not_mem_of_checkedExpr hchecked) s redactionMark hdollar

/-- What a shipped pattern matches: its texts, wherever they are. -/
def shippedMatcher (word : Char → Bool) (p : PatternType × String) : Matcher Char :=
  .ofLanguage redactionMark.toList (patternLanguage word p.2)

/-- The compiled patterns match what the patterns stand for, and it is replaced by the mark. -/
theorem finds_of_compiled (hE : E.Replaces word) {ps : List (PatternType × String)}
    {qs : List (PatternType × E.Regex)} (hps : ps ⊆ defaultPatterns)
    (hqs : List.Forall₂ (fun p q => E.new p.2 = .ok q.2) ps qs) :
    List.Forall₂ (fun q S => E.Finds q.2 redactionMark S) qs (ps.map (shippedMatcher word)) := by
  induction hqs with
  | nil => exact .nil
  | cons hpq _ ih =>
    obtain ⟨hp, hps⟩ := List.cons_subset.mp hps
    refine .cons ⟨fun s => ?_, fun _ s => ?_⟩ (ih hps)
    · exact (isMatch_eq_false_iff hE hp hpq).trans absent_ofLanguage.symm
    · exact search_ofLanguage.mpr (scan_replaceAll hE hp hpq s)

theorem finds_of_new (hE : E.Replaces word) (hI : new = some I) :
    I.Finds (defaultPatterns.map (shippedMatcher word)) := by
  obtain ⟨hmark, hpatterns⟩ := patterns_of_new hI
  rw [Finds, hmark]
  exact finds_of_compiled hE (List.Subset.refl _) hpatterns

/-- Compiled patterns have no match exactly when none has a text in the text. -/
theorem noMatch_iff_free (hE : E.Replaces word) {ps : List (PatternType × String)}
    {qs : List (PatternType × E.Regex)} (hps : ps ⊆ defaultPatterns)
    (hqs : List.Forall₂ (fun p q => E.new p.2 = .ok q.2) ps qs) {s : String} :
    (∀ q ∈ qs, E.isMatch q.2 s = false) ↔
      ∀ p ∈ ps, Free (patternLanguage word p.2) s.toList := by
  rw [noMatch_iff_absent (finds_of_compiled hE hps hqs), List.forall_mem_map]
  exact forall₂_congr fun p _ => absent_ofLanguage

/-- A text is clean exactly when no shipped pattern has a text in it. -/
theorem clean_iff_free (hE : E.Replaces word) (hI : new = some I) {s : String} :
    I.Clean s ↔ ∀ p ∈ defaultPatterns, Free (patternLanguage word p.2) s.toList :=
  noMatch_iff_free hE (List.Subset.refl _) (patterns_of_new hI).2

theorem not_clean_of_found (hE : E.Replaces word) (hI : new = some I)
    {p : PatternType × String} {e : Expr} {s : String} (hp : p ∈ defaultPatterns)
    (hparse : parse p.2 = some e) (hfound : Found word e s.toList) : ¬ I.Clean s := by
  intro hclean
  obtain ⟨e', hparse', hchecked⟩ := exists_checkedExpr hp
  obtain rfl : e = e' := Option.some.inj (hparse.symm.trans hparse')
  have hfree := (clean_iff_free hE hI).mp hclean p hp
  rw [patternLanguage_of_parse hparse] at hfree
  exact (not_found_iff_free (anchorFree_of_checkedExpr hchecked)).mpr hfree hfound

/-- The text that replaces a match is clean. -/
theorem clean_replacement (hE : E.Replaces word) (hI : new = some I) :
    I.Clean I.replacement := by
  have hsep : Separated word "" := by
    intro o b c hspan u hu v hv between hoccurs _
    have hnil : u ++ (between ++ v) = [] := List.infix_nil.mp hoccurs
    simp_all
  rw [(patterns_of_new hI).1]
  refine (clean_iff_free hE hI).mpr fun p hp => ?_
  exact (tame_defaultPatterns hE hsep _ (List.mem_map_of_mem hp)).1.free_mark

/-- Where no redaction clears the way for another match, replacing matches brings none about. -/
theorem redactable_of_separated (hE : E.Replaces word) (hsep : Separated word text) :
    I.Redactable (defaultPatterns.map (shippedMatcher word)) text := by
  refine .inr ⟨List.forall_mem_map.mpr fun p hp => proper_ofLanguage ?_, ?_⟩
  · obtain ⟨e, hparse, hchecked⟩ := exists_checkedExpr hp
    rw [patternLanguage_of_parse hparse]
    exact nil_not_mem_of_checkedExpr hchecked
  · have htame := harmless_of_tame (tame_defaultPatterns hE hsep) redactionMark_ne_nil
    rwa [List.map_map] at htame

/-- Where no redaction clears the way for another match the sanitized text is clean. -/
theorem clean_redact (hE : E.Replaces word) (hE' : E.Documented) (hI : new = some I)
    (hsep : Separated word text) : I.Clean (I.redact text) :=
  (redactable_of_separated hE hsep).clean_redact hE' (finds_of_new hE hI)

/-- Where no redaction clears the way for another match the sanitized text is a fixed point. -/
theorem fixedPoint_of_separated (hE : E.Replaces word) (hE' : E.Documented) (hI : new = some I)
    (hsep : Separated word text) : FixedPoint I text := by
  have hclean := clean_redact hE hE' hI hsep
  refine ⟨clean_replacement hE hI, fun idx => ?_, fun idx idx' => ?_⟩
  · rwa [inspectText_snd]
  · rw [inspectText_snd]
    exact Prod.ext ((inspectText_fst hE').mpr hclean) (inspectText_snd.trans (hclean.redact_eq hE'))

end Redact

/-! ## Two texts -/

/-- A search settles that no text of a pattern is in the text. -/
theorem free_of_search {cs text : List Char} (h : (parseChars cs).any (fun e =>
    anchorFree e && (firstMatch isAsciiWord e true text).isNone) = true) :
    Free (patternLanguage isAsciiWord (String.ofList cs)) text := by
  obtain ⟨e, hparse, h⟩ := (Option.any_eq_true _ _).mp h
  obtain ⟨hanchor, hnone⟩ := Bool.and_eq_true_iff.mp h
  rw [patternLanguage_of_parse ((parse_ofList cs).trans hparse), ← not_found_iff_free hanchor,
    ← firstMatch_isSome_iff_found, Option.isNone_iff_eq_none.mp hnone]
  exact Bool.false_ne_true

/-- A text that the first pattern matches. -/
def injection : String := "[SYSTEM]: x"

theorem separated_injection : Separated isAsciiWord injection := by
  have hopening : ∀ s ∈ spans, Free (patternLanguage isAsciiWord s.1) injection.toList := by
    simp only [spans, List.forall_mem_cons]
    refine ⟨?_, ?_, ?_, nofun⟩
    all_goals exact free_of_search (by decide +kernel)
  intro opening blocker closing hmem o ho c _ between hoccurs _
  have hprefix : o <:+: injection.toList :=
    (List.prefix_append o (between ++ c)).isInfix.trans hoccurs
  exact absurd hprefix (hopening _ hmem o ho)

theorem fixedPoint_injection : ∃ I : PatternEgressInspector .backtracking,
    new = some I ∧ FixedPoint I injection := by
  obtain ⟨I, hI⟩ := exists_new RegexEngine.backtracking_documented
  exact ⟨I, hI, fixedPoint_of_separated RegexEngine.backtracking_replaces
    RegexEngine.backtracking_documented hI separated_injection⟩

/-- A comment that has a tag in it: the angle bracket of the tag keeps the pattern of comments from
matching until the tag is replaced. -/
def taggedComment : String := "<!-- <system> -->"

/-- Only the pattern of the tag has a text in the comment. -/
theorem free_taggedComment : ∀ p ∈ defaultPatterns.eraseIdx 1,
    Free (patternLanguage isAsciiWord p.2) taggedComment.toList := by
  simp only [defaultPatterns, List.eraseIdx_cons_succ, List.eraseIdx_cons_zero, List.forall_mem_cons]
  refine ⟨?_, ?_, ?_, ?_, ?_, ?_, ?_, ?_, ?_, ?_, ?_, ?_, ?_, ?_, ?_, ?_, ?_, ?_, ?_, ?_, ?_, ?_,
    nofun⟩
  all_goals exact free_of_search (by decide +kernel)

/-- The tag occurs once, and the mark in its place opens the way to the end of the comment. -/
theorem mark_taggedComment : (parse "(?i)<\\s*system\\s*>").any (fun tag =>
    (allMatches isAsciiWord tag taggedComment.toList).length == 1 &&
      (parse "<!--\\s*[^>]*-->?").any fun comment => (firstMatch isAsciiWord comment true
        (substitute redactionMark.toList taggedComment.toList
          (allMatches isAsciiWord tag taggedComment.toList))).isSome) = true := by
  decide +kernel

/-- Only the tag is redacted. -/
theorem redact_taggedComment {I : PatternEgressInspector .backtracking} {tag : Expr}
    (hI : new = some I) (htag : parse "(?i)<\\s*system\\s*>" = some tag)
    (honce : (allMatches isAsciiWord tag taggedComment.toList).length = 1) :
    I.redact taggedComment = RegexEngine.backtracking.replaceAll tag taggedComment redactionMark := by
  obtain ⟨hmark, hpatterns⟩ := patterns_of_new hI
  obtain ⟨first, _, hfirst, hpatterns, heq⟩ := List.forall₂_cons_left_iff.mp hpatterns
  obtain ⟨second, others, hsecond, hothers, rfl⟩ := List.forall₂_cons_left_iff.mp hpatterns
  obtain rfl : tag = second.2 := by
    simpa only [RegexEngine.backtracking, htag, Except.ok.injEq] using hsecond
  have hskip : ∀ t, I.redactPattern taggedComment t first = t :=
    redactPattern_of_noMatch RegexEngine.backtracking_documented
      ((isMatch_eq_false_iff RegexEngine.backtracking_replaces List.mem_cons_self hfirst).mpr
        (free_taggedComment _ List.mem_cons_self))
  have hskips : ∀ t, others.foldl (I.redactPattern taggedComment) t = t :=
    foldl_redactPattern_of_noMatch RegexEngine.backtracking_documented
      ((noMatch_iff_free RegexEngine.backtracking_replaces
        (List.subset_cons_of_subset _ (List.subset_cons_self _ _)) hothers).mpr fun p hp =>
          free_taggedComment p (List.mem_cons_of_mem _ hp))
  have hlength : (RegexEngine.backtracking.findIter second.2 taggedComment).length = 1 :=
    (List.length_map _).trans honce
  rw [redact, heq, List.foldl_cons, List.foldl_cons, hskip, hskips, redactPattern, hlength, hmark]
  rfl

theorem taggedComment_not_fixedPoint : ∃ I : PatternEgressInspector .backtracking,
    new = some I ∧ ¬ FixedPoint I taggedComment := by
  obtain ⟨I, hI⟩ := exists_new RegexEngine.backtracking_documented
  refine ⟨I, hI, fun hfixed => ?_⟩
  obtain ⟨tag, htag, hmatch⟩ := (Option.any_eq_true _ _).mp mark_taggedComment
  obtain ⟨honce, hmatch⟩ := Bool.and_eq_true_iff.mp hmatch
  obtain ⟨comment, hcomment, hmatch⟩ := (Option.any_eq_true _ _).mp hmatch
  have hclean := hfixed.clean 0
  rw [inspectText_snd, redact_taggedComment hI htag (beq_iff_eq.mp honce)] at hclean
  have hmem : (PatternType.hiddenInstruction, "<!--\\s*[^>]*-->?") ∈ defaultPatterns := by
    simp [defaultPatterns]
  refine not_clean_of_found RegexEngine.backtracking_replaces hI hmem hcomment ?_ hclean
  show Found isAsciiWord comment (String.ofList _).toList
  rw [String.toList_ofList]
  exact firstMatch_isSome_iff_found.mp hmatch

end McpShield
