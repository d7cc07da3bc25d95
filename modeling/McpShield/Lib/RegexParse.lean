import Mathlib.Data.List.Forall2
import McpShield.Lib.RegexSyntax

/-!
# Patterns with texts

How patterns are parsed that are made from texts: the characters that stand for themselves, those
after a backslash, dots, and alternatives in parentheses.
-/

namespace Regex

/-! ## Texts -/

/-- The characters that are more than themselves in a pattern. -/
def isSpecial (c : Char) : Bool := "\\.+*?()|[\x7b^$".toList.contains c

theorem isMeta_of_isSpecial {c : Char} (h : isSpecial c = true) : isMeta c = true := by
  have hsubset : "\\.+*?()|[\x7b^$".toList ⊆ "\\.+*?()|[]\x7b\x7d^$#&-~".toList := by decide
  exact List.contains_iff_mem.mpr (hsubset (List.contains_iff_mem.mp h))

/-- The part of a pattern is read as expressions one after the other: characters, and dots. -/
inductive Spells : List Char → List Expr → Prop
  | nil : Spells [] []
  | plain {c cs es} (hc : isSpecial c = false) (h : Spells cs es) : Spells (c :: cs) (chr c :: es)
  | escaped {c cs es} (hc : (isMeta c || c == '/') = true) (h : Spells cs es) :
      Spells ('\\' :: c :: cs) (chr c :: es)
  | dot {cs es} (h : Spells cs es) : Spells ('.' :: cs) (.set .dot :: es)

/-- No repetition follows. -/
def Unrepeated (cs : List Char) : Prop := ∀ c ∈ cs.head?, c ≠ '*' ∧ c ≠ '+' ∧ c ≠ '?'

section Texts

variable {c : Char} {cs cs' rest : List Char} {e : Expr} {es : List Expr} {n : ℕ}

theorem repeated_of_unrepeated (h : Unrepeated cs) : repeated e cs = (e, cs) := by
  cases cs with
  | nil => rfl
  | cons c cs =>
    obtain ⟨hstar, hplus, hquestion⟩ := h c rfl
    unfold repeated
    split <;> simp_all

theorem ne_of_isSpecial {d : Char} (h : isSpecial c = false) (hd : isSpecial d = true) : c ≠ d := by
  rintro rfl
  rw [hd] at h
  cases h

theorem Spells.unrepeated (h : Spells cs es) (hrest : Unrepeated rest) :
    Unrepeated (cs ++ rest) := by
  cases h with
  | nil => exact hrest
  | plain hc _ =>
    rintro d ⟨⟩
    exact ⟨ne_of_isSpecial hc rfl, ne_of_isSpecial hc rfl, ne_of_isSpecial hc rfl⟩
  | escaped | dot =>
    rintro d ⟨⟩
    decide

theorem parseAtom_plain (hc : isSpecial c = false) :
    parseAtom false (n + 1) (c :: cs) = some (chr c, cs) := by
  have hne : ∀ d, isSpecial d = true → c ≠ d := fun d => ne_of_isSpecial hc
  unfold parseAtom
  split
  all_goals first
    | (next heq => exact absurd heq (List.cons_ne_nil _ _))
    | (next heq => exact absurd (List.cons.inj heq).1 (hne _ (by decide)))
    | next heq =>
        obtain ⟨rfl, rfl⟩ := List.cons.inj heq
        rfl

theorem parseAtom_escaped (hc : (isMeta c || c == '/') = true) :
    parseAtom false (n + 1) ('\\' :: c :: cs) = some (chr c, cs) := by
  have hescape : parseEscape (c :: cs) = some (.char c, cs) := by
    have hne : ∀ d, (isMeta d || d == '/') = false → c ≠ d := fun d hd heq => by
      rw [heq, hd] at hc
      cases hc
    unfold parseEscape
    split
    case h_7 heq =>
      obtain ⟨rfl, rfl⟩ := List.cons.inj heq
      rw [if_pos hc]
    case h_8 heq => cases heq
    all_goals
      next heq => exact absurd (List.cons.inj heq).1 (hne _ (by decide))
  show (parseEscape (c :: cs) >>= fun escaped =>
    escaped.1.toSet false >>= fun s => some (Expr.set s, escaped.2)) = some (chr c, cs)
  rw [hescape]
  rfl

/-- One more atom with its repetition. -/
theorem parseConcat_repeated {e' : Expr} {cs₁ : List Char}
    (hatom : parseAtom false n cs = some (e, cs₁)) (hrepeated : repeated e cs₁ = (e', cs'))
    (hcs : cs ≠ []) (hstop : ∀ c ∈ cs.head?, c ≠ '|' ∧ c ≠ ')') :
    parseConcat false (n + 1) cs =
      (parseConcat false n cs').map fun parsed => (e' :: parsed.1, parsed.2) := by
  conv_lhs => unfold parseConcat
  split
  · exact absurd rfl hcs
  · exact absurd rfl (hstop _ rfl).1
  · exact absurd rfl (hstop _ rfl).2
  · rw [hatom]
    simp only [Option.bind_eq_bind, Option.bind_some, hrepeated]
    cases parseConcat false n cs' <;> rfl

theorem parseConcat_atom (hatom : parseAtom false n cs = some (e, cs')) (hcs : cs ≠ [])
    (hstop : ∀ c ∈ cs.head?, c ≠ '|' ∧ c ≠ ')') (hrepeat : Unrepeated cs') :
    parseConcat false (n + 1) cs =
      (parseConcat false n cs').map fun parsed => (e :: parsed.1, parsed.2) :=
  parseConcat_repeated hatom (repeated_of_unrepeated hrepeat) hcs hstop

/-- A character that may be absent. -/
theorem parseConcat_optional (hc : isSpecial c = false) (hgreedy : rest.head? ≠ some '?')
    (hn : 0 < n) :
    parseConcat false (n + 1) (c :: '?' :: rest) =
      (parseConcat false n rest).map fun parsed => (.alt (chr c) .empty :: parsed.1, parsed.2) := by
  obtain ⟨n, rfl⟩ := Nat.exists_eq_succ_of_ne_zero hn.ne'
  have hrepeated : repeated (chr c) ('?' :: rest) = (.alt (chr c) .empty, rest) := by
    unfold repeated
    split <;> simp_all
  refine parseConcat_repeated (parseAtom_plain hc) hrepeated (List.cons_ne_nil _ _) ?_
  rintro d ⟨⟩
  exact ⟨ne_of_isSpecial hc rfl, ne_of_isSpecial hc rfl⟩

/-- What is spelled is parsed. -/
theorem Spells.parseConcat (h : Spells cs es) (hrest : Unrepeated rest) (hn : 0 < n) :
    parseConcat false (n + es.length) (cs ++ rest) =
      (Regex.parseConcat false n rest).map fun parsed => (es ++ parsed.1, parsed.2) := by
  obtain ⟨n, rfl⟩ := Nat.exists_eq_succ_of_ne_zero hn.ne'
  induction h with
  | nil =>
    simp only [List.nil_append, List.length_nil, Nat.add_zero]
    cases Regex.parseConcat false n.succ rest <;> rfl
  | @plain c cs es hc h ih =>
    have hatom : parseAtom false (n + 1 + es.length) (c :: (cs ++ rest)) =
        some (chr c, cs ++ rest) := by
      rw [Nat.add_right_comm]
      exact parseAtom_plain hc
    have hstop : ∀ d ∈ (c :: (cs ++ rest)).head?, d ≠ '|' ∧ d ≠ ')' := by
      rintro d ⟨⟩
      exact ⟨ne_of_isSpecial hc rfl, ne_of_isSpecial hc rfl⟩
    rw [List.cons_append, List.length_cons, ← Nat.add_assoc,
      parseConcat_atom hatom (List.cons_ne_nil _ _) hstop (h.unrepeated hrest), ih]
    cases Regex.parseConcat false (n + 1) rest <;> rfl
  | @escaped c cs es hc h ih =>
    have hatom : parseAtom false (n + 1 + es.length) ('\\' :: c :: (cs ++ rest)) =
        some (chr c, cs ++ rest) := by
      rw [Nat.add_right_comm]
      exact parseAtom_escaped hc
    have hstop : ∀ d ∈ ('\\' :: c :: (cs ++ rest)).head?, d ≠ '|' ∧ d ≠ ')' := by
      rintro d ⟨⟩
      decide
    rw [List.cons_append, List.cons_append, List.length_cons, ← Nat.add_assoc,
      parseConcat_atom hatom (List.cons_ne_nil _ _) hstop (h.unrepeated hrest), ih]
    cases Regex.parseConcat false (n + 1) rest <;> rfl
  | @dot cs es h ih =>
    have hatom : parseAtom false (n + 1 + es.length) ('.' :: (cs ++ rest)) =
        some (.set .dot, cs ++ rest) := by
      rw [Nat.add_right_comm]
      rfl
    have hstop : ∀ d ∈ ('.' :: (cs ++ rest)).head?, d ≠ '|' ∧ d ≠ ')' := by
      rintro d ⟨⟩
      decide
    rw [List.cons_append, List.length_cons, ← Nat.add_assoc,
      parseConcat_atom hatom (List.cons_ne_nil _ _) hstop (h.unrepeated hrest), ih]
    cases Regex.parseConcat false (n + 1) rest <;> rfl

theorem Spells.length_le (h : Spells cs es) : es.length ≤ cs.length := by
  induction h with
  | nil => exact Nat.le_refl _
  | plain _ _ ih | dot _ ih => exact Nat.succ_le_succ ih
  | escaped _ _ ih => exact Nat.succ_le_succ (ih.trans (Nat.le_succ _))

end Texts

/-- An escaped text stands for itself. -/
theorem spells_escape (cs : List Char) :
    Spells (cs.flatMap fun c => if isMeta c then ['\\', c] else [c]) (cs.map chr) := by
  induction cs with
  | nil => exact .nil
  | cons c cs ih =>
    rw [List.flatMap_cons, List.map_cons]
    split_ifs with hmeta
    · exact .escaped (by rw [hmeta]; rfl) ih
    · have hplain : isSpecial c = false := by
        rw [← Bool.not_eq_true]
        exact fun h => hmeta (isMeta_of_isSpecial h)
      exact .plain hplain ih

/-! ## Dots in texts -/

/-- The text has only plain characters and dots. -/
def Dotted (cs : List Char) : Prop := ∀ c ∈ cs, isSpecial c = true → c = '.'

instance (cs : List Char) : Decidable (Dotted cs) :=
  List.decidableBAll (fun c => isSpecial c = true → c = '.') cs

/-- What such a text is read as: a dot stands for every character but the line feed. -/
def dotted (cs : List Char) : List Expr := cs.map fun c => if c = '.' then .set .dot else chr c

/-- A text that the dotted one is read as. -/
def Fits : List Char → List Char → Prop :=
  List.Forall₂ fun c d => if c = '.' then d ≠ '\n' else d = c

instance (cs ds : List Char) : Decidable (Fits cs ds) :=
  inferInstanceAs (Decidable (List.Forall₂ _ cs ds))

theorem fits_self (cs : List Char) : Fits cs cs := by
  refine List.forall₂_same.mpr fun c _ => ?_
  split_ifs with hc
  · rw [hc]
    decide
  · rfl

theorem spells_dotted {cs : List Char} (h : Dotted cs) : Spells cs (dotted cs) := by
  induction cs with
  | nil => exact .nil
  | cons c cs ih =>
    obtain ⟨hc, hcs⟩ := List.forall_mem_cons.mp h
    by_cases hdot : c = '.'
    · rw [hdot]
      exact .dot (ih hcs)
    · have hplain : isSpecial c = false := by
        rw [← Bool.not_eq_true]
        exact fun hspecial => hdot (hc hspecial)
      rw [dotted, List.map_cons, if_neg hdot]
      exact .plain hplain (ih hcs)

theorem matches_dotted {w : Char → Bool} {i j : Input} {cs : List Char} :
    Matches w (seq (dotted cs)) i j ↔
      ∃ u, i.rest = u ++ j.rest ∧ j = i.advance u j.rest ∧ Fits cs u := by
  have hset : ∀ c d, (if c = '.' then CharSet.dot else .single c).mem w d = true ↔
      if c = '.' then d ≠ '\n' else d = c := by
    intro c d
    split_ifs
    · exact mem_dot
    · exact mem_single
  induction cs generalizing i with
  | nil =>
    obtain ⟨bi, ri⟩ := i
    obtain ⟨bj, rj⟩ := j
    simp [dotted, Fits, Input.advance, and_comm, eq_comm]
  | cons c cs ih =>
    have hhead : dotted (c :: cs) =
        .set (if c = '.' then .dot else .single c) :: dotted cs := by
      rw [dotted, List.map_cons]
      split_ifs <;> rfl
    rw [hhead, matches_seq_cons]
    constructor
    · rintro ⟨m, hm, htail⟩
      obtain ⟨d, hd, hmem, hstart⟩ := matches_set.mp hm
      obtain ⟨u, hu, hj, hfits⟩ := ih.mp htail
      refine ⟨d :: u, by rw [hd, hu, List.cons_append], ?_, .cons ((hset c d).mp hmem) hfits⟩
      rw [hj]
      simp [Input.advance, hstart]
    · rintro ⟨u, hu, hj, hfits⟩
      obtain ⟨d, v, hd, hv, rfl⟩ := List.forall₂_cons_left_iff.mp hfits
      refine ⟨⟨false, v ++ j.rest⟩, matches_set.mpr ⟨d, hu, (hset c d).mpr hd, rfl⟩,
        ih.mpr ⟨v, rfl, ?_, hv⟩⟩
      rw [hj]
      simp [Input.advance]

/-! ## Alternatives -/

/-- Sequences as alternatives. -/
def altOf (es : List Expr) : List (List Expr) → Expr
  | [] => seq es
  | es' :: rest => .alt (seq es) (altOf es' rest)

section Alternatives

variable {w : Char → Bool} {i j : Input} {text rest : List Char} {texts : List (List Char)}
  {es : List Expr} {ess : List (List Expr)} {n : ℕ}

theorem matches_altOf :
    Matches w (altOf es ess) i j ↔ ∃ ds ∈ es :: ess, Matches w (seq ds) i j := by
  induction ess generalizing es with
  | nil => simp [altOf]
  | cons es' ess ih => rw [altOf, matches_alt, ih]; simp

theorem unrepeated_cons {c : Char} (h : c ≠ '*' ∧ c ≠ '+' ∧ c ≠ '?') : Unrepeated (c :: rest) := by
  rintro d ⟨⟩
  exact h

theorem unrepeated_alternatives (h : List.Forall₂ Spells (text :: texts) (es :: ess)) :
    Unrepeated (['|'].intercalate (text :: texts) ++ ')' :: rest) := by
  obtain ⟨htext, htexts⟩ := List.forall₂_cons.mp h
  cases htexts with
  | nil =>
    rw [List.intercalate_singleton]
    exact htext.unrepeated (unrepeated_cons (by decide))
  | cons =>
    rw [List.intercalate_cons_cons, List.append_assoc, List.append_assoc]
    exact htext.unrepeated (unrepeated_cons (by decide))

/-- Alternatives up to a closing parenthesis. -/
theorem parseAlt_alternatives (h : List.Forall₂ Spells (text :: texts) (es :: ess))
    (hn : (['|'].intercalate (text :: texts)).length + 2 ≤ n) :
    parseAlt false n (['|'].intercalate (text :: texts) ++ ')' :: rest) =
      some (altOf es ess, ')' :: rest) := by
  induction texts generalizing text es ess n with
  | nil =>
    obtain ⟨htext, htexts⟩ := List.forall₂_cons.mp h
    cases htexts
    rw [List.intercalate_singleton] at hn ⊢
    have hlen := htext.length_le
    obtain ⟨m, rfl⟩ : ∃ m, n = m + 1 + es.length + 1 := ⟨n - es.length - 2, by omega⟩
    have hconcat : parseConcat false (m + 1 + es.length) (text ++ ')' :: rest) =
        some (es, ')' :: rest) := by
      rw [htext.parseConcat (unrepeated_cons (by decide)) (Nat.succ_pos m)]
      simp [parseConcat]
    rw [parseAlt, hconcat]
    rfl
  | cons next texts ih =>
    obtain ⟨htext, htexts⟩ := List.forall₂_cons.mp h
    cases htexts with
    | @cons _ es' _ ess' hnext htexts =>
    have hlen := htext.length_le
    rw [List.intercalate_cons_cons, List.append_assoc] at hn
    simp only [List.length_append, List.length_singleton] at hn
    obtain ⟨m, rfl⟩ : ∃ m, n = m + 1 + es.length + 1 := ⟨n - es.length - 2, by omega⟩
    have hwhole : ['|'].intercalate (text :: next :: texts) ++ ')' :: rest =
        text ++ '|' :: (['|'].intercalate (next :: texts) ++ ')' :: rest) := by
      rw [List.intercalate_cons_cons]
      simp
    have hconcat : parseConcat false (m + 1 + es.length)
        (text ++ '|' :: (['|'].intercalate (next :: texts) ++ ')' :: rest)) =
          some (es, '|' :: (['|'].intercalate (next :: texts) ++ ')' :: rest)) := by
      rw [htext.parseConcat (unrepeated_cons (by decide)) (Nat.succ_pos m)]
      simp [parseConcat]
    rw [hwhole, parseAlt, hconcat]
    simp only [Option.bind_eq_bind, Option.bind_some]
    rw [ih (.cons hnext htexts) (by omega)]
    rfl

/-- Alternatives in parentheses. -/
theorem parseAtom_alternatives (h : List.Forall₂ Spells (text :: texts) (es :: ess))
    (hn : (['|'].intercalate (text :: texts)).length + 4 ≤ n) :
    parseAtom false n ('(' :: (['|'].intercalate (text :: texts) ++ ')' :: rest)) =
      some (altOf es ess, rest) := by
  obtain ⟨m, rfl⟩ : ∃ m, n = m + 2 := ⟨n - 2, by omega⟩
  have hgroup : parseAtom false (m + 2)
      ('(' :: (['|'].intercalate (text :: texts) ++ ')' :: rest)) =
        parseGroup false (m + 1) (['|'].intercalate (text :: texts) ++ ')' :: rest) := by
    have hhead : Unrepeated (['|'].intercalate (text :: texts) ++ ')' :: rest) :=
      unrepeated_alternatives h
    generalize ['|'].intercalate (text :: texts) ++ ')' :: rest = cs at hhead
    cases cs with
    | nil => rfl
    | cons c cs =>
      have hc : c ≠ '?' := (hhead c rfl).2.2
      conv_lhs => unfold parseAtom
      split <;> grind
  rw [hgroup, parseGroup, parseAlt_alternatives h (by omega)]
  rfl

/-- One of several texts with dots. -/
def anyOf (text : List Char) (texts : List (List Char)) : Expr :=
  altOf (dotted text) (texts.map dotted)

theorem spells_anyOf (h : ∀ cs ∈ text :: texts, Dotted cs) :
    List.Forall₂ Spells (text :: texts) (dotted text :: texts.map dotted) := by
  rw [← List.map_cons, List.forall₂_map_right_iff, List.forall₂_same]
  exact fun cs hcs => spells_dotted (h cs hcs)

theorem matches_anyOf : Matches w (anyOf text texts) i j ↔
    ∃ cs ∈ text :: texts, ∃ u, i.rest = u ++ j.rest ∧ j = i.advance u j.rest ∧ Fits cs u := by
  rw [anyOf, matches_altOf, ← List.map_cons]
  simp only [List.mem_map, exists_exists_and_eq_and, matches_dotted]

end Alternatives

/-! ## Whole patterns -/

/-- The expression that the characters of a pattern stand for. -/
def parseChars (cs : List Char) : Option Expr :=
  let (i, cs) := match cs with
    | '(' :: '?' :: 'i' :: ')' :: cs => (true, cs)
    | _ => (false, cs)
  match parseAlt i (4 * cs.length + 4) cs with
  | some (a, []) => some a
  | _ => none

/-- A literal is read without computing its encoding. -/
theorem parse_ofList (cs : List Char) : parse (String.ofList cs) = parseChars cs := by
  show parseChars (String.ofList cs).toList = parseChars cs
  rw [String.toList_ofList]

section Patterns

variable {pattern : String} {cs : List Char} {es : List Expr}

/-- A pattern that is anchored at the start of the text. -/
theorem parse_startText (hpattern : pattern.toList = '^' :: cs) (hcs : Unrepeated cs)
    (h : parseConcat false (4 * cs.length + 6) cs = some (es, [])) :
    parse pattern = some (seq (.startText :: es)) := by
  have hstop : ∀ d ∈ ('^' :: cs).head?, d ≠ '|' ∧ d ≠ ')' := by
    rintro d ⟨⟩
    decide
  have hatom : parseAtom false (4 * cs.length + 6) ('^' :: cs) = some (.startText, cs) := rfl
  have hconcat := parseConcat_atom hatom (List.cons_ne_nil _ _) hstop hcs
  rw [h] at hconcat
  have halt : parseAlt false (4 * ('^' :: cs).length + 4) ('^' :: cs) =
      some (seq (.startText :: es), []) := by
    rw [List.length_cons, show 4 * (cs.length + 1) + 4 = 4 * cs.length + 6 + 1 + 1 by omega,
      parseAlt, hconcat]
    rfl
  unfold parse
  rw [hpattern]
  show (match parseAlt false (4 * ('^' :: cs).length + 4) ('^' :: cs) with
    | some (a, []) => some a
    | _ => none) = _
  rw [halt]

/-- A text at the start, then anything without a line feed up to the end. -/
def under (root : List Char) : Expr :=
  seq (.startText :: (root.map chr ++ [.alt (seq [.star true (.set .dot)]) .empty, .endText]))

theorem parse_under {text root : List Char} (hpattern : pattern.toList =
    '^' :: (text ++ "(.*)?$".toList)) (htext : Spells text (root.map chr)) :
    parse pattern = some (under root) := by
  have htail : Unrepeated "(.*)?$".toList := unrepeated_cons (by decide)
  refine parse_startText hpattern (htext.unrepeated htail) ?_
  have hlen := htext.length_le
  obtain ⟨m, hm⟩ : ∃ m, 4 * (text ++ "(.*)?$".toList).length + 6 = m + 10 + (root.map chr).length :=
    ⟨4 * (text ++ "(.*)?$".toList).length + 6 - 10 - (root.map chr).length, by
      rw [List.length_append, show "(.*)?$".toList.length = 6 from rfl]
      omega⟩
  have htail' : parseConcat false (m + 10) "(.*)?$".toList =
      some ([.alt (seq [.star true (.set .dot)]) .empty, .endText], []) := rfl
  rw [hm, htext.parseConcat htail (Nat.succ_pos _), htail']
  rfl

theorem parse_startText_spelled {text : List Char} (hpattern : pattern.toList = '^' :: text)
    (htext : Spells text es) : parse pattern = some (seq (.startText :: es)) := by
  have hend : Unrepeated [] := nofun
  have hunrepeated : Unrepeated text := by simpa using htext.unrepeated hend
  refine parse_startText hpattern hunrepeated ?_
  have hlen := htext.length_le
  obtain ⟨m, hm⟩ : ∃ m, 4 * text.length + 6 = m + 1 + es.length :=
    ⟨4 * text.length + 5 - es.length, by omega⟩
  have hconcat := htext.parseConcat hend (Nat.succ_pos m)
  rw [List.append_nil, ← hm] at hconcat
  rw [hconcat]
  simp [parseConcat]

/-- The patterns of texts as a whole. -/
theorem parse_whole {text : List Char} {texts : List (List Char)}
    (hpattern : pattern.toList = '^' :: '(' :: (['|'].intercalate (text :: texts) ++ ")$".toList))
    (h : ∀ cs ∈ text :: texts, Dotted cs) :
    parse pattern = some (seq [.startText, anyOf text texts, .endText]) := by
  refine parse_startText hpattern (unrepeated_cons (by decide)) ?_
  have hspells := spells_anyOf h
  generalize hn : 4 * ('(' :: (['|'].intercalate (text :: texts) ++ ")$".toList)).length + 6 = n
  obtain ⟨m, rfl, hm⟩ : ∃ m, n = m + 4 ∧ (['|'].intercalate (text :: texts)).length + 1 ≤ m := by
    rw [List.length_cons, List.length_append] at hn
    exact ⟨n - 4, by omega, by omega⟩
  have hatom : parseAtom false (m + 3) ('(' :: (['|'].intercalate (text :: texts) ++ ")$".toList)) =
      some (anyOf text texts, ['$']) := parseAtom_alternatives hspells (by omega)
  have hend : parseConcat false (m + 3) ['$'] = some ([.endText], []) := rfl
  rw [parseConcat_atom hatom (List.cons_ne_nil _ _) (by rintro d ⟨⟩; decide)
    (unrepeated_cons (by decide)), hend]
  rfl

/-- The patterns of a text with an optional character, and one of several texts after it. -/
theorem parse_optional {start middle text : List Char} {texts : List (List Char)} {c : Char}
    (hpattern : pattern.toList = '^' :: (start ++ c :: '?' :: (middle ++
      '(' :: (['|'].intercalate (text :: texts) ++ [')']))))
    (hstart : Spells start (start.map chr)) (hc : isSpecial c = false)
    (hmiddle : Spells middle (middle.map chr)) (h : ∀ cs ∈ text :: texts, Dotted cs) :
    parse pattern = some (seq (.startText :: (start.map chr ++
      .alt (chr c) .empty :: (middle.map chr ++ [anyOf text texts])))) := by
  have hspells := spells_anyOf h
  have hplain : c ≠ '*' ∧ c ≠ '+' ∧ c ≠ '?' :=
    ⟨ne_of_isSpecial hc rfl, ne_of_isSpecial hc rfl, ne_of_isSpecial hc rfl⟩
  generalize hgroup : '(' :: (['|'].intercalate (text :: texts) ++ [')']) = group at hpattern
  have hunrepeated : Unrepeated group := by
    rw [← hgroup]
    exact unrepeated_cons (by decide)
  have hlength : group.length = (['|'].intercalate (text :: texts)).length + 2 := by
    rw [← hgroup, List.length_cons, List.length_append, List.length_singleton]
  refine parse_startText hpattern (hstart.unrepeated (unrepeated_cons hplain)) ?_
  generalize hn : 4 * (start ++ c :: '?' :: (middle ++ group)).length + 6 = n
  obtain ⟨m, rfl, hm⟩ : ∃ m, n = m + 2 + (middle.map chr).length + 1 + (start.map chr).length ∧
      group.length + 2 ≤ m := by
    simp only [List.length_append, List.length_cons, List.length_map] at hn ⊢
    exact ⟨n - start.length - 1 - middle.length - 2, by omega, by omega⟩
  have hend : Unrepeated [] := nofun
  have halternatives : parseConcat false (m + 2) group = some ([anyOf text texts], []) := by
    rw [← hgroup, parseConcat_atom (parseAtom_alternatives hspells (by omega))
      (List.cons_ne_nil _ _) (by rintro d ⟨⟩; decide) hend]
    rfl
  have hgreedy : (middle ++ group).head? ≠ some '?' := fun hhead =>
    (hmiddle.unrepeated hunrepeated '?' hhead).2.2 rfl
  rw [hstart.parseConcat (unrepeated_cons hplain) (Nat.succ_pos _),
    parseConcat_optional hc hgreedy (Nat.lt_of_lt_of_le (Nat.succ_pos _) (Nat.le_add_right _ _)),
    hmiddle.parseConcat hunrepeated (Nat.succ_pos _), halternatives]
  rfl

end Patterns

/-! ## What they match -/

section Meaning

variable {w : Char → Bool} {i j : Input} {text cs : List Char}

theorem found_under {root : List Char} :
    Found w (under root) text ↔ ∃ rest, text = root ++ rest ∧ '\n' ∉ rest := by
  rw [under, found_seq_startText]
  simp only [matches_seq_append, matches_seq_chars]
  constructor
  · rintro ⟨j, m, ⟨hroot, -⟩, htail⟩
    refine ⟨m.rest, hroot, ?_⟩
    simp only [matches_seq_cons, matches_alt, matches_seq_nil, matches_endText, matches_empty,
      matches_star_set, mem_dot] at htail
    obtain ⟨m', hany, m'', ⟨hend, rfl⟩, rfl⟩ := htail
    rcases hany with ⟨_, ⟨u, hu, -, hdot⟩, rfl⟩ | rfl
    · rw [hu, hend, List.append_nil]
      exact fun h => hdot _ h rfl
    · simp [hend]
  · rintro ⟨rest, rfl, hline⟩
    have hdot : ∀ c ∈ rest, CharSet.dot.mem w c = true := fun c hc =>
      mem_dot.mpr fun h => hline (h ▸ hc)
    let start : Input := (⟨true, root ++ rest⟩ : Input).advance root rest
    have hstar : Matches w (.star true (.set .dot)) start (start.advance rest []) :=
      matches_star_set.mpr ⟨rest, by simp [start, Input.advance], rfl, hdot⟩
    exact ⟨start.advance rest [], start, ⟨rfl, rfl⟩,
      .cat (.altLeft (.cat hstar (.empty _))) (.cat (.endText _) (.empty _))⟩

/-- A text is found where it occurs. -/
theorem found_seq_chars : Found w (seq (cs.map chr)) text ↔ cs <:+: text := by
  simp only [Found, exists_matches_seq_chars]
  rw [List.infix_iff_prefix_suffix]
  constructor
  · rintro ⟨i, hi, hprefix⟩
    exact ⟨i.rest, hprefix, mem_starts hi⟩
  · rintro ⟨t, hprefix, hsuffix⟩
    obtain ⟨i, hi, rfl⟩ := exists_mem_starts hsuffix
    exact ⟨i, hi, hprefix⟩

theorem found_whole {cs : List Char} {texts : List (List Char)} :
    Found w (seq [.startText, anyOf cs texts, .endText]) text ↔
      ∃ ds ∈ cs :: texts, Fits ds text := by
  rw [found_seq_startText]
  simp only [matches_seq_cons, matches_seq_nil, matches_anyOf, matches_endText]
  constructor
  · rintro ⟨_, m, ⟨ds, hds, u, hu, -, hfits⟩, _, ⟨hend, rfl⟩, rfl⟩
    rw [hend, List.append_nil] at hu
    exact ⟨ds, hds, by rwa [show text = u from hu]⟩
  · rintro ⟨ds, hds, hfits⟩
    let start : Input := ⟨true, text⟩
    exact ⟨start.advance text [], start.advance text [],
      ⟨ds, hds, text, (List.append_nil _).symm, rfl, hfits⟩, _, ⟨rfl, rfl⟩, rfl⟩

theorem matches_chr {c : Char} :
    Matches w (chr c) i j ↔ i.rest = c :: j.rest ∧ j.atStart = false := by
  simp only [chr, matches_set, mem_single]
  exact ⟨fun ⟨_, hrest, rfl, hstart⟩ => ⟨hrest, hstart⟩,
    fun ⟨hrest, hstart⟩ => ⟨c, hrest, rfl, hstart⟩⟩

theorem found_optional {start middle cs : List Char} {texts : List (List Char)} {c : Char} :
    Found w (seq (.startText :: (start.map chr ++
        .alt (chr c) .empty :: (middle.map chr ++ [anyOf cs texts])))) text ↔
      ∃ rest, (text = start ++ c :: (middle ++ rest) ∨ text = start ++ (middle ++ rest)) ∧
        ∃ ds ∈ cs :: texts, ∃ u, u <+: rest ∧ Fits ds u := by
  rw [found_seq_startText]
  simp only [matches_seq_append, matches_seq_cons, matches_seq_nil, matches_seq_chars,
    matches_anyOf, matches_alt, matches_empty, matches_chr]
  constructor
  · rintro ⟨j, m₁, ⟨h₁, -⟩, m₂, h₂, m₃, ⟨h₃, -⟩, m₄, ⟨ds, hds, u, hu, -, hfits⟩, -⟩
    refine ⟨m₃.rest, ?_, ds, hds, u, ⟨m₄.rest, hu.symm⟩, hfits⟩
    rw [show text = start ++ m₁.rest from h₁, ← h₃]
    rcases h₂ with ⟨h₂, -⟩ | rfl
    · exact .inl (by rw [h₂])
    · exact .inr rfl
  · rintro ⟨rest, htext, ds, hds, u, ⟨tail, rfl⟩, hfits⟩
    let read (i : Input) : Input := i.advance middle (u ++ tail)
    rcases htext with rfl | rfl
    · let i : Input := ⟨true && start.isEmpty, c :: (middle ++ (u ++ tail))⟩
      exact ⟨_, i, ⟨rfl, rfl⟩, ⟨false, middle ++ (u ++ tail)⟩, .inl ⟨rfl, rfl⟩, read _,
        ⟨rfl, rfl⟩, (read _).advance u tail, ⟨ds, hds, u, rfl, rfl, hfits⟩, rfl⟩
    · let i : Input := ⟨true && start.isEmpty, middle ++ (u ++ tail)⟩
      exact ⟨_, i, ⟨rfl, rfl⟩, i, .inr rfl, read i, ⟨rfl, rfl⟩, (read i).advance u tail,
        ⟨ds, hds, u, rfl, rfl, hfits⟩, rfl⟩

end Meaning

end Regex
