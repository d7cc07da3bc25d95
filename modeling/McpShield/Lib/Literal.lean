import Mathlib.Algebra.Order.BigOperators.Group.List
import Mathlib.Algebra.Order.Group.Nat

/-!
# Quoted literals

A literal is a text in double quotes in which a backslash begins an escape sequence.  A text that is
put between quotes as it is reads back as itself exactly when it has neither: a quote ends the
literal, and every escape sequence is longer than what it stands for.  The same holds of a set of
texts in a bracketed list: a text with a quote or a backslash can only come from a longer one.
-/

namespace Literal

/-- The escape sequences of a language: what may follow a backslash, and what it stands for.  That is
never longer, and shorter if it ends with a backslash that is not written as one; a quote is only
escaped by itself. -/
structure Escapes where
  StandsFor : List Char → List Char → Prop
  short : ∀ {seq cs}, StandsFor seq cs → cs.length ≤ seq.length
  quote : ∀ {seq cs}, StandsFor seq cs → '"' ∈ seq → seq = ['"']
  slash : ∀ {seq cs}, StandsFor seq cs → cs.getLast? = some '\\' →
    seq.getLast? = some '\\' ∨ cs.length < seq.length

/-- The text between the quotes of a literal, and its value. -/
inductive Body (E : Escapes) : List Char → List Char → Prop
  | nil : Body E [] []
  | plain {c src v} (hquote : c ≠ '"') (hslash : c ≠ '\\') (h : Body E src v) :
      Body E (c :: src) (c :: v)
  | escape {seq cs src v} (hseq : E.StandsFor seq cs) (h : Body E src v) :
      Body E ('\\' :: (seq ++ src)) (cs ++ v)

/-- A text without quotes and backslashes. -/
def Clean (cs : List Char) : Prop := '"' ∉ cs ∧ '\\' ∉ cs

instance (cs : List Char) : Decidable (Clean cs) := inferInstanceAs (Decidable (_ ∧ _))

variable {E : Escapes} {src v : List Char}

theorem clean_nil : Clean [] := ⟨List.not_mem_nil, List.not_mem_nil⟩

theorem clean_cons {c : Char} {cs : List Char} :
    Clean (c :: cs) ↔ (c ≠ '"' ∧ c ≠ '\\') ∧ Clean cs := by
  simp only [Clean, List.mem_cons, not_or, ne_comm (a := c)]
  tauto

theorem body_of_clean {cs : List Char} (h : Clean cs) : Body E cs cs := by
  induction cs with
  | nil => exact .nil
  | cons c cs ih =>
    obtain ⟨⟨hquote, hslash⟩, hcs⟩ := clean_cons.mp h
    exact .plain hquote hslash (ih hcs)

theorem Body.eq_of_clean (h : Body E src v) (hsrc : Clean src) : v = src := by
  induction h with
  | nil => rfl
  | plain _ _ _ ih => rw [ih (clean_cons.mp hsrc).2]
  | escape _ _ _ => exact absurd List.mem_cons_self hsrc.2

theorem Body.length_le (h : Body E src v) : v.length ≤ src.length := by
  induction h with
  | nil => exact Nat.le_refl _
  | plain _ _ _ ih => exact Nat.succ_le_succ ih
  | escape hseq _ ih =>
    have hshort := E.short hseq
    simp only [List.length_append, List.length_cons]
    omega

/-- A quote or a backslash in the value costs an escape sequence. -/
theorem Body.length_lt (h : Body E src v) (hv : ¬ Clean v) : v.length < src.length := by
  induction h with
  | nil => exact absurd clean_nil hv
  | plain hquote hslash _ ih =>
    exact Nat.succ_lt_succ (ih fun hclean => hv (clean_cons.mpr ⟨⟨hquote, hslash⟩, hclean⟩))
  | escape hseq h _ =>
    have hshort := E.short hseq
    have hrest := h.length_le
    simp only [List.length_append, List.length_cons]
    omega

/-- A value with a quote or a backslash is written with a backslash. -/
theorem Body.slash_mem (h : Body E src v) (hv : ¬ Clean v) : '\\' ∈ src := by
  induction h with
  | nil => exact absurd clean_nil hv
  | plain hquote hslash _ ih =>
    exact List.mem_cons_of_mem _ (ih fun hclean => hv (clean_cons.mpr ⟨⟨hquote, hslash⟩, hclean⟩))
  | escape _ _ _ => exact List.mem_cons_self

/-- If the value ends with a backslash, so does the body, or it is longer by two characters. -/
theorem Body.getLast?_slash (h : Body E src v) (hlast : v.getLast? = some '\\') :
    src.getLast? = some '\\' ∨ v.length + 2 ≤ src.length := by
  induction h with
  | nil => cases hlast
  | @plain c src v _ hslash h ih =>
    cases v with
    | nil => exact absurd (Option.some.inj hlast) hslash
    | cons d v =>
      rw [List.getLast?_cons_cons] at hlast
      refine (ih hlast).imp (fun hsrc => ?_) (by simp only [List.length_cons]; omega)
      rw [List.getLast?_cons, hsrc]
      rfl
  | @escape seq cs src v hseq h ih =>
    have hshort := E.short hseq
    have hrest := h.length_le
    simp only [List.length_append, List.length_cons]
    cases v with
    | nil =>
      rw [List.append_nil] at hlast
      cases src with
      | nil =>
        refine (E.slash hseq hlast).imp (fun hend => ?_) (by simp only [List.length_nil]; omega)
        rw [List.append_nil, List.getLast?_cons, hend]
        rfl
      | cons c src =>
        refine .inr ?_
        simp only [List.length_cons, List.length_nil]
        omega
    | cons d v =>
      have hv : (d :: v).getLast? = some '\\' := by
        rw [← hlast, List.getLast?_append]
        simp [List.getLast?_cons]
      refine (ih hv).imp (fun hsrc => ?_) (by omega)
      rw [List.getLast?_cons, List.getLast?_append, hsrc]
      rfl

theorem Body.ne_quote_cons (h : Body E src v) (rest : List Char) : src ≠ '"' :: rest := by
  rintro rfl
  cases h with
  | plain hquote => exact hquote rfl

/-- In a body, no quote follows a comma. -/
theorem Body.ne_comma_quote (h : Body E src v) (pre post : List Char) :
    src ≠ pre ++ ',' :: '"' :: post := by
  induction h generalizing pre with
  | nil => simp
  | @plain c src v _ _ h ih =>
    intro hsplit
    cases pre with
    | nil => exact h.ne_quote_cons post (List.cons.inj hsplit).2
    | cons d pre => exact ih pre (List.cons.inj hsplit).2
  | @escape seq cs src v hseq h ih =>
    intro hsplit
    cases pre with
    | nil => exact absurd (List.cons.inj hsplit).1 (by decide)
    | cons d pre =>
      rcases List.append_eq_append_iff.mp (List.cons.inj hsplit).2 with ⟨a, -, hsrc⟩ | ⟨a, rfl, ha⟩
      · exact ih a hsrc
      · cases a with
        | nil => exact ih [] ha.symm
        | cons e a =>
          obtain ⟨rfl, hpost⟩ := List.cons.inj ha
          cases a with
          | nil => exact h.ne_quote_cons post hpost.symm
          | cons e a =>
            obtain ⟨rfl, -⟩ := List.cons.inj hpost
            have hquote := congrArg List.length (E.quote hseq (by simp))
            simp only [List.length_append, List.length_cons, List.length_nil] at hquote
            omega

/-- A body that ends with a quote and a comma has a backslash before the quote, and its value ends
with the comma. -/
theorem Body.of_quote_comma {b : List Char} (h : Body E (b ++ ['"', ',']) v) :
    b.getLast? = some '\\' ∧ v.getLast? = some ',' ∧ v.length ≤ b.length + 1 := by
  generalize hsrc : b ++ ['"', ','] = src at h
  induction h generalizing b with
  | nil => simp at hsrc
  | @plain c src v hquote _ h ih =>
    cases b with
    | nil => exact absurd (List.cons.inj hsrc).1.symm hquote
    | cons d b =>
      obtain ⟨hb, hv, hlength⟩ := ih (List.cons.inj hsrc).2
      simp only [List.getLast?_cons, hb, hv, List.length_cons]
      exact ⟨rfl, rfl, by omega⟩
  | @escape seq cs src v hseq h ih =>
    have hshort := E.short hseq
    cases b with
    | nil => exact absurd (List.cons.inj hsrc).1 (by decide)
    | cons d b =>
      obtain ⟨rfl, hrest⟩ := List.cons.inj hsrc
      rcases List.append_eq_append_iff.mp hrest with ⟨a, rfl, ha⟩ | ⟨a, rfl, ha⟩
      · -- the quote belongs to this escape sequence
        cases a with
        | nil => exact absurd ha.symm (h.ne_quote_cons [','])
        | cons e a =>
          obtain ⟨rfl, hcomma⟩ := List.cons.inj ha
          have hseq' := E.quote hseq (by simp)
          cases b with
          | cons _ _ => simp at hseq'
          | nil =>
            obtain rfl : a = [] := (List.cons.inj hseq').2
            obtain rfl : [','] = src := hcomma
            obtain rfl := h.eq_of_clean (by decide)
            simp only [List.length_append, List.nil_append, List.length_cons, List.length_nil]
              at hshort ⊢
            exact ⟨rfl, by simp, by omega⟩
      · obtain ⟨hb, hv, hlength⟩ := ih ha.symm
        rw [List.getLast?_cons, List.getLast?_append, List.getLast?_append, hb, hv]
        simp only [List.length_append, List.length_cons]
        exact ⟨rfl, rfl, by omega⟩

/-! ## The literals of a text -/

/-- The values of the literals that stand in a text, each after something else. -/
inductive Literals (E : Escapes) : List Char → List (List Char) → Prop
  | nil (gap : List Char) : Literals E gap []
  | cons {gap body v rest vs} (hgap : gap ≠ []) (hbody : Body E body v)
      (hrest : Literals E rest vs) : Literals E (gap ++ '"' :: (body ++ '"' :: rest)) (v :: vs)

/-- Every value is that of a body between two quotes. -/
theorem Literals.exists_body {text : List Char} {vs : List (List Char)} (h : Literals E text vs)
    {v : List Char} (hmem : v ∈ vs) : ∃ gap body rest, gap ≠ [] ∧ Body E body v ∧
      text = gap ++ '"' :: (body ++ '"' :: rest) := by
  induction h with
  | nil gap => cases hmem
  | @cons gap body w rest vs hgap hbody _ ih =>
    rcases List.mem_cons.mp hmem with rfl | hmem
    · exact ⟨gap, body, rest, hgap, hbody, rfl⟩
    · obtain ⟨gap', body', rest', -, hbody', rfl⟩ := ih hmem
      refine ⟨gap ++ '"' :: (body ++ '"' :: gap'), body', rest', by simp, hbody', ?_⟩
      simp only [List.append_assoc, List.cons_append]

/-! ## One literal after a text without quotes -/

/-- A text is split at its first quote in one way. -/
theorem split_at_quote {a b x y : List Char} (ha : '"' ∉ a) (hb : '"' ∉ b)
    (h : a ++ '"' :: x = b ++ '"' :: y) : a = b ∧ x = y := by
  induction a generalizing b with
  | nil =>
    cases b with
    | nil => exact ⟨rfl, (List.cons.inj h).2⟩
    | cons c b => exact absurd (List.mem_cons.mpr (.inl (List.cons.inj h).1)) hb
  | cons c a ih =>
    cases b with
    | nil => exact absurd (List.mem_cons.mpr (.inl (List.cons.inj h).1.symm)) ha
    | cons d b =>
      obtain ⟨hcd, htail⟩ := List.cons.inj h
      obtain ⟨rfl, rfl⟩ := ih (fun hm => ha (List.mem_cons_of_mem c hm))
        (fun hm => hb (List.mem_cons_of_mem d hm)) htail
      exact ⟨by rw [hcd], rfl⟩

/-- What comes before the first literal is at least what comes before the first quote. -/
theorem length_le_of_split {a b x y : List Char} (ha : '"' ∉ a)
    (h : a ++ '"' :: x = b ++ '"' :: y) : a.length ≤ b.length := by
  induction a generalizing b with
  | nil => exact Nat.zero_le _
  | cons c a ih =>
    cases b with
    | nil => exact absurd (List.mem_cons.mpr (.inl (List.cons.inj h).1.symm)) ha
    | cons d b =>
      exact Nat.succ_le_succ
        (ih (fun hm => ha (List.mem_cons_of_mem c hm)) (List.cons.inj h).2)

/-- The only literal after a text without quotes reads back as what has been put between its quotes
exactly when that has no quotes and backslashes. -/
theorem literal_eq_iff {before text value : List Char} (hbefore : '"' ∉ before)
    (h : Literals E (before ++ '"' :: (text ++ ['"'])) [value]) : value = text ↔ Clean text := by
  generalize hwhole : before ++ '"' :: (text ++ ['"']) = whole at h
  cases h with
  | @cons gap body _ rest _ _ hbody _ =>
    constructor
    · rintro rfl
      by_contra hunclean
      have hgap := length_le_of_split hbefore hwhole
      have hlength := congrArg List.length hwhole
      have hlt := hbody.length_lt hunclean
      simp only [List.length_append, List.length_cons, List.length_nil] at hlength
      omega
    · intro hclean
      have hcount := congrArg (List.count '"') hwhole
      simp only [List.count_append, List.count_cons_self, List.count_nil,
        List.count_eq_zero_of_not_mem hbefore, List.count_eq_zero_of_not_mem hclean.1] at hcount
      have hgap : '"' ∉ gap := List.count_eq_zero.mp (by omega)
      have hbody' : '"' ∉ body := List.count_eq_zero.mp (by omega)
      obtain ⟨-, htail⟩ := split_at_quote hbefore hgap hwhole
      obtain ⟨rfl, -⟩ := split_at_quote hclean.1 hbody' htail
      exact hbody.eq_of_clean hclean

/-! ## Lists of literals -/

/-- A text between quotes. -/
def quoted (text : List Char) : List Char := '"' :: (text ++ ['"'])

/-- Texts between quotes, separated by commas, in brackets. -/
def bracketed (texts : List (List Char)) : List Char :=
  '[' :: ([','].intercalate (texts.map quoted) ++ [']'])

/-- What follows the opening quote of the first text. -/
def afterQuote (text : List Char) : List (List Char) → List Char
  | [] => text ++ ['"', ']']
  | next :: texts => text ++ '"' :: ',' :: '"' :: afterQuote next texts

theorem bracketed_cons (text : List Char) (texts : List (List Char)) :
    bracketed (text :: texts) = '[' :: '"' :: afterQuote text texts := by
  have hinner : ∀ (text : List Char) texts,
      [','].intercalate ((text :: texts).map quoted) ++ [']'] = '"' :: afterQuote text texts := by
    intro text texts
    induction texts generalizing text with
    | nil => simp [quoted, afterQuote]
    | cons next texts ih =>
      rw [List.map_cons, List.map_cons, List.intercalate_cons_cons, List.append_assoc,
        ← List.map_cons, ih next]
      simp [quoted, afterQuote]
  rw [bracketed, hinner]

/-- The body of a literal in a bracketed list of texts lies in one of them, or begins in one and ends
after the comma behind it, or is the comma. -/
def Within (texts : List (List Char)) (b : List Char) : Prop :=
  b = [','] ∨ ∃ s ∈ texts, (∃ x y, s = x ++ b ++ y) ∨ ∃ x b', s = x ++ b' ∧ b = b' ++ ['"', ',']

/-- A literal after a quoted text begins and ends in the text, or ends behind it, or begins behind
it. -/
theorem split_at_text {text tail p b rest : List Char}
    (h : text ++ '"' :: tail = p ++ (b ++ '"' :: rest)) :
    (∃ y, text = p ++ b ++ y) ∨
      (∃ b' d, text = p ++ b' ∧ b = b' ++ '"' :: d ∧ tail = d ++ '"' :: rest) ∨
      ∃ p', p = text ++ '"' :: p' ∧ tail = p' ++ (b ++ '"' :: rest) := by
  have hwithin : ∀ c, text = p ++ c → b ++ '"' :: rest = c ++ '"' :: tail →
      (∃ y, text = p ++ b ++ y) ∨
        ∃ b' d, text = p ++ b' ∧ b = b' ++ '"' :: d ∧ tail = d ++ '"' :: rest := by
    rintro c rfl hc
    rcases List.append_eq_append_iff.mp hc with ⟨y, rfl, -⟩ | ⟨d, rfl, hd⟩
    · exact .inl ⟨y, by simp⟩
    · cases d with
      | nil => exact .inl ⟨[], by simp⟩
      | cons e d =>
        obtain ⟨rfl, rfl⟩ := List.cons.inj hd
        exact .inr ⟨c, d, rfl, rfl, rfl⟩
  rcases List.append_eq_append_iff.mp h with ⟨p', rfl, hp⟩ | ⟨c, hc, hb⟩
  · cases p' with
    | nil => exact (hwithin [] (by simp) (by simpa using hp.symm)).imp_right .inl
    | cons e p' =>
      obtain ⟨rfl, htail⟩ := List.cons.inj hp
      exact .inr (.inr ⟨p', rfl, htail⟩)
  · exact (hwithin c hc hb).imp_right .inl

/-- What stands before a quote in front of the next text: the comma, or more than its opening
quote. -/
theorem before_quote_cases {d tail rest : List Char}
    (h : ',' :: '"' :: tail = d ++ '"' :: rest) : d = [','] ∨ ∃ d', d = ',' :: '"' :: d' := by
  cases d with
  | nil => simp at h
  | cons e d =>
    obtain ⟨rfl, hrest⟩ := List.cons.inj h
    cases d with
    | nil => exact .inl rfl
    | cons e d =>
      obtain ⟨rfl, -⟩ := List.cons.inj hrest
      exact .inr ⟨d, rfl⟩

theorem within_of_afterQuote {text b p rest : List Char} {texts : List (List Char)}
    (h : afterQuote text texts = p ++ (b ++ '"' :: rest)) (hp : ∀ c, p.getLast? = some c → c = '"')
    (hb : ∀ pre post, b ≠ pre ++ ',' :: '"' :: post) : Within (text :: texts) b := by
  induction texts generalizing text p with
  | nil =>
    have hquote {cs : List Char} : [']'] ≠ cs ++ '"' :: rest := by
      intro hcs
      have hmem : '"' ∈ [']'] := hcs ▸ by simp
      exact absurd hmem (by decide)
    have hwhole : text ++ '"' :: [']'] = p ++ (b ++ '"' :: rest) := h
    rcases split_at_text hwhole with
      ⟨y, hy⟩ | ⟨b', d, -, -, hd⟩ | ⟨p', -, hp'⟩
    · exact .inr ⟨text, by simp, .inl ⟨p, y, hy⟩⟩
    · exact absurd hd hquote
    · rw [← List.append_assoc] at hp'
      exact absurd hp' hquote
  | cons next texts ih =>
    have hwhole : text ++ '"' :: ',' :: '"' :: afterQuote next texts =
        p ++ (b ++ '"' :: rest) := h
    rcases split_at_text hwhole with
      ⟨y, hy⟩ | ⟨b', d, hb', rfl, hd⟩ | ⟨p', rfl, hp'⟩
    · exact .inr ⟨text, by simp, .inl ⟨p, y, hy⟩⟩
    · -- the literal ends behind the text: it cannot go on after the next opening quote
      rcases before_quote_cases hd with rfl | ⟨d', rfl⟩
      · exact .inr ⟨text, by simp, .inr ⟨p, b', hb', rfl⟩⟩
      · exact absurd (by simp) (hb (b' ++ ['"']) d')
    · cases p' with
      | nil =>
        -- the literal begins at the closing quote of the text
        rcases before_quote_cases hp' with rfl | ⟨d', rfl⟩
        · exact .inl rfl
        · exact absurd rfl (hb [] d')
      | cons e p' =>
        obtain ⟨rfl, hrest⟩ := List.cons.inj hp'
        cases p' with
        | nil => exact absurd (hp ',' (by simp)) (by decide)
        | cons e p' =>
          obtain ⟨rfl, hnext⟩ := List.cons.inj hrest
          have hp'' : ∀ c, p'.getLast? = some c → c = '"' := fun c hc =>
            hp c (by simp [List.getLast?_append, List.getLast?_cons, hc])
          rcases ih hnext hp'' with hcomma | ⟨s, hs, hin⟩
          · exact .inl hcomma
          · exact .inr ⟨s, List.mem_cons_of_mem _ hs, hin⟩

theorem within_of_bracketed {texts : List (List Char)} {gap b rest : List Char} (hgap : gap ≠ [])
    (hb : ∀ pre post, b ≠ pre ++ ',' :: '"' :: post)
    (h : bracketed texts = gap ++ '"' :: (b ++ '"' :: rest)) : Within texts b := by
  cases gap with
  | nil => exact absurd rfl hgap
  | cons c gap =>
    cases texts with
    | nil =>
      have hclose : [']'] = gap ++ '"' :: (b ++ '"' :: rest) := (List.cons.inj h).2
      have hmem : '"' ∈ [']'] := hclose ▸ by simp
      exact absurd hmem (by decide)
    | cons text texts =>
      rw [bracketed_cons] at h
      have htail := (List.cons.inj h).2
      cases gap with
      | nil => exact within_of_afterQuote (p := []) (List.cons.inj htail).2 (by simp) hb
      | cons d gap =>
        have hinner : afterQuote text texts = (gap ++ ['"']) ++ (b ++ '"' :: rest) := by
          rw [(List.cons.inj htail).2]
          simp
        refine within_of_afterQuote hinner (fun c hc => ?_) hb
        simpa using hc.symm

/-- Longer texts have a higher rank, and a backslash at the end counts for more than one character. -/
def rank (cs : List Char) : ℕ := 2 * cs.length + if cs.getLast? = some '\\' then 3 else 0

/-- A value with a quote or a backslash comes from a text of higher rank that has one too. -/
theorem exists_rank_lt {texts : List (List Char)} {b v : List Char} (hb : Within texts b)
    (h : Body E b v) (hv : ¬ Clean v) : ∃ s ∈ texts, ¬ Clean s ∧ rank v < rank s := by
  have hslash := h.slash_mem hv
  have hlength := h.length_lt hv
  rcases hb with rfl | ⟨s, hs, ⟨x, y, rfl⟩ | ⟨x, b', rfl, rfl⟩⟩
  · exact absurd hslash (by decide)
  · refine ⟨_, hs, fun hclean => hclean.2 (by simp [hslash]), ?_⟩
    unfold rank
    by_cases hlast : v.getLast? = some '\\'
    · rw [if_pos hlast]
      cases y with
      | nil =>
        rcases h.getLast?_slash hlast with hend | hlong
        · have hs' : (x ++ b ++ []).getLast? = some '\\' := by
            rw [List.append_nil, List.getLast?_append, hend]
            rfl
          rw [if_pos hs', List.append_nil, List.length_append]
          omega
        · simp only [List.length_append, List.length_nil]
          omega
      | cons c y =>
        simp only [List.length_append, List.length_cons]
        omega
    · rw [if_neg hlast]
      simp only [List.length_append]
      omega
  · obtain ⟨hend, hvalue, hle⟩ := h.of_quote_comma
    have hlast : (x ++ b').getLast? = some '\\' := by
      rw [List.getLast?_append, hend]
      rfl
    refine ⟨_, hs, fun hclean => hclean.2 (List.mem_of_getLast? hlast), ?_⟩
    rw [rank, rank, hvalue, hlast, if_neg (by decide), if_pos rfl, List.length_append]
    omega

/-- If the literals of a bracketed list have the same values as the texts between the quotes, up to
order and repetition, the texts have no quotes and backslashes. -/
theorem clean_of_literals {texts vs : List (List Char)} (h : Literals E (bracketed texts) vs)
    (hsame : ∀ s, s ∈ vs ↔ s ∈ texts) : ∀ text ∈ texts, Clean text := by
  intro text htext
  by_contra hunclean
  -- each unclean text would come from one of higher rank
  have hclimb : ∀ n, ∃ s ∈ texts, ¬ Clean s ∧ n ≤ rank s := by
    intro n
    induction n with
    | zero => exact ⟨text, htext, hunclean, Nat.zero_le _⟩
    | succ n ih =>
      obtain ⟨s, hs, hs', hrank⟩ := ih
      obtain ⟨gap, body, rest, hgap, hbody, hwhole⟩ := h.exists_body ((hsame s).mpr hs)
      have hwithin := within_of_bracketed hgap hbody.ne_comma_quote hwhole
      obtain ⟨s', hmem, hs'', hlt⟩ := exists_rank_lt hwithin hbody hs'
      exact ⟨s', hmem, hs'', by omega⟩
  obtain ⟨s, hs, -, hrank⟩ := hclimb ((texts.map rank).sum + 1)
  have hsum := List.le_sum_of_mem (List.mem_map_of_mem hs : rank s ∈ texts.map rank)
  omega

/-! ## A reader -/

/-- Escape sequences of one character. -/
def Escapes.ofChars (unescape : Char → Option Char)
    (hslash : ∀ c, unescape c = some '\\' → c = '\\') : Escapes where
  StandsFor seq cs := ∃ c d, unescape c = some d ∧ seq = [c] ∧ cs = [d]
  short := by
    rintro seq cs ⟨c, d, -, rfl, rfl⟩
    exact Nat.le_refl _
  quote := by
    rintro seq cs ⟨c, d, -, rfl, rfl⟩ hmem
    rw [List.mem_singleton.mp hmem]
  slash := by
    rintro seq cs ⟨c, d, hd, rfl, rfl⟩ hlast
    obtain rfl : d = '\\' := Option.some.inj hlast
    rw [hslash c hd]
    exact .inl rfl

variable {unescape : Char → Option Char} (hslash : ∀ c, unescape c = some '\\' → c = '\\')

/-- Read a body up to its closing quote. -/
def readBody (unescape : Char → Option Char) : List Char → Option (List Char × List Char)
  | [] => none
  | '"' :: rest => some ([], rest)
  | ['\\'] => none
  | '\\' :: c :: rest =>
      match unescape c, readBody unescape rest with
      | some d, some (v, rest') => some (d :: v, rest')
      | _, _ => none
  | c :: rest => (readBody unescape rest).map fun (v, rest') => (c :: v, rest')

theorem readBody_sound {text rest : List Char} (h : readBody unescape text = some (v, rest)) :
    ∃ body, text = body ++ '"' :: rest ∧ Body (.ofChars unescape hslash) body v := by
  fun_induction readBody unescape text generalizing v rest with
  | case1 => cases h
  | case2 rest' =>
    obtain ⟨rfl, rfl⟩ := Prod.mk.inj (Option.some.inj h)
    exact ⟨[], rfl, .nil⟩
  | case3 => cases h
  | case4 c rest' d v' rest'' hread hd ih =>
    obtain ⟨rfl, rfl⟩ := Prod.mk.inj (Option.some.inj h)
    obtain ⟨body, rfl, hbody⟩ := ih hread
    have hseq : (Escapes.ofChars unescape hslash).StandsFor [c] [d] := ⟨c, d, hd, rfl, rfl⟩
    exact ⟨'\\' :: ([c] ++ body), rfl, .escape hseq hbody⟩
  | case5 => cases h
  | case6 c rest' hquote hlast hslash ih =>
    obtain ⟨⟨v', rest''⟩, hread, heq⟩ := Option.map_eq_some_iff.mp h
    obtain ⟨rfl, rfl⟩ := Prod.mk.inj heq
    obtain ⟨body, rfl, hbody⟩ := ih hread
    have hc : c ≠ '\\' := fun hc => by
      cases htail : body ++ '"' :: rest'' with
      | nil => exact hlast hc htail
      | cons d ds => exact hslash d ds hc htail
    exact ⟨c :: body, rfl, .plain hquote hc hbody⟩

theorem readBody_plain {c : Char} (hquote : c ≠ '"') (hslash : c ≠ '\\') (rest : List Char) :
    readBody unescape (c :: rest) =
      (readBody unescape rest).map fun (v, rest') => (c :: v, rest') := by
  cases rest <;> simp [readBody, hslash]

theorem readBody_complete {body : List Char} (h : Body (.ofChars unescape hslash) body v)
    (rest : List Char) : readBody unescape (body ++ '"' :: rest) = some (v, rest) := by
  induction h with
  | nil => rfl
  | plain hquote hslash _ ih =>
    rw [List.cons_append, readBody_plain hquote hslash, ih]
    rfl
  | escape hseq _ ih =>
    obtain ⟨c, d, hd, rfl, rfl⟩ := hseq
    simp only [List.cons_append, List.nil_append, readBody, hd, ih]

/-- Read quoted texts that are separated by commas and followed by a closing bracket. -/
def readItems (unescape : Char → Option Char) : ℕ → List Char → Option (List (List Char))
  | n + 1, '"' :: text =>
      match readBody unescape text with
      | some (v, [']']) => some [v]
      | some (v, ',' :: rest) => (readItems unescape n rest).map (v :: ·)
      | _ => none
  | _, _ => none

/-- Read a bracketed list. -/
def readList (unescape : Char → Option Char) : List Char → Option (List (List Char))
  | ['[', ']'] => some []
  | '[' :: text => readItems unescape text.length text
  | _ => none

theorem readItems_sound {n : ℕ} {before text : List Char} {vs : List (List Char)}
    (hbefore : before ≠ []) (h : readItems unescape n text = some vs) :
    Literals (.ofChars unescape hslash) (before ++ text) vs := by
  induction n generalizing before text vs with
  | zero => simp [readItems] at h
  | succ n ih =>
    unfold readItems at h
    split at h
    · next n' text' hn =>
      obtain rfl := Nat.succ.inj hn
      split at h
      · next v hread =>
        obtain rfl := Option.some.inj h
        obtain ⟨body, rfl, hbody⟩ := readBody_sound hslash hread
        exact .cons hbefore hbody (.nil _)
      · next v rest hread =>
        obtain ⟨vs', hvs, rfl⟩ := Option.map_eq_some_iff.mp h
        obtain ⟨body, rfl, hbody⟩ := readBody_sound hslash hread
        have hcomma : [','] ≠ [] := by simp
        exact .cons hbefore hbody (ih hcomma hvs)
      · cases h
    · cases h

theorem readList_sound {text : List Char} {vs : List (List Char)}
    (h : readList unescape text = some vs) : Literals (.ofChars unescape hslash) text vs := by
  unfold readList at h
  split at h
  · obtain rfl := Option.some.inj h
    exact .nil _
  · next text' _ =>
    have hopen : ['['] ≠ [] := by simp
    exact readItems_sound hslash hopen h
  · cases h

theorem length_lt_afterQuote (text : List Char) (texts : List (List Char)) :
    texts.length < (afterQuote text texts).length := by
  induction texts generalizing text with
  | nil => simp [afterQuote]
  | cons next texts ih =>
    have hnext := ih next
    simp only [afterQuote, List.length_append, List.length_cons]
    omega

theorem readItems_complete {bodies vs : List (List Char)} {body v : List Char} {n : ℕ}
    (h : List.Forall₂ (Body (.ofChars unescape hslash)) (body :: bodies) (v :: vs))
    (hn : bodies.length < n) :
    readItems unescape n ('"' :: afterQuote body bodies) = some (v :: vs) := by
  obtain ⟨n, rfl⟩ := Nat.exists_eq_succ_of_ne_zero (Nat.ne_zero_of_lt hn)
  induction bodies generalizing body v vs n with
  | nil =>
    obtain ⟨hbody, hrest⟩ := List.forall₂_cons.mp h
    cases hrest
    simp [readItems, afterQuote, readBody_complete hslash hbody]
  | cons next bodies ih =>
    obtain ⟨hbody, hrest⟩ := List.forall₂_cons.mp h
    cases hrest with
    | cons hnext hbodies =>
      rw [List.length_cons] at hn
      obtain ⟨n, rfl⟩ : ∃ m, n = m + 1 := ⟨n - 1, by omega⟩
      have hitems := ih (.cons hnext hbodies) n (by omega)
      simp [readItems, afterQuote, readBody_complete hslash hbody] at hitems ⊢
      exact hitems

theorem readList_complete {bodies vs : List (List Char)}
    (h : List.Forall₂ (Body (.ofChars unescape hslash)) bodies vs) :
    readList unescape (bracketed bodies) = some vs := by
  cases h with
  | nil => rfl
  | @cons body v bodies vs hbody hbodies =>
    have hlength := length_lt_afterQuote body bodies
    rw [bracketed_cons]
    exact readItems_complete hslash (.cons hbody hbodies) (by simp only [List.length_cons]; omega)

end Literal
