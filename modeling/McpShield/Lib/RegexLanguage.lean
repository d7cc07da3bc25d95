import McpShield.Lib.Redaction
import McpShield.Lib.RegexSearch

/-!
# Languages of expressions

An expression without anchors matches the texts of a language, wherever they stand.  What its texts
can have in them is computed on the expression.
-/

namespace Regex

/-- The texts that an expression without anchors matches. -/
def language (w : Char → Bool) : Expr → Language Char
  | .empty => 1
  | .set s => {u | ∃ c, u = [c] ∧ s.mem w c = true}
  | .startText | .endText => 0
  | .cat a b => language w a * language w b
  | .alt a b => language w a + language w b
  | .star _ a => KStar.kstar (language w a)

def anchorFree : Expr → Bool
  | .startText | .endText => false
  | .cat a b | .alt a b => anchorFree a && anchorFree b
  | .star _ a => anchorFree a
  | _ => true

section Language

variable {w w' : Char → Bool} {e a b : Expr} {i j k : Input} {u v text : List Char} {c : Char}

@[simp] theorem mem_language_set {s : CharSet} :
    u ∈ language w (.set s) ↔ ∃ c, u = [c] ∧ s.mem w c = true := Iff.rfl

@[simp] theorem mem_language_cat :
    u ∈ language w (.cat a b) ↔ ∃ x ∈ language w a, ∃ y ∈ language w b, x ++ y = u :=
  Language.mem_mul

@[simp] theorem mem_language_alt :
    u ∈ language w (.alt a b) ↔ u ∈ language w a ∨ u ∈ language w b := Iff.rfl

theorem append_mem_kstar {L : Language Char} (hu : u ∈ L) (hv : v ∈ KStar.kstar L) :
    u ++ v ∈ KStar.kstar L :=
  mul_kstar_le_kstar (a := L) (Language.append_mem_mul hu hv)

/-- A text of a repetition is one of the repeated expression and another of the repetition. -/
theorem kstar_induction {L : Language Char} {p : List Char → Prop} (hnil : p [])
    (happend : ∀ u v, u ∈ L → v ∈ KStar.kstar L → p v → p (u ++ v)) (hu : u ∈ KStar.kstar L) :
    p u := by
  obtain ⟨pieces, rfl, hpieces⟩ := Language.mem_kstar.mp hu
  clear hu
  induction pieces with
  | nil => exact hnil
  | cons piece pieces ih =>
    obtain ⟨hpiece, hothers⟩ := List.forall_mem_cons.mp hpieces
    exact happend _ _ hpiece (Language.join_mem_kstar hothers) (ih hothers)

theorem advance_advance (i : Input) (u v r r' : List Char) :
    (i.advance u r).advance v r' = i.advance (u ++ v) r' := by
  cases u <;> simp [Input.advance]

theorem advance_nil (i : Input) : i.advance [] i.rest = i := by simp [Input.advance]

theorem Matches.exists_mem_language (h : Matches w e i j) (he : anchorFree e = true) :
    ∃ u ∈ language w e, i.rest = u ++ j.rest ∧ j = i.advance u j.rest := by
  induction h with
  | empty i => exact ⟨[], rfl, rfl, (advance_nil i).symm⟩
  | @set s b c cs hc => exact ⟨[c], ⟨c, rfl, hc⟩, rfl, by simp [Input.advance]⟩
  | startText | endText => cases he
  | @cat a b i j k _ _ iha ihb =>
    obtain ⟨ha, hb⟩ := Bool.and_eq_true_iff.mp he
    obtain ⟨u, hu, hi, hj⟩ := iha ha
    obtain ⟨v, hv, hj', hk⟩ := ihb hb
    refine ⟨u ++ v, Language.append_mem_mul hu hv, by rw [hi, hj', List.append_assoc], ?_⟩
    rw [hk, hj, advance_advance]
    rfl
  | altLeft _ ih =>
    obtain ⟨u, hu, hij⟩ := ih (Bool.and_eq_true_iff.mp he).1
    exact ⟨u, .inl hu, hij⟩
  | altRight _ ih =>
    obtain ⟨u, hu, hij⟩ := ih (Bool.and_eq_true_iff.mp he).2
    exact ⟨u, .inr hu, hij⟩
  | starNil i => exact ⟨[], Language.nil_mem_kstar _, rfl, (advance_nil i).symm⟩
  | @starMore g a i j k _ _ iha ihs =>
    obtain ⟨u, hu, hi, hj⟩ := iha he
    obtain ⟨v, hv, hj', hk⟩ := ihs he
    refine ⟨u ++ v, append_mem_kstar hu hv, by rw [hi, hj', List.append_assoc], ?_⟩
    rw [hk, hj, advance_advance]
    rfl

theorem matches_of_mem_language (hu : u ∈ language w e) {i : Input} (hi : i.rest = u ++ v) :
    Matches w e i (i.advance u v) := by
  induction e generalizing u v i with
  | empty =>
    obtain rfl := (Language.mem_one u).mp hu
    obtain rfl : i.rest = v := hi
    rw [advance_nil]
    exact .empty i
  | set s =>
    obtain ⟨c, rfl, hc⟩ := hu
    exact matches_set.mpr ⟨c, hi, hc, by simp [Input.advance]⟩
  | startText | endText => exact absurd hu (Language.notMem_zero _)
  | cat a b iha ihb =>
    obtain ⟨x, hx, y, hy, rfl⟩ := mem_language_cat.mp hu
    rw [List.append_assoc] at hi
    rw [← advance_advance i x y (y ++ v)]
    exact .cat (iha hx hi) (ihb hy rfl)
  | alt a b iha ihb =>
    rcases mem_language_alt.mp hu with hu | hu
    · exact .altLeft (iha hu hi)
    · exact .altRight (ihb hu hi)
  | star g a ih =>
    refine kstar_induction (p := fun u => ∀ v (i : Input), i.rest = u ++ v →
      Matches w (.star g a) i (i.advance u v)) ?_ ?_ hu v i hi
    · intro v i hi
      obtain rfl : i.rest = v := hi
      rw [advance_nil]
      exact .starNil i
    · intro x y hx _ hy v i hi
      rw [List.append_assoc] at hi
      rw [← advance_advance i x y (y ++ v)]
      exact .starMore (ih hx hi) (hy v _ rfl)

/-- The text contains a match when a text of the language occurs in it. -/
theorem found_iff_language (he : anchorFree e = true) :
    Found w e text ↔ ∃ u ∈ language w e, u <:+: text := by
  constructor
  · rintro ⟨i, hi, j, hmatch⟩
    obtain ⟨u, hu, hrest, -⟩ := hmatch.exists_mem_language he
    obtain ⟨before, hbefore⟩ := mem_starts hi
    exact ⟨u, hu, before, j.rest, by rw [List.append_assoc, ← hrest, hbefore]⟩
  · rintro ⟨u, hu, before, after, rfl⟩
    have hsuffix : u ++ after <:+ before ++ u ++ after := ⟨before, by rw [List.append_assoc]⟩
    obtain ⟨i, hi, hrest⟩ := exists_mem_starts hsuffix
    exact ⟨i, hi, _, matches_of_mem_language hu hrest⟩

theorem not_found_iff_free (he : anchorFree e = true) :
    ¬ Found w e text ↔ Redaction.Free (language w e) text := by
  rw [found_iff_language he]
  simp [Redaction.Free]

/-! ## What is in the texts -/

/-- The empty text is in the language. -/
def nullable : Expr → Bool
  | .empty | .star _ _ => true
  | .set _ | .startText | .endText => false
  | .cat a b => nullable a && nullable b
  | .alt a b => nullable a || nullable b

theorem nullable_of_nil_mem (h : [] ∈ language w e) : nullable e = true := by
  induction e with
  | empty | star => rfl
  | set => obtain ⟨c, hc, -⟩ := h; cases hc
  | startText | endText => exact absurd h (Language.notMem_zero _)
  | cat a b iha ihb =>
    obtain ⟨x, hx, y, hy, hxy⟩ := mem_language_cat.mp h
    obtain ⟨rfl, rfl⟩ := List.append_eq_nil_iff.mp hxy
    exact Bool.and_eq_true_iff.mpr ⟨iha hx, ihb hy⟩
  | alt a b iha ihb =>
    rcases mem_language_alt.mp h with h | h
    · exact Bool.or_eq_true_iff.mpr (.inl (iha h))
    · exact Bool.or_eq_true_iff.mpr (.inr (ihb h))

/-- No set of the expression has the character. -/
def avoids (w : Char → Bool) (c : Char) : Expr → Bool
  | .set s => !s.mem w c
  | .cat a b | .alt a b => avoids w c a && avoids w c b
  | .star _ a => avoids w c a
  | _ => true

theorem not_mem_of_avoids (h : avoids w c e = true) (hu : u ∈ language w e) : c ∉ u := by
  induction e generalizing u with
  | empty =>
    rw [(Language.mem_one u).mp hu]
    exact List.not_mem_nil
  | set s =>
    obtain ⟨d, rfl, hd⟩ := hu
    rintro (_ | ⟨_, hc⟩)
    · rw [avoids, hd] at h
      cases h
    · cases hc
  | startText | endText => exact absurd hu (Language.notMem_zero _)
  | cat a b iha ihb =>
    obtain ⟨ha, hb⟩ := Bool.and_eq_true_iff.mp h
    obtain ⟨x, hx, y, hy, rfl⟩ := mem_language_cat.mp hu
    rw [List.mem_append]
    exact not_or.mpr ⟨iha ha hx, ihb hb hy⟩
  | alt a b iha ihb =>
    obtain ⟨ha, hb⟩ := Bool.and_eq_true_iff.mp h
    rcases mem_language_alt.mp hu with hu | hu
    · exact iha ha hu
    · exact ihb hb hu
  | star g a ih =>
    refine kstar_induction (p := fun u => c ∉ u) List.not_mem_nil (fun x y hx _ hy => ?_) hu
    rw [List.mem_append]
    exact not_or.mpr ⟨ih h hx, hy⟩

theorem CharSet.mem_congr {s : CharSet} (h : w c = w' c) : s.mem w c = s.mem w' c := by
  simp only [CharSet.mem, h]

theorem avoids_congr (h : w c = w' c) : avoids w c e = avoids w' c e := by
  induction e with
  | set s => simp only [avoids, CharSet.mem_congr h]
  | cat a b iha ihb | alt a b iha ihb => simp only [avoids, iha, ihb]
  | star g a ih => simpa only [avoids] using ih
  | _ => rfl

/-- Only the word characters that the text has make a difference. -/
theorem mem_language_congr (h : ∀ c ∈ u, w c = w' c) (hu : u ∈ language w e) :
    u ∈ language w' e := by
  induction e generalizing u with
  | empty => exact hu
  | set s =>
    obtain ⟨c, rfl, hc⟩ := hu
    exact ⟨c, rfl, by rwa [← CharSet.mem_congr (h c (List.mem_singleton_self c))]⟩
  | startText | endText => exact hu
  | cat a b iha ihb =>
    obtain ⟨x, hx, y, hy, rfl⟩ := mem_language_cat.mp hu
    obtain ⟨hwx, hwy⟩ := List.forall_mem_append.mp h
    exact mem_language_cat.mpr ⟨x, iha hwx hx, y, ihb hwy hy, rfl⟩
  | alt a b iha ihb => exact (mem_language_alt.mp hu).imp (iha h) (ihb h)
  | star g a ih =>
    refine kstar_induction (p := fun u => (∀ c ∈ u, w c = w' c) → u ∈ language w' (.star g a))
      (fun _ => Language.nil_mem_kstar _) (fun x y hx _ hy hwxy => ?_) hu h
    obtain ⟨hwx, hwy⟩ := List.forall_mem_append.mp hwxy
    exact append_mem_kstar (ih hwx hx) (hy hwy)

/-! ## One after the other -/

/-- The expression with another one after it. -/
def append : Expr → Expr → Expr
  | .cat a b, e => .cat a (append b e)
  | .empty, e => e
  | a, e => .cat a e

theorem language_append (a e : Expr) : language w (append a e) = language w a * language w e := by
  induction a with
  | cat a b _ ihb =>
    show language w a * language w (append b e) = language w a * language w b * language w e
    rw [ihb, mul_assoc]
  | empty => exact (one_mul _).symm
  | _ => rfl

/-- Every character but one. -/
def CharSet.but (c : Char) : CharSet :=
  { ranges := [(c, c)], word := false, space := false, negated := true }

theorem mem_but {d : Char} : (CharSet.but c).mem w d = true ↔ d ≠ c := by
  have hsingle : (CharSet.but c).mem w d = !(CharSet.single c).mem w d := by
    simp [CharSet.mem, CharSet.but, CharSet.single]
  rw [hsingle, Bool.not_eq_true', ← Bool.not_eq_true, mem_single]

theorem mem_language_star_but {g : Bool} : u ∈ language w (.star g (.set (.but c))) ↔ c ∉ u := by
  constructor
  · refine kstar_induction (p := fun u => c ∉ u) List.not_mem_nil (fun x y hx _ hy => ?_)
    obtain ⟨d, rfl, hd⟩ := hx
    simpa [hy] using (mem_but.mp hd).symm
  · intro hu
    induction u with
    | nil => exact Language.nil_mem_kstar _
    | cons d u ih =>
      rw [List.mem_cons, not_or] at hu
      have hd : [d] ∈ language w (.set (.but c)) := ⟨d, rfl, mem_but.mpr (Ne.symm hu.1)⟩
      exact append_mem_kstar hd (ih hu.2)

/-- An opening, anything but a character, and a closing. -/
theorem language_span (opening closing : Expr) (c : Char) :
    language w (append opening (.cat (.star true (.set (.but c))) closing)) =
      Redaction.span (language w opening) (language w closing) c := by
  rw [language_append]
  ext u
  constructor
  · intro hu
    obtain ⟨o, ho, t, ht, rfl⟩ := Language.mem_mul.mp hu
    obtain ⟨m, hm, x, hx, rfl⟩ := mem_language_cat.mp ht
    exact ⟨o, ho, m, mem_language_star_but.mp hm, x, hx, rfl⟩
  · rintro ⟨o, ho, m, hm, x, hx, rfl⟩
    exact Language.append_mem_mul ho
      (Language.append_mem_mul (mem_language_star_but.mpr hm) hx)

end Language

/-! ## Replacing -/

section Replacing

variable {w : Char → Bool} {e : Expr} {rep text : List Char} {i s j : Input} {b : Bool}

open Redaction (Scan)

theorem not_prefix_of_run_eq_none (h : run w e some i = none) :
    ∀ u ∈ language w e, ¬ u <+: i.rest := by
  rintro u hu ⟨v, hv⟩
  have hsome := run_complete (k := some) (matches_of_mem_language hu hv.symm) rfl
  rw [h] at hsome
  cases hsome

theorem scan_of_firstMatch_eq_none (h : firstMatch w e b text = none) :
    Scan rep (language w e) text text := by
  induction text generalizing b with
  | nil => exact .nil
  | cons c cs ih =>
    rw [firstMatch] at h
    cases hrun : run w e some ⟨b, c :: cs⟩ with
    | some j => simp [hrun] at h
    | none =>
      rw [hrun] at h
      exact .keep (not_prefix_of_run_eq_none hrun) (ih h)

theorem exists_of_run_eq_some (he : anchorFree e = true) (h : run w e some i = some j) :
    ∃ u ∈ language w e, i.rest = u ++ j.rest := by
  obtain ⟨_, hmatch, ⟨⟩⟩ := run_eq_some h
  obtain ⟨u, hu, hrest, -⟩ := hmatch.exists_mem_language he
  exact ⟨u, hu, hrest⟩

/-- A search passes over what is kept, and then there is a match. -/
structure Passes (L : Language Char) (rep text : List Char) (s j : Input) (gap : List Char) :
    Prop where
  matched : ∃ u ∈ L, s.rest = u ++ j.rest
  text_eq : text = gap ++ s.rest
  scan : ∀ y, Scan rep L j.rest y → Scan rep L text (gap ++ (rep ++ y))

theorem passes_of_run_eq_some (he : anchorFree e = true) (h : run w e some i = some j) :
    Passes (language w e) rep i.rest i j [] := by
  obtain ⟨u, hu, hrest⟩ := exists_of_run_eq_some he h
  refine ⟨⟨u, hu, hrest⟩, rfl, fun y hy => ?_⟩
  rw [hrest]
  exact .replace hu hy

theorem exists_passes (he : anchorFree e = true) (h : firstMatch w e b text = some (s, j)) :
    ∃ gap, Passes (language w e) rep text s j gap := by
  induction text generalizing b with
  | nil =>
    obtain ⟨_, hrun, hpair⟩ := Option.map_eq_some_iff.mp h
    obtain ⟨rfl, rfl⟩ := Prod.mk.inj hpair
    exact ⟨[], passes_of_run_eq_some he hrun⟩
  | cons c cs ih =>
    rw [firstMatch] at h
    cases hrun : run w e some ⟨b, c :: cs⟩ with
    | some j' =>
      rw [hrun] at h
      obtain ⟨rfl, rfl⟩ := Prod.mk.inj (Option.some.inj h)
      exact ⟨[], passes_of_run_eq_some he hrun⟩
    | none =>
      rw [hrun] at h
      obtain ⟨gap, hmatched, htext, hscan⟩ := ih h
      refine ⟨c :: gap, hmatched, by rw [htext, List.cons_append], fun y hy => ?_⟩
      exact .keep (not_prefix_of_run_eq_none hrun) (hscan y hy)

/-- Replacing the matches one after the other is a scan. -/
theorem scan_substitute (he : anchorFree e = true) (hnil : [] ∉ language w e) {n : ℕ}
    {last : Option ℕ} (hn : i.rest.length < n) :
    Scan rep (language w e) i.rest (substitute rep i.rest (matchesFrom w e n last i)) := by
  induction n generalizing last i with
  | zero => exact absurd hn (Nat.not_lt_zero _)
  | succ n ih =>
    rw [matchesFrom]
    cases hfirst : firstMatch w e i.atStart i.rest with
    | none => exact scan_of_firstMatch_eq_none hfirst
    | some pair =>
      obtain ⟨s, j⟩ := pair
      have hpasses : ∃ gap, Passes (language w e) rep i.rest s j gap := exists_passes he hfirst
      obtain ⟨gap, ⟨u, hu, hs⟩, htext, hscan⟩ := hpasses
      have hne : u ≠ [] := fun h => hnil (h ▸ hu)
      have hshorter : j.rest.length < s.rest.length := by
        rw [hs, List.length_append]
        exact Nat.lt_add_of_pos_left (List.length_pos_of_ne_nil hne)
      have hsj : ¬ (s = j ∧ last = some j.rest.length) := by
        rintro ⟨rfl, -⟩
        exact Nat.lt_irrefl _ hshorter
      have hlength : i.rest.length = gap.length + s.rest.length := by
        rw [htext, List.length_append]
      have hgap : i.rest.take (i.rest.length - s.rest.length) = gap := by
        rw [hlength, Nat.add_sub_cancel, htext, List.take_left]
      simp only [if_neg hsj]
      rw [substitute, hgap, List.append_assoc]
      exact hscan _ (ih (by omega))

end Replacing

end Regex
