import Mathlib.Computability.Language
import Mathlib.Data.List.Infix
import Mathlib.Logic.Relation
import Mathlib.Order.CompletePartialOrder

/-!
# Redaction

Parts of a text are replaced by a mark, language by language.  A text that cannot overlap the mark
occurs in the result only where it occurred before.  A language whose texts consist of an opening and
a closing, with anything between them but a blocker, may gain texts when a part that has the blocker
is replaced.  `Tame` says when it does not, and `Marks.before` that it then has a text only where it
had one before.
-/

namespace Redaction

variable {α : Type*}

/-- Parts of a text are replaced by the mark: the parts are in `L`, and a symbol is kept where `K`
holds of what is left. -/
inductive Marks (mark : List α) (L : Language α) (K : List α → Prop) : List α → List α → Prop
  | nil : Marks mark L K [] []
  | keep {a x y} (ha : K (a :: x)) (h : Marks mark L K x y) : Marks mark L K (a :: x) (a :: y)
  | replace {u x y} (hu : u ∈ L) (h : Marks mark L K x y) : Marks mark L K (u ++ x) (mark ++ y)

/-- No text of the language occurs. -/
def Free (L : Language α) (x : List α) : Prop := ∀ u ∈ L, ¬ u <:+: x

/-- Texts of the language are replaced from left to right, one wherever one begins. -/
def Scan (mark : List α) (L : Language α) : List α → List α → Prop :=
  Marks mark L fun x => ∀ u ∈ L, ¬ u <+: x

/-- Any symbol may be kept. -/
def anywhere (_ : List α) : Prop := True

/-- Some parts are replaced. -/
def Redacts (mark : List α) (L : Language α) : List α → List α → Prop := Marks mark L anywhere

/-! ## Texts apart from the mark -/

/-- Neither text begins with the other. -/
def Incomparable (u v : List α) : Prop := ¬ u <+: v ∧ ¬ v <+: u

/-- The text and the mark cannot overlap. -/
structure Apart (mark u : List α) : Prop where
  ne_nil : u ≠ []
  /-- The mark does not begin in the text. -/
  inText : ∀ v, v <:+ u → v ≠ [] → Incomparable v mark
  /-- The text does not begin in the mark. -/
  inMark : ∀ v, v <:+ mark → v ≠ [] → Incomparable u v

section Apart

variable {mark u v : List α} {a b c : α}

theorem head_of_comparable (hmark : mark.head? = some a) (hv : v ≠ [])
    (h : v <+: mark ∨ mark <+: v) : v.head? = some a := by
  obtain ⟨c, v, rfl⟩ := List.exists_cons_of_ne_nil hv
  rcases h with ⟨w, rfl⟩ | ⟨w, hw⟩
  · simpa using hmark
  · rw [← hw, List.head?_append, hmark]
    rfl

/-- A text without the first and the last symbol of the mark. -/
theorem apart_of_ends (hfirst : mark.head? = some a) (hlast : mark.getLast? = some b)
    (hu : u ≠ []) (ha : a ∉ u) (hb : b ∉ u) (hoccurs : ¬ u <:+: mark) : Apart mark u where
  ne_nil := hu
  inText := by
    intro v hv hne
    have hno : ¬ (v <+: mark ∨ mark <+: v) := fun h =>
      ha (hv.subset (List.mem_of_mem_head? (head_of_comparable hfirst hne h)))
    exact not_or.mp hno
  inMark := by
    intro v hv hne
    refine ⟨fun h => hoccurs (h.isInfix.trans hv.isInfix), fun h => hb (h.subset ?_)⟩
    obtain ⟨w, rfl⟩ := hv
    rw [List.getLast?_append_of_ne_nil _ hne] at hlast
    exact List.mem_of_mem_getLast? hlast

/-- Only a whole text begins with its first symbol when that is nowhere else. -/
theorem eq_of_suffix (ha : a ∉ u) (hv : v <:+ a :: u) (hhead : v.head? = some a) :
    v = a :: u := by
  rcases List.suffix_cons_iff.mp hv with h | h
  · exact h
  · exact absurd (h.subset (List.mem_of_mem_head? hhead)) ha

/-- A text that has the first symbol of the mark only as its own first one, and goes on with
another. -/
theorem apart_of_head (hmark : mark = a :: b :: v) (hmem : a ∉ b :: v) (hu : u.head? = some a)
    (htail : a ∉ u.tail) (hc : u.tail.head? = some c) (hne : c ≠ b) (hoccurs : ¬ u <:+: mark) :
    Apart mark u := by
  obtain ⟨w, rfl⟩ : ∃ w, u = a :: c :: w := by
    cases u with
    | nil => cases hu
    | cons d u =>
      cases u with
      | nil => cases hc
      | cons d' w => exact ⟨w, by simp_all⟩
  have hfirst : mark.head? = some a := by rw [hmark]; rfl
  have hwhole : ¬ (a :: c :: w <+: mark ∨ mark <+: a :: c :: w) := by
    rw [hmark, List.cons_prefix_cons, List.cons_prefix_cons, List.cons_prefix_cons,
      List.cons_prefix_cons]
    rintro (⟨-, h, -⟩ | ⟨-, h, -⟩)
    · exact hne h
    · exact hne h.symm
  constructor
  case ne_nil => exact List.cons_ne_nil _ _
  case inText =>
    refine fun x hx hxne => not_or.mp fun h => hwhole ?_
    rwa [eq_of_suffix htail hx (head_of_comparable hfirst hxne h)] at h
  case inMark =>
    refine fun x hx hxne => ⟨fun h => hoccurs (h.isInfix.trans hx.isInfix), fun h => hwhole ?_⟩
    have hhead : x.head? = some a := head_of_comparable rfl hxne (.inl h)
    rw [hmark] at hx
    rw [eq_of_suffix hmem hx hhead, ← hmark] at h
    exact .inr h

end Apart

section Marks

variable {mark x y a d u v : List α} {L L' : Language α} {K K' : List α → Prop} {b : α}

theorem Incomparable.append_ne {u v x y : List α} (h : Incomparable u v) : u ++ x ≠ v ++ y := by
  intro heq
  have hu : u <+: v ++ y := ⟨x, heq⟩
  rcases List.prefix_or_prefix_of_prefix hu (List.prefix_append v y) with hp | hp
  · exact h.1 hp
  · exact h.2 hp

theorem Marks.mono (h : Marks mark L K x y) (hL : L ≤ L') (hK : ∀ x, K x → K' x) :
    Marks mark L' K' x y := by
  induction h with
  | nil => exact .nil
  | keep ha _ ih => exact .keep (hK _ ha) ih
  | replace hu _ ih => exact .replace (hL hu) ih

theorem Marks.redacts (h : Marks mark L K x y) : Redacts mark L x y :=
  h.mono le_rfl fun _ _ => trivial

/-- A symbol that is neither in the text nor in the mark. -/
theorem Marks.not_mem (h : Marks mark L K x y) (hx : b ∉ x) (hmark : b ∉ mark) : b ∉ y := by
  induction h with
  | nil => exact hx
  | keep _ _ ih =>
    rw [List.mem_cons, not_or] at hx ⊢
    exact ⟨hx.1, ih hx.2⟩
  | replace _ _ ih =>
    rw [List.mem_append, not_or] at hx ⊢
    exact ⟨hmark, ih hx.2⟩

theorem marks_self (hK : ∀ v, v <:+ x → v ≠ [] → K v) : Marks mark L K x x := by
  induction x with
  | nil => exact .nil
  | cons a x ih =>
    exact .keep (hK _ (List.suffix_refl _) (List.cons_ne_nil _ _))
      (ih fun v hv => hK v (hv.trans (List.suffix_cons a x)))

/-- What begins the result and cannot overlap the mark is kept. -/
theorem Marks.kept_prefix (h : Marks mark L K x y) (hy : y = v ++ d)
    (hv : ∀ w, w <:+ v → w ≠ [] → Incomparable w mark) :
    ∃ d', x = v ++ d' ∧ Marks mark L K d' d := by
  induction v generalizing x y with
  | nil => exact ⟨x, rfl, by rwa [hy] at h⟩
  | cons b v ih =>
    cases h with
    | nil => cases hy
    | keep _ h =>
      obtain ⟨rfl, rfl⟩ := List.cons.inj hy
      obtain ⟨d', rfl, hd⟩ := ih h rfl fun w hw => hv w (hw.trans (List.suffix_cons _ v))
      exact ⟨d', rfl, hd⟩
    | replace _ _ =>
      exact absurd hy.symm (hv _ (List.suffix_refl _) (List.cons_ne_nil _ _)).append_ne

/-- A text that cannot overlap the mark occurs in the result where it occurred before. -/
theorem Marks.kept (h : Marks mark L K x y) (hu : Apart mark u) (hy : y = a ++ (u ++ d)) :
    ∃ a' d', x = a' ++ (u ++ d') ∧ Redacts mark L a' a ∧ K (u ++ d') ∧ Marks mark L K d' d := by
  induction h generalizing a with
  | nil =>
    have hnil : u = [] := by simp_all
    exact absurd hnil hu.ne_nil
  | @keep b x y hb h ih =>
    cases a with
    | nil =>
      obtain ⟨d', hx, hd⟩ := Marks.kept_prefix (v := u) (.keep hb h) hy hu.inText
      exact ⟨[], d', hx, .nil, hx ▸ hb, hd⟩
    | cons c a =>
      obtain ⟨hc, hy'⟩ := List.cons.inj hy
      obtain ⟨a', d', hx, ha, hK, hd⟩ := ih hy'
      exact ⟨b :: a', d', by rw [hx, List.cons_append], hc ▸ .keep trivial ha, hK, hd⟩
  | @replace w x y hw h ih =>
    have hreplaced : ∀ {a'}, Redacts mark L a' [] → Redacts mark L (w ++ a') mark := fun ha => by
      simpa [Redacts] using Marks.replace hw ha
    rcases List.append_eq_append_iff.mp hy with ⟨a₁, rfl, hy'⟩ | ⟨v, hmark, hy'⟩
    · obtain ⟨a', d', hx, ha, hK, hd⟩ := ih hy'
      exact ⟨w ++ a', d', by rw [hx, List.append_assoc], .replace hw ha, hK, hd⟩
    · by_cases hv : v = []
      · rw [hv, List.append_nil] at hmark
        rw [hv, List.nil_append] at hy'
        obtain ⟨a', d', hx, ha, hK, hd⟩ := ih (a := []) hy'.symm
        exact ⟨w ++ a', d', by rw [hx, List.append_assoc], hmark ▸ hreplaced ha, hK, hd⟩
      · have hsuffix : v <:+ mark := ⟨a, hmark.symm⟩
        exact absurd hy' (hu.inMark v hsuffix hv).append_ne

end Marks

/-! ## Languages with a blocker -/

/-- Texts of an opening and a closing with anything between them but the blocker. -/
def span (opening closing : Language α) (blocker : α) : Language α :=
  {u | ∃ o ∈ opening, ∃ m, blocker ∉ m ∧ ∃ c ∈ closing, u = o ++ (m ++ c)}

/-- Every blocker of the text is in a part that is in `P`, and these parts do not overlap. -/
inductive Covered (P : Language α) (blocker : α) : List α → Prop
  | nil : Covered P blocker []
  | keep {a x} (ha : a ≠ blocker) (h : Covered P blocker x) : Covered P blocker (a :: x)
  | part {u x} (hu : u ∈ P) (h : Covered P blocker x) : Covered P blocker (u ++ x)

/-- A redaction of parts in `P` cannot give the text a new part in the language: either the texts of
the language cannot overlap the mark, or it is a span, and wherever all blockers between an opening
and a closing can be redacted there are none. -/
inductive Tame (mark text : List α) (P : Language α) : Language α → Prop
  | apart {L : Language α} (h : ∀ u ∈ L, Apart mark u) : Tame mark text P L
  | span {opening closing : Language α} {blocker : α} (hopening : ∀ o ∈ opening, Apart mark o)
      (hclosing : ∀ c ∈ closing, Apart mark c) (hmark : blocker ∉ mark)
      (hcovered : ∀ o ∈ opening, ∀ c ∈ closing, ∀ m, o ++ (m ++ c) <:+: text →
        Covered P blocker m → blocker ∉ m) :
      Tame mark text P (span opening closing blocker)

section Tame

variable {mark text orig x y z a d u : List α} {P L L' : Language α} {K : List α → Prop}

/-- What is left of a text without the blocker was covered. -/
theorem Marks.covered {b : α} (h : Marks mark P K x y) (hy : b ∉ y) : Covered P b x := by
  induction h with
  | nil => exact .nil
  | keep _ _ ih =>
    rw [List.mem_cons, not_or] at hy
    exact .keep (Ne.symm hy.1) (ih hy.2)
  | replace hu _ ih =>
    rw [List.mem_append, not_or] at hy
    exact .part hu (ih hy.2)

theorem Tame.ne_nil (hL : Tame mark text P L) (hu : u ∈ L) : u ≠ [] := by
  cases hL with
  | apart h => exact (h u hu).ne_nil
  | span hopening _ _ _ =>
    obtain ⟨o, ho, m, -, c, -, rfl⟩ := hu
    exact List.append_ne_nil_of_left_ne_nil (hopening o ho).ne_nil _

/-- The texts of a tame language do not begin in the mark. -/
theorem Tame.inMark (hL : Tame mark text P L) (hu : u ∈ L) {v : List α} (hv : v <:+ mark)
    (hne : v ≠ []) : Incomparable u v := by
  cases hL with
  | apart h => exact (h u hu).inMark v hv hne
  | span hopening _ _ _ =>
    obtain ⟨o, ho, m, -, c, -, rfl⟩ := hu
    have hincomparable := (hopening o ho).inMark v hv hne
    refine ⟨fun h => hincomparable.1 ((List.prefix_append o _).trans h), fun h => ?_⟩
    rcases List.prefix_or_prefix_of_prefix h (List.prefix_append o _) with hp | hp
    · exact hincomparable.2 hp
    · exact hincomparable.1 hp

/-- A tame language has nothing in the mark. -/
theorem Tame.free_mark (hL : Tame mark text P L) : Free L mark := by
  rintro u hu ⟨a, d, rfl⟩
  have hsuffix : u ++ d <:+ a ++ u ++ d := ⟨a, by rw [List.append_assoc]⟩
  have hne : u ++ d ≠ [] := List.append_ne_nil_of_left_ne_nil (hL.ne_nil hu) d
  exact (hL.inMark hu hsuffix hne).1 (List.prefix_append u d)

/-- What a tame language has in a redacted text comes from what it has in the original. -/
theorem Redacts.origin (h : Redacts mark P orig x) (horig : orig <:+: text)
    (hL : Tame mark text P L) (hu : u ∈ L) (hx : x = a ++ (u ++ d)) :
    ∃ A U D, orig = A ++ (U ++ D) ∧ U ∈ L ∧ Redacts mark P A a ∧ Redacts mark P D d := by
  cases hL with
  | apart hapart =>
    obtain ⟨A, D, rfl, hA, -, hD⟩ := h.kept (hapart u hu) hx
    exact ⟨A, u, D, rfl, hu, hA, hD⟩
  | span hopening hclosing _ hcovered =>
    obtain ⟨o, ho, m, hm, c, hc, rfl⟩ := hu
    obtain ⟨A, x', rfl, hA, -, hx'⟩ := h.kept (hopening o ho)
      (hx.trans (by rw [List.append_assoc]))
    obtain ⟨M, D, rfl, hM, -, hD⟩ := Marks.kept hx' (hclosing c hc) (List.append_assoc m c d)
    have hoccurs : o ++ (M ++ c) <:+: text := by
      refine List.IsInfix.trans ⟨A, D, ?_⟩ horig
      simp
    refine ⟨A, o ++ (M ++ c), D, by simp, ?_, hA, hD⟩
    exact ⟨o, ho, M, hcovered o ho c hc M hoccurs (hM.covered hm), c, hc, rfl⟩

/-- The mark is kept where the parts that are replaced are in a tame language. -/
theorem Marks.inMark (h : Marks mark L K x y) (hL : Tame mark text P L) {v : List α}
    (hv : v <:+ mark) (hx : x = v ++ d) : ∃ d', y = v ++ d' ∧ Marks mark L K d d' := by
  induction v generalizing x y with
  | nil => exact ⟨y, rfl, by rwa [hx] at h⟩
  | cons b v ih =>
    cases h with
    | nil => cases hx
    | keep _ h =>
      obtain ⟨rfl, rfl⟩ := List.cons.inj hx
      obtain ⟨d', rfl, hd⟩ := ih h ((List.suffix_cons _ v).trans hv) rfl
      exact ⟨d', rfl, hd⟩
    | replace hu _ => exact absurd hx (hL.inMark hu hv (List.cons_ne_nil b v)).append_ne

theorem Marks.eq_nil (h : Marks mark L K x y) (hx : x = []) (hL : Tame mark text P L) :
    y = [] := by
  cases h with
  | nil => rfl
  | keep => cases hx
  | replace hu _ => exact absurd (List.append_eq_nil_iff.mp hx).1 (hL.ne_nil hu)

theorem Marks.eq_nil_of_eq_nil (h : Marks mark L K x y) (hy : y = []) (hmark : mark ≠ []) :
    x = [] := by
  cases h with
  | nil => rfl
  | keep => cases hy
  | replace => exact absurd (List.append_eq_nil_iff.mp hy).1 hmark

/-- Two redactions in a row are one. -/
theorem Redacts.trans (h : Redacts mark P orig x) (hxy : Marks mark L K x y)
    (horig : orig <:+: text) (hL : Tame mark text P L) (hP : L ≤ P) (hmark : mark ≠ []) :
    Redacts mark P orig y := by
  induction hn : x.length using Nat.strong_induction_on generalizing orig x y with
  | _ n ih =>
  subst hn
  have hwhole := h
  cases h with
  | nil =>
    rw [hxy.eq_nil rfl hL]
    exact .nil
  | @keep b orig' x' _ h =>
    generalize hx : b :: x' = x at hxy hwhole ih
    cases hxy with
    | nil => cases hx
    | keep _ hxy =>
      obtain ⟨rfl, rfl⟩ := List.cons.inj hx
      have hshort : x'.length < (b :: x').length := Nat.lt_succ_self _
      have hoccurs : orig' <:+: text := (List.suffix_cons b orig').isInfix.trans horig
      exact .keep trivial (ih _ hshort h hxy hoccurs rfl)
    | @replace u x₂ y₂ hu hxy =>
      -- the part came from a part of the original
      obtain ⟨A, U, D, hAUD, hU, hA, hD⟩ := hwhole.origin horig hL hu (List.nil_append _).symm
      obtain rfl := hA.eq_nil_of_eq_nil rfl hmark
      rw [List.nil_append] at hAUD
      rw [hAUD] at horig ⊢
      have hshort : x₂.length < (u ++ x₂).length := by
        rw [List.length_append]
        exact Nat.lt_add_of_pos_left (List.length_pos_of_ne_nil (hL.ne_nil hu))
      have hoccurs : D <:+: text := (List.suffix_append U D).isInfix.trans horig
      exact .replace (hP hU) (ih _ hshort hD hxy hoccurs rfl)
  | @replace v orig' x' hv h =>
    obtain ⟨y', rfl, hxy'⟩ := hxy.inMark hL (List.suffix_refl mark) rfl
    have hshort : x'.length < (mark ++ x').length := by
      rw [List.length_append]
      exact Nat.lt_add_of_pos_left (List.length_pos_of_ne_nil hmark)
    have hoccurs : orig' <:+: text := (List.suffix_append v orig').isInfix.trans horig
    exact .replace hv (ih _ hshort h hxy' hoccurs rfl)

/-- What a language has after a further redaction it had before, and where that begins the first
symbol was kept. -/
theorem Marks.before (h : Redacts mark P orig x) (hxy : Marks mark L K x y)
    (horig : orig <:+: text) (hL : Tame mark text P L) (hP : L ≤ P) (hmark : mark ≠ [])
    (hL' : Tame mark text P L') (hu : u ∈ L') (hy : y = a ++ (u ++ d)) :
    ∃ a' u' d', x = a' ++ (u' ++ d') ∧ u' ∈ L' ∧ K (u' ++ d') := by
  cases hL' with
  | apart hapart =>
    obtain ⟨a', d', rfl, -, hK, -⟩ := hxy.kept (hapart u hu) hy
    exact ⟨a', u, d', rfl, hu, hK⟩
  | @span opening closing blocker hopening hclosing hblocker hcovered =>
    obtain ⟨o, ho, m, hm, c, hc, rfl⟩ := hu
    obtain ⟨a', x', rfl, -, hK, hx'⟩ := hxy.kept (hopening o ho)
      (hy.trans (by rw [List.append_assoc]))
    obtain ⟨m', d', rfl, hm', -, -⟩ := hx'.kept (hclosing c hc) (List.append_assoc m c d)
    -- the same stretch in the original
    obtain ⟨A, orig', rfl, -, -, horig'⟩ := Marks.kept h (hopening o ho) rfl
    obtain ⟨M, D, rfl, hM, -, -⟩ := Marks.kept horig' (hclosing c hc) rfl
    have hoccurs : o ++ (M ++ c) <:+: text := List.IsInfix.trans ⟨A, D, by simp⟩ horig
    have hoccurs' : M <:+: text := List.IsInfix.trans ⟨o, c, by simp⟩ hoccurs
    have hclear : blocker ∉ M :=
      hcovered o ho c hc M hoccurs ((hM.trans hm' hoccurs' hL hP hmark).covered hm)
    have hclear' : blocker ∉ m' := Marks.not_mem hM hclear hblocker
    refine ⟨a', o ++ (m' ++ c), d', by simp, ⟨o, ho, m', hclear', c, hc, rfl⟩, ?_⟩
    simpa using hK

end Tame

end Redaction
