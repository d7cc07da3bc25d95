import McpShield.Lib.Redaction

/-!
# Replacing matches

A pattern matches parts of a text, each between what stands before and after it, and a search replaces
them from left to right.  A replacement may bring about a match of another pattern, or of the same
one.  `Sweeps.absent` says when nothing is matched after a search for each pattern: when the text is
`Harmless`.
-/

namespace Redaction

variable {α : Type*}

/-- What a pattern matches, and with what that is replaced: `S before u after m` if `u` is matched
between `before` and `after`, and replaced by `m`. -/
abbrev Matcher (α : Type*) : Type _ := List α → List α → List α → List α → Prop

namespace Matcher

/-- A match begins where `before` ends. -/
def Begins (S : Matcher α) (before rest : List α) : Prop :=
  ∃ u after m, rest = u ++ after ∧ S before u after m

/-- Nothing is matched. -/
def Absent (S : Matcher α) (x : List α) : Prop :=
  ∀ before rest, x = before ++ rest → ¬ S.Begins before rest

/-- An empty part is never matched. -/
def Proper (S : Matcher α) : Prop := ∀ before after m, ¬ S before [] after m

/-- The texts of a language are matched wherever they are, and replaced by the mark. -/
def ofLanguage (mark : List α) (L : Language α) : Matcher α := fun _ u _ m => u ∈ L ∧ m = mark

end Matcher

/-- Matches in a text are replaced.  This goes on after `before`, and a symbol is kept where `K` holds
of what is before it and of what is left with it. -/
inductive Replaces (S : Matcher α) (K : List α → List α → Prop) :
    List α → List α → List α → Prop
  | nil {before} : Replaces S K before [] []
  | keep {before a x y} (ha : K before (a :: x)) (h : Replaces S K (before ++ [a]) x y) :
      Replaces S K before (a :: x) (a :: y)
  | replace {before u x m y} (hu : S before u x m) (h : Replaces S K (before ++ u) x y) :
      Replaces S K before (u ++ x) (m ++ y)

/-- All matches are replaced from left to right, one wherever one begins. -/
def Search (S : Matcher α) : List α → List α → Prop :=
  Replaces S (fun before rest => ¬ S.Begins before rest) []

/-- Some matches of the patterns are replaced, those of one pattern at a time. -/
def Rewritten (Ss : List (Matcher α)) : List α → List α → Prop :=
  Relation.ReflTransGen fun x y => ∃ S ∈ Ss, Replaces S (fun _ _ => True) [] x y

/-- Replacements bring no match about.  Whichever matches of the patterns have been replaced, and are
replaced next, a pattern is not matched afterwards if no match of it began at a symbol that is kept. -/
def Harmless (Ss : List (Matcher α)) (text : List α) : Prop :=
  ∀ x, Rewritten Ss text x → ∀ S ∈ Ss, ∀ S' ∈ Ss, ∀ y,
    Replaces S' (fun before rest => ¬ S.Begins before rest) [] x y → S.Absent y

/-- Pattern by pattern, those that match something in the text are searched for, each at least once. -/
inductive Sweeps (text : List α) : List (Matcher α) → List α → List α → Prop
  | nil {x} : Sweeps text [] x x
  | skip {S Ss x y} (habsent : S.Absent text) (h : Sweeps text Ss x y) : Sweeps text (S :: Ss) x y
  | searches {S Ss x y z} (hsearches : Relation.TransGen (Search S) x y) (h : Sweeps text Ss y z) :
      Sweeps text (S :: Ss) x z

/-! ## Nothing is matched afterwards -/

section Sweeps

variable {S S' : Matcher α} {Ss Ss' : List (Matcher α)} {K K' : List α → List α → Prop}
  {text before x y z : List α}

theorem Replaces.mono (h : Replaces S K before x y)
    (hK : ∀ done rest, x = done ++ rest → K (before ++ done) rest → K' (before ++ done) rest) :
    Replaces S K' before x y := by
  induction h with
  | nil => exact .nil
  | @keep before a x y ha _ ih =>
    refine .keep ?_ (ih fun done rest hx hkept => ?_)
    · simpa using hK [] (a :: x) rfl (by simpa using ha)
    · have hlater := hK (a :: done) rest (by rw [hx, List.cons_append])
      rw [List.append_cons] at hlater
      exact hlater hkept
  | @replace before u x m y hu _ ih =>
    refine .replace hu (ih fun done rest hx hkept => ?_)
    have hlater := hK (u ++ done) rest (by rw [hx, List.append_assoc])
    rw [← List.append_assoc] at hlater
    exact hlater hkept

/-- A search leaves the text one in which some matches are replaced. -/
theorem Rewritten.search (h : Rewritten Ss text x) (hS : S ∈ Ss) (hxy : Search S x y) :
    Rewritten Ss text y :=
  h.tail ⟨S, hS, hxy.mono fun _ _ _ _ => trivial⟩

/-- What matches nothing matches nothing after a replacement. -/
theorem Harmless.keeps (hharmless : Harmless Ss text) (h : Rewritten Ss text x) (hS : S ∈ Ss)
    (hS' : S' ∈ Ss) (habsent : S.Absent x) (hxy : Replaces S' K [] x y) : S.Absent y := by
  refine hharmless x h S hS S' hS' y (hxy.mono fun done rest hx _ => ?_)
  rw [List.nil_append]
  exact habsent done rest hx

/-- What matches nothing in the original matches nothing however that is rewritten. -/
theorem Harmless.rewritten (hharmless : Harmless Ss text) (hS : S ∈ Ss) (habsent : S.Absent text)
    (h : Rewritten Ss text x) : S.Absent x := by
  induction h with
  | refl => exact habsent
  | tail hx hstep ih =>
    obtain ⟨S', hS', hxy⟩ := hstep
    exact hharmless.keeps hx hS hS' ih hxy

/-- After some searches for a pattern it matches nothing, and neither do those that matched nothing
before. -/
theorem Harmless.searches (hharmless : Harmless Ss text) (h : Rewritten Ss text x) (hS : S ∈ Ss)
    (hsearches : Relation.TransGen (Search S) x y) :
    Rewritten Ss text y ∧ S.Absent y ∧ ∀ S' ∈ Ss, S'.Absent x → S'.Absent y := by
  induction hsearches with
  | single hxy =>
    exact ⟨h.search hS hxy, hharmless _ h S hS S hS _ hxy,
      fun S' hS' habsent => hharmless.keeps h hS' hS habsent hxy⟩
  | tail _ hyz ih =>
    obtain ⟨hy, -, hkeeps⟩ := ih
    exact ⟨hy.search hS hyz, hharmless _ hy S hS S hS _ hyz,
      fun S' hS' habsent => hharmless.keeps hy hS' hS (hkeeps S' hS' habsent) hyz⟩

theorem Sweeps.spec (hsweeps : Sweeps text Ss' x z) (hSs : Ss' ⊆ Ss) (hharmless : Harmless Ss text)
    (h : Rewritten Ss text x) :
    (∀ S ∈ Ss', S.Absent z) ∧ ∀ S ∈ Ss, S.Absent x → S.Absent z := by
  induction hsweeps with
  | nil => exact ⟨nofun, fun _ _ habsent => habsent⟩
  | skip habsent _ ih =>
    obtain ⟨hS, hSs⟩ := List.cons_subset.mp hSs
    obtain ⟨hall, hkeeps⟩ := ih hSs h
    exact ⟨List.forall_mem_cons.mpr ⟨hkeeps _ hS (hharmless.rewritten hS habsent h), hall⟩, hkeeps⟩
  | searches hsearches _ ih =>
    obtain ⟨hS, hSs⟩ := List.cons_subset.mp hSs
    obtain ⟨hy, habsent, hbefore⟩ := hharmless.searches h hS hsearches
    obtain ⟨hall, hkeeps⟩ := ih hSs hy
    exact ⟨List.forall_mem_cons.mpr ⟨hkeeps _ hS habsent, hall⟩,
      fun S hS hx => hkeeps S hS (hbefore S hS hx)⟩

/-- In a harmless text no pattern matches anything after the sweep. -/
theorem Sweeps.absent (hsweeps : Sweeps text Ss text z) (hharmless : Harmless Ss text) :
    ∀ S ∈ Ss, S.Absent z :=
  (hsweeps.spec (List.Subset.refl Ss) hharmless .refl).1

end Sweeps

/-! ## Languages -/

section Languages

variable {mark text x y before rest : List α} {P L : Language α} {Ls : List (Language α)}
  {K : List α → Prop}

theorem begins_ofLanguage :
    (Matcher.ofLanguage mark L).Begins before rest ↔ ∃ u ∈ L, u <+: rest := by
  constructor
  · rintro ⟨u, after, -, rfl, hu, -⟩
    exact ⟨u, hu, List.prefix_append u after⟩
  · rintro ⟨u, hu, after, rfl⟩
    exact ⟨u, after, mark, rfl, hu, rfl⟩

theorem absent_ofLanguage : (Matcher.ofLanguage mark L).Absent x ↔ Free L x := by
  simp only [Matcher.Absent, begins_ofLanguage]
  constructor
  · rintro h u hu ⟨before, after, rfl⟩
    exact h before (u ++ after) (List.append_assoc _ _ _) ⟨u, hu, List.prefix_append u after⟩
  · rintro h before rest rfl ⟨u, hu, after, rfl⟩
    exact h u hu ⟨before, after, List.append_assoc _ _ _⟩

theorem proper_ofLanguage (h : [] ∉ L) : (Matcher.ofLanguage mark L).Proper :=
  fun _ _ _ hnil => h hnil.1

theorem replaces_ofLanguage :
    Replaces (Matcher.ofLanguage mark L) (fun _ rest => K rest) before x y ↔ Marks mark L K x y := by
  constructor
  · intro h
    induction h with
    | nil => exact .nil
    | keep ha _ ih => exact .keep ha ih
    | replace hu _ ih =>
      obtain ⟨hu, rfl⟩ := hu
      exact .replace hu ih
  · intro h
    induction h generalizing before with
    | nil => exact .nil
    | keep ha _ ih => exact .keep ha ih
    | replace hu _ ih => exact .replace ⟨hu, rfl⟩ ih

theorem search_ofLanguage : Search (Matcher.ofLanguage mark L) x y ↔ Scan mark L x y := by
  have hnone : (fun before rest => ¬ (Matcher.ofLanguage mark L).Begins before rest) =
      fun _ rest => ∀ u ∈ L, ¬ u <+: rest := by
    funext before rest
    simp [begins_ofLanguage]
  rw [Search, hnone]
  exact replaces_ofLanguage

/-- However a text is rewritten, parts of the original are replaced. -/
theorem Rewritten.redacts (h : Rewritten (Ls.map (Matcher.ofLanguage mark)) text x)
    (hLs : ∀ L ∈ Ls, Tame mark text P L ∧ L ≤ P) (hmark : mark ≠ []) : Redacts mark P text x := by
  induction h with
  | refl => exact marks_self fun _ _ _ => trivial
  | tail _ hstep ih =>
    obtain ⟨S, hS, hxy⟩ := hstep
    obtain ⟨L, hL, rfl⟩ := List.mem_map.mp hS
    exact ih.trans (replaces_ofLanguage.mp hxy) (List.infix_refl text) (hLs L hL).1 (hLs L hL).2
      hmark

/-- Where all languages are tame the text is harmless. -/
theorem harmless_of_tame (hLs : ∀ L ∈ Ls, Tame mark text P L ∧ L ≤ P) (hmark : mark ≠ []) :
    Harmless (Ls.map (Matcher.ofLanguage mark)) text := by
  intro x hx S hS S' hS' y hxy
  obtain ⟨L, hL, rfl⟩ := List.mem_map.mp hS
  obtain ⟨L', hL', rfl⟩ := List.mem_map.mp hS'
  have hmarks : Marks mark L' (fun rest => ¬ ∃ u ∈ L, u <+: rest) x y := by
    simpa only [begins_ofLanguage, replaces_ofLanguage] using hxy
  refine absent_ofLanguage.mpr ?_
  rintro u hu ⟨a, d, rfl⟩
  obtain ⟨a', u', d', rfl, hu', hnone⟩ := Marks.before (hx.redacts hLs hmark) hmarks
    (List.infix_refl text) (hLs L' hL').1 (hLs L' hL').2 hmark (hLs L hL).1 hu
    (List.append_assoc a u d)
  exact hnone ⟨u', hu', List.prefix_append u' d'⟩

end Languages

end Redaction
