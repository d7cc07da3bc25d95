import Mathlib.Data.List.MinMax
import Mathlib.Data.List.Sort

/-!
# Rankings

A stable sort by rank, the greatest rank first.  Its first element is the first one of the greatest
rank, and so it is after any filtering: sorting a list over and over while elements come and go does
not change what is selected.
-/

namespace Ranking

variable {α κ : Type*} [LinearOrder κ] {rank : α → κ} {a b : α} {l l' : List α} {p : α → Bool}

/-- The list by rank, the greatest first; elements of one rank keep their order. -/
def ranked (rank : α → κ) (l : List α) : List α :=
  l.insertionSort fun a b => rank b ≤ rank a

/-- The list has `a`, everything before `a` ranks lower, and nothing after `a` ranks higher. -/
def FirstBest (rank : α → κ) (l : List α) (a : α) : Prop :=
  ∃ before after, l = before ++ a :: after ∧ (∀ b ∈ before, rank b < rank a) ∧
    ∀ b ∈ after, rank b ≤ rank a

/-! ## The first of the greatest rank -/

theorem FirstBest.cons_of_lt (h : FirstBest rank l a) (hb : rank b < rank a) :
    FirstBest rank (b :: l) a := by
  obtain ⟨before, after, rfl, hbefore, hafter⟩ := h
  exact ⟨b :: before, after, rfl, List.forall_mem_cons.mpr ⟨hb, hbefore⟩, hafter⟩

theorem FirstBest.cons_self (h : FirstBest rank l a) (hb : rank a ≤ rank b) :
    FirstBest rank (b :: l) b := by
  obtain ⟨before, after, rfl, hbefore, hafter⟩ := h
  refine ⟨[], before ++ a :: after, rfl, nofun, fun c hc => ?_⟩
  rcases List.mem_append.mp hc with hc | hc
  · exact (hbefore c hc).le.trans hb
  · rcases List.mem_cons.mp hc with rfl | hc
    · exact hb
    · exact (hafter c hc).trans hb

theorem firstBest_of_argmax (h : l.argmax rank = some a) : FirstBest rank l a := by
  induction l generalizing a with
  | nil => cases h
  | cons b l ih =>
    rw [List.argmax_cons] at h
    cases hl : l.argmax rank with
    | none =>
      rw [hl] at h
      obtain rfl := Option.some.inj h
      obtain rfl := List.argmax_eq_none.mp hl
      exact ⟨[], [], rfl, nofun, nofun⟩
    | some c =>
      simp only [hl] at h
      split_ifs at h with hlt
      · obtain rfl := Option.some.inj h
        exact (ih hl).cons_of_lt hlt
      · obtain rfl := Option.some.inj h
        exact (ih hl).cons_self (not_lt.mp hlt)

/-! ## Sorting -/

theorem pairwise_ranked (rank : α → κ) (l : List α) :
    (ranked rank l).Pairwise fun a b => rank b ≤ rank a := by
  have htotal : Std.Total fun a b : α => rank b ≤ rank a :=
    ⟨fun a b => le_total (rank b) (rank a)⟩
  have htrans : IsTrans α fun a b => rank b ≤ rank a := ⟨fun _ _ _ hab hbc => hbc.trans hab⟩
  exact List.pairwise_insertionSort _ l

theorem ranked_ranked : ranked rank (ranked rank l) = ranked rank l :=
  (pairwise_ranked rank l).insertionSort_eq

theorem head?_ranked (rank : α → κ) (l : List α) : (ranked rank l).head? = l.argmax rank := by
  induction l with
  | nil => rfl
  | cons a l ih =>
    rw [List.argmax_cons, ← ih, ranked, List.insertionSort_cons, ← ranked]
    cases hl : ranked rank l with
    | nil => rfl
    | cons b rest =>
      rw [List.head?_cons, List.orderedInsert_cons]
      by_cases hle : rank b ≤ rank a
      · simp [hle, not_lt.mpr hle]
      · simp [hle, not_le.mp hle]

theorem argmax_ranked : (ranked rank l).argmax rank = l.argmax rank := by
  rw [← head?_ranked, ranked_ranked, head?_ranked]

theorem filter_orderedInsert (hl : l.Pairwise fun a b => rank b ≤ rank a) (a : α) :
    (l.orderedInsert (fun a b => rank b ≤ rank a) a).filter p =
      if p a then (l.filter p).orderedInsert (fun a b => rank b ≤ rank a) a else l.filter p := by
  induction l with
  | nil => by_cases hp : p a <;> simp [hp]
  | cons b l ih =>
    obtain ⟨hb, hl⟩ := List.pairwise_cons.mp hl
    rw [List.orderedInsert_cons]
    by_cases hle : rank b ≤ rank a
    · -- what follows ranks no higher than `b`, so `a` comes first in the filtered list as well
      have hfirst : ∀ c ∈ (b :: l).filter p, rank c ≤ rank a := by
        intro c hc
        rcases List.mem_cons.mp (List.mem_of_mem_filter hc) with rfl | hc
        · exact hle
        · exact (hb c hc).trans hle
      rw [if_pos hle, List.filter_cons]
      split_ifs with hp
      · cases hrest : (b :: l).filter p with
        | nil => rfl
        | cons c rest =>
          have hc : rank c ≤ rank a := hfirst c (by simp [hrest])
          rw [List.orderedInsert_cons, if_pos hc]
      · rfl
    · rw [if_neg hle, List.filter_cons, List.filter_cons, ih hl]
      by_cases hp : p a <;> by_cases hq : p b <;> simp [hp, hq, hle, List.orderedInsert_cons]

theorem filter_ranked (p : α → Bool) (l : List α) :
    (ranked rank l).filter p = ranked rank (l.filter p) := by
  induction l with
  | nil => rfl
  | cons a l ih =>
    rw [ranked, List.insertionSort_cons, ← ranked, filter_orderedInsert (pairwise_ranked rank l), ih,
      List.filter_cons]
    split_ifs <;> rfl

/-! ## Lists that select alike -/

/-- The two lists have the same first element of the greatest rank, and so they have after any
filtering. -/
def SameBest (rank : α → κ) (l l' : List α) : Prop :=
  ∀ p : α → Bool, (l.filter p).argmax rank = (l'.filter p).argmax rank

theorem SameBest.refl (l : List α) : SameBest rank l l := fun _ => rfl

theorem SameBest.ranked (h : SameBest rank l l') : SameBest rank (ranked rank l) l' := fun p => by
  rw [filter_ranked, argmax_ranked, h p]

theorem SameBest.concat (h : SameBest rank l l') (a : α) :
    SameBest rank (l ++ [a]) (l' ++ [a]) := fun p => by
  rw [List.filter_append, List.filter_append, List.filter_singleton]
  cases p a with
  | false => simpa using h p
  | true => rw [cond_true, List.argmax_concat, List.argmax_concat, h p]

theorem SameBest.filter (h : SameBest rank l l') (q : α → Bool) :
    SameBest rank (l.filter q) (l'.filter q) := fun p => by
  rw [List.filter_filter, List.filter_filter, h]

theorem SameBest.mem_iff (h : SameBest rank l l') : a ∈ l ↔ a ∈ l' := by
  classical
  have hsome : ∀ l : List α, a ∈ l ↔ (l.filter fun b => b = a).argmax rank ≠ none := by
    intro l
    rw [ne_eq, List.argmax_eq_none, List.filter_eq_nil_iff]
    simp
  rw [hsome l, hsome l', h]

end Ranking
