import Mathlib.Data.List.AList

/-!
# Memo tables

A table keeps the results of a computation that may fail, under a key of the argument.  Nothing says
that the key determines the argument, so a table may answer with the result of another argument.
`Sound` records where the results come from; `Sound.fetch_eq` is the condition under which the
table's answer is the right one.
-/

namespace Memo

variable {A B K ε : Type} [DecidableEq K]

/-- Results by key. -/
abbrev Table (K B : Type) : Type := AList fun _ : K => B

/-- The result under a key; it is computed and kept if there is none.  Failures are not kept. -/
def fetch (compute : A → Except ε B) (table : Table K B) (k : K) (a : A) :
    Except ε B × Table K B :=
  match table.lookup k with
  | some b => (.ok b, table)
  | none =>
      match compute a with
      | .ok b => (.ok b, table.insert k b)
      | .error e => (.error e, table)

variable {key : A → Option K} {compute : A → Except ε B} {used : List A} {table : Table K B}
  {k : K} {a : A}

theorem fetch_of_lookup {b : B} (h : table.lookup k = some b) :
    fetch compute table k a = (.ok b, table) := by
  simp [fetch, h]

theorem fetch_of_computed {b : B} (h : table.lookup k = none) (hc : compute a = .ok b) :
    fetch compute table k a = (.ok b, table.insert k b) := by
  simp [fetch, h, hc]

/-- A failure is one of the computation. -/
theorem error_of_fetch {e : ε} (h : (fetch compute table k a).1 = .error e) :
    compute a = .error e := by
  unfold fetch at h
  cases hl : table.lookup k with
  | some b => simp [hl] at h
  | none => cases hc : compute a <;> simp_all

/-- Every result in the table is that of a used argument, under the key of that argument. -/
def Sound (key : A → Option K) (compute : A → Except ε B) (used : List A) (table : Table K B) :
    Prop :=
  ∀ k b, table.lookup k = some b → ∃ a ∈ used, key a = some k ∧ compute a = .ok b

theorem Sound.empty : Sound key compute [] (∅ : Table K B) := by
  intro k b h
  simp at h

theorem Sound.mono {used' : List A} (h : Sound key compute used table) (hsub : used ⊆ used') :
    Sound key compute used' table := by
  intro k b hb
  obtain ⟨a, ha, hk, hc⟩ := h k b hb
  exact ⟨a, hsub ha, hk, hc⟩

theorem Sound.fetch (h : Sound key compute used table) (hk : key a = some k) :
    Sound key compute (a :: used) (fetch compute table k a).2 := by
  have hold : Sound key compute (a :: used) table := h.mono (List.subset_cons_self a used)
  unfold Memo.fetch
  cases hl : table.lookup k with
  | some b => exact hold
  | none =>
    cases hc : compute a with
    | error e => exact hold
    | ok b =>
      intro k' b' hb'
      by_cases hkk : k' = k
      · subst hkk
        obtain rfl : b = b' := by simpa using hb'
        exact ⟨a, by simp, hk, hc⟩
      · rw [AList.lookup_insert_ne hkk] at hb'
        exact hold k' b' hb'

/-- The table answers as the computation does if no other used argument has the same key. -/
theorem Sound.fetch_eq (h : Sound key compute used table)
    (halias : ∀ a' ∈ used, key a' = some k → a' = a) :
    (Memo.fetch compute table k a).1 = compute a := by
  unfold Memo.fetch
  cases hl : table.lookup k with
  | none => cases hc : compute a <;> rfl
  | some b =>
    obtain ⟨a', ha', hk', hc'⟩ := h k b hl
    rw [← halias a' ha' hk', hc']

end Memo
