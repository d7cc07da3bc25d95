import McpShield.Lib.Regex

/-!
# Searching a text

The leftmost match of an expression, and all matches that do not overlap, from left to right.
-/

namespace Regex

variable {w : Char → Bool} {e : Expr}

/-- The leftmost match: where it begins and where it ends. -/
def firstMatch (w : Char → Bool) (e : Expr) : Bool → List Char → Option (Input × Input)
  | b, [] => (run w e some ⟨b, []⟩).map (⟨b, []⟩, ·)
  | b, c :: cs =>
      match run w e some ⟨b, c :: cs⟩ with
      | some j => some (⟨b, c :: cs⟩, j)
      | none => firstMatch w e false cs

/-- The matches that do not overlap, from left to right, at most `n`.  An empty match is passed over
where the last match ended. -/
def matchesFrom (w : Char → Bool) (e : Expr) : ℕ → Option ℕ → Input → List (Input × Input)
  | 0, _, _ => []
  | n + 1, last, i =>
      match firstMatch w e i.atStart i.rest with
      | none => []
      | some (s, j) =>
          if s = j ∧ last = some j.rest.length then
            match j.rest with
            | [] => []
            | _ :: cs => matchesFrom w e n last ⟨false, cs⟩
          else (s, j) :: matchesFrom w e n (some j.rest.length) j

/-- All matches in a text. -/
def allMatches (w : Char → Bool) (e : Expr) (text : List Char) : List (Input × Input) :=
  matchesFrom w e (2 * text.length + 2) none ⟨true, text⟩

/-- The text with the matches replaced by `rep`. -/
def substitute (rep : List Char) : List Char → List (Input × Input) → List Char
  | text, [] => text
  | text, (i, j) :: ms =>
      text.take (text.length - i.rest.length) ++ rep ++ substitute rep j.rest ms

/-- The inputs from which a match may begin, after some of the text has been read. -/
def startsFrom (b : Bool) (text : List Char) : List Input :=
  ⟨b, text⟩ :: text.tails.tail.map (⟨false, ·⟩)

theorem mem_startsFrom_cons {b : Bool} {c : Char} {cs : List Char} {i : Input} :
    i ∈ startsFrom b (c :: cs) ↔ i = ⟨b, c :: cs⟩ ∨ i ∈ startsFrom false cs := by
  cases cs <;> simp [startsFrom]

theorem run_some_isSome {i : Input} : (run w e some i).isSome ↔ ∃ j, Matches w e i j := by
  simp [run_isSome]

theorem firstMatch_isSome {b : Bool} {text : List Char} :
    (firstMatch w e b text).isSome ↔ ∃ i ∈ startsFrom b text, ∃ j, Matches w e i j := by
  induction text generalizing b with
  | nil => simp [firstMatch, startsFrom, run_some_isSome]
  | cons c cs ih =>
    simp only [mem_startsFrom_cons, or_and_right, exists_or, exists_eq_left, ← run_some_isSome]
      at ih ⊢
    rw [firstMatch]
    cases run w e some ⟨b, c :: cs⟩ with
    | some j => simp
    | none => simpa using ih

/-- The search finds a match exactly when the text contains one. -/
theorem firstMatch_isSome_iff_found {text : List Char} :
    (firstMatch w e true text).isSome ↔ Found w e text := firstMatch_isSome

theorem allMatches_eq_nil {text : List Char} :
    allMatches w e text = [] ↔ ¬ Found w e text := by
  rw [← firstMatch_isSome_iff_found, allMatches, matchesFrom]
  cases firstMatch w e true text <;> simp

end Regex
