import Mathlib.Data.List.Infix
import McpShield.Lib.Str

/-!
# Regular expressions

Expressions with character sets, anchors, concatenation, alternation and repetition.  `Matches` is
their meaning; `run` is a backtracking matcher, which finds a match exactly when there is one and
prefers the leftmost alternative and, in a greedy repetition, more rounds.  Which characters are
word characters is a parameter.
-/

namespace Regex

/-- A set of characters: some ranges, and possibly the word characters and the white space, or
everything but these. -/
structure CharSet where
  ranges : List (Char × Char)
  word : Bool
  space : Bool
  negated : Bool
deriving DecidableEq, Repr

/-- Membership, where `w` says which characters are word characters. -/
def CharSet.mem (w : Char → Bool) (s : CharSet) (c : Char) : Bool :=
  (s.ranges.any (fun r => r.1.toNat ≤ c.toNat && c.toNat ≤ r.2.toNat) ||
    (s.word && w c) || (s.space && Str.isWhitespace c)) != s.negated

/-- The set of one character. -/
def CharSet.single (c : Char) : CharSet :=
  { ranges := [(c, c)], word := false, space := false, negated := false }

/-- Every character but the line feed. -/
def CharSet.dot : CharSet :=
  { ranges := [('\n', '\n')], word := false, space := false, negated := true }

inductive Expr where
  | empty
  | set (s : CharSet)
  | startText
  | endText
  | cat (a b : Expr)
  | alt (a b : Expr)
  | star (greedy : Bool) (a : Expr)
deriving DecidableEq, Repr

/-- What is left of a text, and whether nothing of it has been read. -/
structure Input where
  atStart : Bool
  rest : List Char
deriving DecidableEq, Repr

/-- The input after `u` is read. -/
def Input.advance (i : Input) (u rest : List Char) : Input :=
  { atStart := i.atStart && u.isEmpty, rest }

/-! ## Meaning -/

/-- `e` matches what is between `i` and `j`. -/
inductive Matches (w : Char → Bool) : Expr → Input → Input → Prop
  | empty (i) : Matches w .empty i i
  | set {s b c cs} (h : s.mem w c = true) : Matches w (.set s) ⟨b, c :: cs⟩ ⟨false, cs⟩
  | startText (cs) : Matches w .startText ⟨true, cs⟩ ⟨true, cs⟩
  | endText (b) : Matches w .endText ⟨b, []⟩ ⟨b, []⟩
  | cat {a b i j k} (ha : Matches w a i j) (hb : Matches w b j k) : Matches w (.cat a b) i k
  | altLeft {a b i j} (h : Matches w a i j) : Matches w (.alt a b) i j
  | altRight {a b i j} (h : Matches w b i j) : Matches w (.alt a b) i j
  | starNil {g a} (i) : Matches w (.star g a) i i
  | starMore {g a i j k} (h : Matches w a i j) (hs : Matches w (.star g a) j k) :
      Matches w (.star g a) i k

/-- The inputs at which a match of a text may begin. -/
def starts (text : List Char) : List Input :=
  ⟨true, text⟩ :: text.tails.tail.map (⟨false, ·⟩)

/-- The text contains a match. -/
def Found (w : Char → Bool) (e : Expr) (text : List Char) : Prop :=
  ∃ i ∈ starts text, ∃ j, Matches w e i j

section Meaning

variable {w : Char → Bool} {e a b : Expr} {s : CharSet} {i j : Input} {g : Bool}

/-- A match reads a part of the input. -/
theorem Matches.exists_eq_advance (h : Matches w e i j) :
    ∃ u, i.rest = u ++ j.rest ∧ j = i.advance u j.rest := by
  induction h with
  | empty i => exact ⟨[], rfl, by simp [Input.advance]⟩
  | set hc => exact ⟨[_], rfl, by simp [Input.advance]⟩
  | startText cs => exact ⟨[], rfl, rfl⟩
  | endText b => exact ⟨[], rfl, by simp [Input.advance]⟩
  | cat _ _ iha ihb =>
    obtain ⟨u, hu, hj⟩ := iha
    obtain ⟨v, hv, hk⟩ := ihb
    refine ⟨u ++ v, by simp [hu, hv], ?_⟩
    rw [hk, hj]
    cases u <;> simp [Input.advance]
  | altLeft _ ih => exact ih
  | altRight _ ih => exact ih
  | starNil i => exact ⟨[], rfl, by simp [Input.advance]⟩
  | starMore _ _ iha ihb =>
    obtain ⟨u, hu, hj⟩ := iha
    obtain ⟨v, hv, hk⟩ := ihb
    refine ⟨u ++ v, by simp [hu, hv], ?_⟩
    rw [hk, hj]
    cases u <;> simp [Input.advance]

/-- A match that reads nothing leaves the input as it is. -/
theorem Matches.eq_of_length (h : Matches w e i j) (hl : i.rest.length ≤ j.rest.length) :
    j = i := by
  obtain ⟨u, hu, hj⟩ := h.exists_eq_advance
  have hlen := congrArg List.length hu
  rw [List.length_append] at hlen
  obtain rfl : u = [] := List.eq_nil_of_length_eq_zero (by omega)
  rw [List.nil_append] at hu
  rw [hj, ← hu]
  simp [Input.advance]

@[simp] theorem matches_empty : Matches w .empty i j ↔ j = i :=
  ⟨fun h => by cases h; rfl, fun h => by rw [h]; exact .empty i⟩

@[simp] theorem matches_set :
    Matches w (.set s) i j ↔ ∃ c, i.rest = c :: j.rest ∧ s.mem w c = true ∧ j.atStart = false := by
  constructor
  · rintro (⟨⟩ | ⟨hc⟩)
    exact ⟨_, rfl, hc, rfl⟩
  · obtain ⟨bi, ri⟩ := i
    obtain ⟨bj, rj⟩ := j
    rintro ⟨c, rfl, hc, rfl⟩
    exact .set hc

@[simp] theorem matches_startText : Matches w .startText i j ↔ i.atStart = true ∧ j = i := by
  constructor
  · rintro ⟨⟩
    exact ⟨rfl, rfl⟩
  · obtain ⟨bi, ri⟩ := i
    rintro ⟨rfl, rfl⟩
    exact .startText ri

@[simp] theorem matches_endText : Matches w .endText i j ↔ i.rest = [] ∧ j = i := by
  constructor
  · rintro ⟨⟩
    exact ⟨rfl, rfl⟩
  · obtain ⟨bi, ri⟩ := i
    rintro ⟨rfl, rfl⟩
    exact .endText bi

@[simp] theorem matches_cat :
    Matches w (.cat a b) i j ↔ ∃ m, Matches w a i m ∧ Matches w b m j :=
  ⟨fun h => by cases h with | cat ha hb => exact ⟨_, ha, hb⟩, fun ⟨_, ha, hb⟩ => .cat ha hb⟩

@[simp] theorem matches_alt :
    Matches w (.alt a b) i j ↔ Matches w a i j ∨ Matches w b i j := by
  constructor
  · rintro (⟨⟩ | ⟨⟩ | ⟨⟩ | ⟨⟩ | ⟨⟩ | h | h)
    · exact .inl h
    · exact .inr h
  · rintro (h | h)
    · exact .altLeft h
    · exact .altRight h

/-- A repeated set matches what consists of its members. -/
theorem matches_star_set :
    Matches w (.star g (.set s)) i j ↔
      ∃ u, i.rest = u ++ j.rest ∧ j = i.advance u j.rest ∧ ∀ c ∈ u, s.mem w c = true := by
  constructor
  · generalize he : Expr.star g (.set s) = e
    intro h
    induction h with
    | starNil i => exact ⟨[], rfl, by simp [Input.advance], by simp⟩
    | starMore ha hs _ ih =>
      obtain ⟨rfl, rfl⟩ := Expr.star.inj he
      obtain ⟨c, hc, hmem, hstart⟩ := matches_set.mp ha
      obtain ⟨u, hu, hj, hall⟩ := ih rfl
      refine ⟨c :: u, by simp [hc, hu], ?_, by simpa [hmem] using hall⟩
      rw [hj]
      simp [Input.advance, hstart]
    | _ => cases he
  · rintro ⟨u, hu, hj, hall⟩
    induction u generalizing i with
    | nil =>
      have hij : j = i := by
        rw [hj, ← (show i.rest = j.rest from hu)]
        simp [Input.advance]
      rw [hij]
      exact .starNil i
    | cons c u ih =>
      have hhead : Matches w (.set s) i ⟨false, u ++ j.rest⟩ :=
        matches_set.mpr ⟨c, hu, hall c (by simp), rfl⟩
      refine .starMore hhead (ih rfl ?_ fun d hd => hall d (by simp [hd]))
      rw [hj]
      simp [Input.advance]

/-- A match of an anchored expression begins at the start of the text. -/
theorem found_startText_cat {text : List Char} :
    Found w (.cat .startText a) text ↔ ∃ j, Matches w a ⟨true, text⟩ j := by
  constructor
  · rintro ⟨i, hi, j, h⟩
    obtain ⟨m, hm, ha⟩ := matches_cat.mp h
    obtain ⟨hstart, rfl⟩ := matches_startText.mp hm
    rcases List.mem_cons.mp hi with rfl | hi
    · exact ⟨j, ha⟩
    · obtain ⟨t, -, rfl⟩ := List.mem_map.mp hi
      simp at hstart
  · rintro ⟨j, ha⟩
    exact ⟨_, by simp [starts], j, .cat (.startText text) ha⟩

theorem mem_starts {text : List Char} (h : i ∈ starts text) : i.rest <:+ text := by
  rcases List.mem_cons.mp h with rfl | h
  · exact List.suffix_refl text
  · obtain ⟨t, ht, rfl⟩ := List.mem_map.mp h
    exact (List.mem_tails _ _).mp (List.mem_of_mem_tail ht)

theorem exists_mem_starts {text t : List Char} (h : t <:+ text) : ∃ i ∈ starts text, i.rest = t := by
  have hmem := (List.mem_tails _ _).mpr h
  cases htails : text.tails with
  | nil => simp [htails] at hmem
  | cons t' ts =>
    have hhead : t' = text := by cases text <;> simp_all
    rw [htails] at hmem
    rcases List.mem_cons.mp hmem with rfl | hmem
    · exact ⟨⟨true, text⟩, List.mem_cons_self .., hhead.symm⟩
    · refine ⟨⟨false, t⟩, List.mem_cons_of_mem _ (List.mem_map.mpr ⟨t, ?_, rfl⟩), rfl⟩
      rw [htails]
      exact hmem

end Meaning

/-! ## Sequences -/

/-- Expressions one after the other. -/
def seq (es : List Expr) : Expr := es.foldr .cat .empty

/-- A character. -/
def chr (c : Char) : Expr := .set (.single c)

section Sequences

variable {w : Char → Bool} {i j : Input}

@[simp] theorem matches_seq_nil : Matches w (seq []) i j ↔ j = i := matches_empty

@[simp] theorem matches_seq_cons {e : Expr} {es : List Expr} :
    Matches w (seq (e :: es)) i j ↔ ∃ m, Matches w e i m ∧ Matches w (seq es) m j := matches_cat

theorem matches_seq_append {es es' : List Expr} :
    Matches w (seq (es ++ es')) i j ↔ ∃ m, Matches w (seq es) i m ∧ Matches w (seq es') m j := by
  induction es generalizing i with
  | nil => simp
  | cons e es ih =>
    simp only [List.cons_append, matches_seq_cons, ih]
    exact ⟨fun ⟨m, he, m', hes, hes'⟩ => ⟨m', ⟨m, he, hes⟩, hes'⟩,
      fun ⟨m', ⟨m, he, hes⟩, hes'⟩ => ⟨m, he, m', hes, hes'⟩⟩

theorem mem_single {c d : Char} : (CharSet.single c).mem w d = true ↔ d = c := by
  have hiff : c.toNat ≤ d.toNat ∧ d.toNat ≤ c.toNat ↔ d = c :=
    ⟨fun h => Char.toNat_inj.mp (Nat.le_antisymm h.2 h.1), fun h => by simp [h]⟩
  simpa [CharSet.mem, CharSet.single] using hiff

theorem mem_dot {c : Char} : CharSet.dot.mem w c = true ↔ c ≠ '\n' := by
  have hiff : '\n'.toNat ≤ c.toNat ∧ c.toNat ≤ '\n'.toNat ↔ c = '\n' :=
    ⟨fun h => Char.toNat_inj.mp (Nat.le_antisymm h.2 h.1), fun h => by simp [h]⟩
  simp only [CharSet.mem, CharSet.dot, List.any_cons, List.any_nil, Bool.or_false,
    Bool.false_and, Bool.bne_true, Bool.not_eq_true', Bool.and_eq_false_iff, decide_eq_false_iff_not]
  rw [← not_and_or, hiff]

/-- A text as an expression matches itself. -/
theorem matches_seq_chars {cs : List Char} :
    Matches w (seq (cs.map chr)) i j ↔ i.rest = cs ++ j.rest ∧ j = i.advance cs j.rest := by
  induction cs generalizing i with
  | nil =>
    obtain ⟨bi, ri⟩ := i
    obtain ⟨bj, rj⟩ := j
    simp [Input.advance, and_comm, eq_comm]
  | cons c cs ih =>
    obtain ⟨bi, ri⟩ := i
    obtain ⟨bj, rj⟩ := j
    simp only [List.map_cons, matches_seq_cons, chr, matches_set, mem_single, ih]
    constructor
    · rintro ⟨⟨bm, rm⟩, ⟨d, hd, rfl, rfl⟩, hm, hj⟩
      simp_all [Input.advance]
    · rintro ⟨hr, hj⟩
      refine ⟨⟨false, cs ++ rj⟩, ⟨c, by simpa using hr, rfl, rfl⟩, rfl, ?_⟩
      simpa [Input.advance] using hj

/-- An anchored sequence. -/
theorem found_seq_startText {es : List Expr} {text : List Char} :
    Found w (seq (.startText :: es)) text ↔ ∃ j, Matches w (seq es) ⟨true, text⟩ j :=
  found_startText_cat

/-- A text matches where it begins. -/
theorem exists_matches_seq_chars {cs : List Char} :
    (∃ j, Matches w (seq (cs.map chr)) i j) ↔ cs <+: i.rest := by
  simp only [matches_seq_chars]
  constructor
  · rintro ⟨j, hrest, -⟩
    exact ⟨j.rest, hrest.symm⟩
  · rintro ⟨rest, hrest⟩
    exact ⟨i.advance cs rest, hrest.symm, rfl⟩

/-- One of several texts. -/
def oneOf (cs : List Char) : List (List Char) → Expr
  | [] => seq (cs.map chr)
  | ds :: rest => .alt (seq (cs.map chr)) (oneOf ds rest)

theorem matches_oneOf {cs : List Char} {rest : List (List Char)} :
    Matches w (oneOf cs rest) i j ↔ ∃ ds ∈ cs :: rest, Matches w (seq (ds.map chr)) i j := by
  induction rest generalizing cs with
  | nil => simp [oneOf]
  | cons ds rest ih => rw [oneOf, matches_alt, ih]; simp

end Sequences

/-! ## The matcher -/

section Matcher

variable {β : Type}

/-- Repeat `step` while it makes progress, at most `n` times, and go on with `k`. -/
def loop (step : (Input → Option β) → Input → Option β) (greedy : Bool) (k : Input → Option β) :
    ℕ → Input → Option β
  | 0, i => k i
  | n + 1, i =>
      let more := step (fun j => if j.rest.length < i.rest.length then loop step greedy k n j
        else none) i
      if greedy then more.or (k i) else (k i).or more

/-- Match `e` and go on with `k`. -/
def run (w : Char → Bool) : Expr → (Input → Option β) → Input → Option β
  | .empty, k, i => k i
  | .set s, k, i =>
      match i.rest with
      | [] => none
      | c :: cs => if s.mem w c then k ⟨false, cs⟩ else none
  | .startText, k, i => if i.atStart then k i else none
  | .endText, k, i => if i.rest.isEmpty then k i else none
  | .cat a b, k, i => run w a (run w b k) i
  | .alt a b, k, i => (run w a k i).or (run w b k i)
  | .star g a, k, i => loop (run w a) g k i.rest.length i

theorem loop_succ_isSome {step : (Input → Option β) → Input → Option β} {g : Bool}
    {k : Input → Option β} {n : ℕ} {i : Input} :
    (loop step g k (n + 1) i).isSome ↔
      (step (fun j => if j.rest.length < i.rest.length then loop step g k n j else none)
        i).isSome ∨ (k i).isSome := by
  cases g <;> simp [loop, or_comm]

section Star

variable {w : Char → Bool} {a : Expr} {g : Bool} {k : Input → Option β} {b : β}

theorem loop_eq_some (ih : ∀ (k : Input → Option β) i, run w a k i = some b →
      ∃ j, Matches w a i j ∧ k j = some b)
    {n : ℕ} {i : Input} (h : loop (run w a) g k n i = some b) :
    ∃ j, Matches w (.star g a) i j ∧ k j = some b := by
  induction n generalizing i with
  | zero => exact ⟨i, .starNil i, h⟩
  | succ n ihn =>
    have hcases : run w a (fun j => if j.rest.length < i.rest.length then loop (run w a) g k n j
        else none) i = some b ∨ k i = some b := by
      rw [loop] at h
      cases g with
      | true => exact (Option.or_eq_some_iff.mp h).imp id And.right
      | false => exact (Option.or_eq_some_iff.mp h).symm.imp And.right id
    rcases hcases with hmore | hk
    · obtain ⟨m, hm, hloop⟩ := ih _ i hmore
      split at hloop
      · obtain ⟨j, hj, hk⟩ := ihn hloop
        exact ⟨j, .starMore hm hj, hk⟩
      · cases hloop
    · exact ⟨i, .starNil i, hk⟩

theorem loop_complete (ih : ∀ (k : Input → Option β) i j, Matches w a i j → (k j).isSome →
      (run w a k i).isSome)
    {i j : Input} (h : Matches w (.star g a) i j) (hk : (k j).isSome) {n : ℕ}
    (hn : i.rest.length ≤ n) : (loop (run w a) g k n i).isSome := by
  generalize he : Expr.star g a = e at h
  induction h generalizing n with
  | starNil i =>
    cases n with
    | zero => exact hk
    | succ n => exact loop_succ_isSome.mpr (.inr hk)
  | @starMore _ _ i m j hm _ _ ihs =>
    obtain ⟨rfl, rfl⟩ := Expr.star.inj he
    by_cases hprogress : m.rest.length < i.rest.length
    · cases n with
      | zero => omega
      | succ n =>
        refine loop_succ_isSome.mpr (.inl (ih _ i m hm ?_))
        rw [if_pos hprogress]
        exact ihs hk (by omega) rfl
    · obtain rfl := hm.eq_of_length (by omega)
      exact ihs hk hn rfl
  | _ => cases he

end Star

variable {w : Char → Bool} {e : Expr} {k : Input → Option β} {i j : Input} {b : β}

/-- What the matcher returns is what `k` returns after a match. -/
theorem run_eq_some (h : run w e k i = some b) : ∃ j, Matches w e i j ∧ k j = some b := by
  induction e generalizing k i with
  | empty => exact ⟨i, .empty i, h⟩
  | set s =>
    obtain ⟨start, cs⟩ := i
    cases cs with
    | nil => cases h
    | cons c cs =>
      simp only [run] at h
      split at h
      · next hc => exact ⟨_, .set hc, h⟩
      · cases h
  | startText =>
    simp only [run] at h
    split at h
    · next hstart => exact ⟨i, matches_startText.mpr ⟨hstart, rfl⟩, h⟩
    · cases h
  | endText =>
    simp only [run] at h
    split at h
    · next hend => exact ⟨i, matches_endText.mpr ⟨List.isEmpty_iff.mp hend, rfl⟩, h⟩
    · cases h
  | cat a b iha ihb =>
    obtain ⟨m, hm, hrest⟩ := iha h
    obtain ⟨j, hj, hk⟩ := ihb hrest
    exact ⟨j, .cat hm hj, hk⟩
  | alt a b iha ihb =>
    rcases Option.or_eq_some_iff.mp h with h | ⟨-, h⟩
    · obtain ⟨j, hj, hk⟩ := iha h
      exact ⟨j, .altLeft hj, hk⟩
    · obtain ⟨j, hj, hk⟩ := ihb h
      exact ⟨j, .altRight hj, hk⟩
  | star g a ih => exact loop_eq_some (fun _ _ => ih) h

/-- The matcher succeeds if there is a match from which `k` succeeds. -/
theorem run_complete (h : Matches w e i j) (hk : (k j).isSome) : (run w e k i).isSome := by
  induction e generalizing k i j with
  | empty =>
    obtain rfl := matches_empty.mp h
    exact hk
  | set s =>
    cases h with
    | set hc => simpa [run, hc] using hk
  | startText =>
    obtain ⟨hstart, rfl⟩ := matches_startText.mp h
    simpa [run, hstart] using hk
  | endText =>
    obtain ⟨hend, rfl⟩ := matches_endText.mp h
    simpa [run, hend] using hk
  | cat a b iha ihb =>
    obtain ⟨m, ha, hb⟩ := matches_cat.mp h
    exact iha ha (ihb hb hk)
  | alt a b iha ihb =>
    rw [run, Option.isSome_or, Bool.or_eq_true]
    exact (matches_alt.mp h).imp (iha · hk) (ihb · hk)
  | star g a ih => exact loop_complete (fun _ _ _ => ih) h hk le_rfl

/-- The matcher succeeds exactly when there is a match from which `k` succeeds. -/
theorem run_isSome (w : Char → Bool) (e : Expr) (k : Input → Option β) (i : Input) :
    (run w e k i).isSome ↔ ∃ j, Matches w e i j ∧ (k j).isSome := by
  constructor
  · intro h
    obtain ⟨b, hb⟩ := Option.isSome_iff_exists.mp h
    obtain ⟨j, hj, hk⟩ := run_eq_some hb
    exact ⟨j, hj, Option.isSome_iff_exists.mpr ⟨b, hk⟩⟩
  · exact fun ⟨j, h, hk⟩ => run_complete h hk

end Matcher

end Regex
