import Mathlib.Data.List.Basic

/-!
# Printed texts

Printers whose texts can be read back.  A printed value is found at the front of a text in one way
only, whatever comes after it, as long as what comes after is of a kind that may follow; and texts
that are ended by a mark are found again by cutting at the mark.
-/

namespace Printing

variable {α C : Type}

/-! ## Reading a printed value -/

/-- Two values of the domain that are printed at the front of one text, each with something that may
follow, are equal, and so is what follows. -/
def Readable (dom : α → Prop) (follows : List C → Prop) (print : α → List C) : Prop :=
  ∀ ⦃a b : α⦄ ⦃r r' : List C⦄, dom a → dom b → follows r → follows r' →
    print a ++ r = print b ++ r' → a = b ∧ r = r'

section Rules

variable {dom : α → Prop} {follows : List C → Prop} {print : α → List C}

theorem Readable.injective (h : Readable dom follows print) (hnil : follows []) {a b : α}
    (ha : dom a) (hb : dom b) (heq : print a = print b) : a = b :=
  (h ha hb hnil hnil (congrArg (· ++ []) heq)).1

/-- Whatever has a reader is readable. -/
theorem readable_of_reader {read : List C → Option (α × List C)}
    (h : ∀ a r, dom a → read (print a ++ r) = some (a, r)) :
    Readable dom (fun _ => True) print := by
  intro a b r r' ha hb _ _ heq
  have hread : some (a, r) = some (b, r') := by
    rw [← h a r ha, ← h b r' hb, heq]
  exact Prod.mk.inj (Option.some.inj hread)

/-- The front of a text that consists of tokens ends where the first other character is. -/
theorem append_inj_of_tokens {token : C → Prop} {s t r r' : List C} (hs : ∀ c ∈ s, token c)
    (ht : ∀ c ∈ t, token c) (hr : ∀ c ∈ r.head?, ¬ token c) (hr' : ∀ c ∈ r'.head?, ¬ token c)
    (heq : s ++ r = t ++ r') : s = t ∧ r = r' := by
  induction s generalizing t with
  | nil =>
    cases t with
    | nil => exact ⟨rfl, heq⟩
    | cons c t =>
      have hhead : r.head? = some c := by
        rw [List.nil_append] at heq
        rw [heq]
        rfl
      exact absurd (ht c List.mem_cons_self) (hr c hhead)
  | cons c s ih =>
    cases t with
    | nil =>
      have hhead : r'.head? = some c := by
        rw [List.nil_append] at heq
        rw [← heq]
        rfl
      exact absurd (hs c List.mem_cons_self) (hr' c hhead)
    | cons d t =>
      obtain ⟨rfl, hrest⟩ := List.cons_eq_cons.mp heq
      obtain ⟨rfl, rfl⟩ := ih (fun c h => hs c (List.mem_cons_of_mem _ h))
        (fun c h => ht c (List.mem_cons_of_mem _ h)) hrest
      exact ⟨rfl, rfl⟩

/-- A value that is printed with tokens, followed by what does not begin with one. -/
theorem readable_of_tokens {token : C → Prop} (htoken : ∀ a, dom a → ∀ c ∈ print a, token c)
    (hinj : ∀ a b, dom a → dom b → print a = print b → a = b) :
    Readable dom (fun r => ∀ c ∈ r.head?, ¬ token c) print := by
  intro a b r r' ha hb hr hr' heq
  obtain ⟨hprint, rfl⟩ := append_inj_of_tokens (htoken a ha) (htoken b hb) hr hr' heq
  exact ⟨hinj a b ha hb hprint, rfl⟩

/-- A list of values, one after the other, up to a character that begins none. -/
theorem Readable.list {code : α → List C} {stop : C} (hcode : Readable dom (fun _ => True) code)
    (hstop : ∀ a, dom a → ∃ c cs, code a = c :: cs ∧ c ≠ stop) :
    Readable (fun l : List α => ∀ a ∈ l, dom a) (fun _ => True)
      fun l => l.flatMap code ++ [stop] := by
  intro l l' r r' hl hl' _ _ heq
  induction l generalizing l' with
  | nil =>
    cases l' with
    | nil => simpa using heq
    | cons a l' =>
      obtain ⟨c, cs, hcs, hne⟩ := hstop a (hl' a List.mem_cons_self)
      simp only [List.flatMap_nil, List.flatMap_cons, hcs, List.nil_append, List.cons_append,
        List.cons.injEq] at heq
      exact absurd heq.1.symm hne
  | cons a l ih =>
    cases l' with
    | nil =>
      obtain ⟨c, cs, hcs, hne⟩ := hstop a (hl a List.mem_cons_self)
      simp only [List.flatMap_nil, List.flatMap_cons, hcs, List.nil_append, List.cons_append,
        List.cons.injEq] at heq
      exact absurd heq.1 hne
    | cons b l' =>
      simp only [List.flatMap_cons, List.append_assoc] at heq
      obtain ⟨rfl, hrest⟩ := hcode (hl a List.mem_cons_self) (hl' b List.mem_cons_self) trivial
        trivial heq
      obtain ⟨rfl, rfl⟩ := ih (fun x h => hl x (List.mem_cons_of_mem _ h))
        (fun x h => hl' x (List.mem_cons_of_mem _ h)) (by simpa using hrest)
      exact ⟨rfl, rfl⟩

end Rules

/-! ## Texts ended by a mark -/

/-- The texts, each ended by the mark. -/
def framed (mark : C) (texts : List (List C)) : List C := texts.flatMap fun text => text ++ [mark]

variable {mark : C} {texts texts' : List (List C)}

theorem framed_append : framed mark (texts ++ texts') = framed mark texts ++ framed mark texts' :=
  List.flatMap_append

/-- Texts without the mark are found again. -/
theorem splitOn_framed [BEq C] [LawfulBEq C] (h : ∀ text ∈ texts, mark ∉ text) :
    (framed mark texts).splitOn mark = texts ++ [[]] := by
  induction texts with
  | nil => rfl
  | cons text texts ih =>
    have hfirst : framed mark (text :: texts) = text ++ mark :: framed mark texts := by
      simp [framed]
    rw [hfirst, List.splitOn_append_cons_self_of_not_mem (h text List.mem_cons_self),
      ih fun t ht => h t (List.mem_cons_of_mem _ ht)]
    rfl

theorem framed_injective [BEq C] [LawfulBEq C] (h : ∀ text ∈ texts, mark ∉ text)
    (h' : ∀ text ∈ texts', mark ∉ text) (heq : framed mark texts = framed mark texts') :
    texts = texts' := by
  have hsplit : texts ++ [[]] = texts' ++ [[]] := by
    rw [← splitOn_framed h, ← splitOn_framed h', heq]
  exact List.append_cancel_right hsplit

end Printing
