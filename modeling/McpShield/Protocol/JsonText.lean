import McpShield.Lib.Printing
import McpShield.Protocol.Json

/-!
# JSON texts

What the serializer prints is read in one way only, and has no control character: a value is found
again from its text, and a line feed may end it.
-/

open Printing

namespace McpShield

/-! ## The numbers of a value -/

/-- The characters of a number. -/
def IsNumberChar (c : Char) : Prop := c.isDigit = true ∨ c ∈ ['+', '-', '.', 'e']

instance : DecidablePred IsNumberChar := fun _ => inferInstanceAs (Decidable (_ ∨ _))

/-- A number as `serde_json` keeps it: a negative integer is below zero, and the text of a float has a
point or an exponent. -/
def Number.Canonical : Number → Prop
  | .posInt _ => True
  | .negInt n => n < 0
  | .float text => (∀ c ∈ text.toList, IsNumberChar c) ∧ ('.' ∈ text.toList ∨ 'e' ∈ text.toList)

namespace Value

mutual

/-- The numbers of a value are canonical. -/
def Canonical : Value → Prop
  | number n => n.Canonical
  | array xs => ElemsCanonical xs
  | object fields => FieldsCanonical fields
  | _ => True

def ElemsCanonical : List Value → Prop
  | [] => True
  | x :: xs => x.Canonical ∧ ElemsCanonical xs

def FieldsCanonical : List (String × Value) → Prop
  | [] => True
  | (_, v) :: fields => v.Canonical ∧ FieldsCanonical fields

end

/-! ## Numbers -/

@[simp] theorem canonical_ofInt (n : Int64) : (ofInt n).Canonical := by
  unfold ofInt
  split
  · next hn =>
    rw [Canonical]
    exact hn
  · simp [Canonical, Number.Canonical]

theorem numberChars_posInt (n : UInt64) : numberChars (.posInt n) = Nat.toDigits 10 n.toNat :=
  Nat.toList_repr

theorem toInt_neg {n : Int64} (h : n < 0) : n.toInt < 0 := by
  simpa [Int64.lt_iff_toInt_lt] using h

theorem numberChars_negInt {n : Int64} (h : n < 0) :
    numberChars (.negInt n) = '-' :: Nat.toDigits 10 n.toInt.natAbs := by
  obtain ⟨m, hm⟩ := Int.eq_negSucc_of_lt_zero (toInt_neg h)
  rw [numberChars, Int.toString_eq_repr, hm, Int.repr, String.toList_append, Nat.toList_repr]
  rfl

theorem toDigits_injective {n m : ℕ} (h : Nat.toDigits 10 n = Nat.toDigits 10 m) : n = m := by
  rw [← Nat.ofDigitChars_ten_toDigits (n := n), h, Nat.ofDigitChars_ten_toDigits]

theorem not_mem_toDigits {c : Char} (h : c.isDigit = false) (n : ℕ) : c ∉ Nat.toDigits 10 n := by
  intro hc
  have hdigit := Nat.isDigit_of_mem_toDigits (by decide) (by decide) hc
  rw [h] at hdigit
  cases hdigit

/-- The characters of a number. -/
theorem isNumberChar_of_mem {n : Number} (hn : n.Canonical) :
    ∀ c ∈ numberChars n, IsNumberChar c := by
  have hdigits : ∀ m : ℕ, ∀ c ∈ Nat.toDigits 10 m, IsNumberChar c :=
    fun m c hc => .inl (Nat.isDigit_of_mem_toDigits (by decide) (by decide) hc)
  cases n with
  | posInt n =>
    rw [numberChars_posInt]
    exact hdigits _
  | negInt n =>
    rw [numberChars_negInt hn]
    exact List.forall_mem_cons.mpr ⟨.inr (by simp), hdigits _⟩
  | float text => exact hn.1

/-- An integer has no point and no exponent. -/
theorem not_mem_integer {n : Number} (hn : n.Canonical) (hfloat : ∀ text, n ≠ .float text) :
    '.' ∉ numberChars n ∧ 'e' ∉ numberChars n := by
  cases n with
  | posInt n =>
    rw [numberChars_posInt]
    exact ⟨not_mem_toDigits rfl _, not_mem_toDigits rfl _⟩
  | negInt n =>
    rw [numberChars_negInt hn]
    simp [not_mem_toDigits]
  | float text => exact absurd rfl (hfloat text)

theorem ne_float {n : Number} {text : String} (hn : n.Canonical) (hfloat : ∀ text, n ≠ .float text)
    (htext : (Number.float text).Canonical) : numberChars n ≠ numberChars (.float text) := by
  intro heq
  obtain ⟨hpoint, hexponent⟩ := not_mem_integer hn hfloat
  rw [heq] at hpoint hexponent
  exact htext.2.elim hpoint hexponent

/-- A number is found again from its text. -/
theorem numberChars_injective {n m : Number} (hn : n.Canonical) (hm : m.Canonical)
    (heq : numberChars n = numberChars m) : n = m := by
  have hminus : ∀ (n : UInt64) (m : Int64), m < 0 →
      numberChars (.posInt n) ≠ numberChars (.negInt m) := by
    intro n m hm heq
    rw [numberChars_posInt, numberChars_negInt hm] at heq
    exact not_mem_toDigits (c := '-') rfl n.toNat (heq ▸ List.mem_cons_self)
  cases n with
  | posInt n =>
    cases m with
    | posInt m =>
      rw [numberChars_posInt, numberChars_posInt] at heq
      exact congrArg _ (UInt64.toNat_inj.mp (toDigits_injective heq))
    | negInt m => exact absurd heq (hminus n m hm)
    | float text => exact absurd heq (ne_float hn (by simp) hm)
  | negInt n =>
    cases m with
    | posInt m => exact absurd heq.symm (hminus m n hn)
    | negInt m =>
      have hneg := toInt_neg hn
      have hneg' := toInt_neg hm
      rw [numberChars_negInt hn, numberChars_negInt hm] at heq
      have habs := toDigits_injective (List.cons_eq_cons.mp heq).2
      exact congrArg _ (Int64.toInt_inj.mp (by omega))
    | float text => exact absurd heq (ne_float hn (by simp) hm)
  | float text =>
    cases m with
    | float text' => exact congrArg _ (String.toList_inj.mp heq)
    | _ => exact absurd heq.symm (ne_float hm (by simp) hn)

/-- What may follow a number. -/
def EndsNumber (r : List Char) : Prop := ∀ c ∈ r.head?, ¬ IsNumberChar c

theorem readable_number : Printing.Readable Number.Canonical EndsNumber numberChars :=
  readable_of_tokens (fun _ hn => isNumberChar_of_mem hn) fun _ _ => numberChars_injective

/-! ## Strings -/

/-- The number of a hexadecimal digit. -/
def hexValue (c : Char) : ℕ := if c.isDigit then c.toNat - '0'.toNat else c.toNat - 'a'.toNat + 10

/-- Read one character of a string literal. -/
def unescape : List Char → Option (Char × List Char)
  | '\\' :: '"' :: r => some ('"', r)
  | '\\' :: '\\' :: r => some ('\\', r)
  | '\\' :: 'b' :: r => some (Char.ofNat 8, r)
  | '\\' :: 't' :: r => some (Char.ofNat 9, r)
  | '\\' :: 'n' :: r => some (Char.ofNat 10, r)
  | '\\' :: 'f' :: r => some (Char.ofNat 12, r)
  | '\\' :: 'r' :: r => some (Char.ofNat 13, r)
  | '\\' :: 'u' :: '0' :: '0' :: x :: y :: r => some (Char.ofNat (16 * hexValue x + hexValue y), r)
  | c :: r => some (c, r)
  | [] => none

theorem hexValue_hexDigit : ∀ n < 16, hexValue (hexDigit n) = n := by decide

theorem unescape_escapeChar (c : Char) (r : List Char) : unescape (escapeChar c ++ r) = some (c, r) := by
  have hofNat : ∀ n, c.toNat = n → Char.ofNat n = c := fun n h => h ▸ Char.ofNat_toNat c
  unfold escapeChar
  split_ifs with hquote hbackslash h8 h9 h10 h12 h13 hcontrol
  · rw [hquote]; rfl
  · rw [hbackslash]; rfl
  · exact congrArg (fun c => some (c, r)) (hofNat 8 h8)
  · exact congrArg (fun c => some (c, r)) (hofNat 9 h9)
  · exact congrArg (fun c => some (c, r)) (hofNat 10 h10)
  · exact congrArg (fun c => some (c, r)) (hofNat 12 h12)
  · exact congrArg (fun c => some (c, r)) (hofNat 13 h13)
  · have hhigh := hexValue_hexDigit (c.toNat / 16) (by omega)
    have hlow := hexValue_hexDigit (c.toNat % 16) (by omega)
    show some (Char.ofNat (16 * hexValue (hexDigit (c.toNat / 16)) +
      hexValue (hexDigit (c.toNat % 16))), r) = some (c, r)
    rw [hhigh, hlow, Nat.div_add_mod, Char.ofNat_toNat]
  · simp [unescape, hbackslash]

theorem readable_escapeChar : Printing.Readable (fun _ => True) (fun _ => True) escapeChar :=
  readable_of_reader fun c r _ => unescape_escapeChar c r

/-- No character is printed with a quote in front. -/
theorem escapeChar_head (c : Char) : ∃ d cs, escapeChar c = d :: cs ∧ d ≠ '"' := by
  unfold escapeChar
  split_ifs with hquote
  on_goal 9 => exact ⟨c, [], rfl, hquote⟩
  all_goals exact ⟨_, _, rfl, by decide⟩

/-- A string literal is read in one way. -/
theorem quote_inj {s s' : String} {r r' : List Char} (heq : quote s ++ r = quote s' ++ r') :
    s = s' ∧ r = r' := by
  have hlist := readable_escapeChar.list fun c _ => escapeChar_head c
  obtain ⟨hs, hr⟩ := hlist (fun _ _ => trivial) (fun _ _ => trivial) trivial trivial
    (List.cons_eq_cons.mp heq).2
  exact ⟨String.toList_inj.mp hs, hr⟩

/-! ## Values -/

/-- Which kind of value a text shows with its first character. -/
def leads (c : Char) : ℕ :=
  if c = 'n' then 0
  else if c = 't' then 1
  else if c = 'f' then 2
  else if c = '"' then 3
  else if c = '[' then 4
  else if c = '\x7b' then 5
  else if c = ']' then 6
  else 7

/-- The kind of a value. -/
def kind : Value → ℕ
  | null => 0
  | bool true => 1
  | bool false => 2
  | string _ => 3
  | array _ => 4
  | object _ => 5
  | number _ => 7

theorem leads_of_isNumberChar {c : Char} (h : IsNumberChar c) : leads c = 7 := by
  have hne : ∀ d : Char, d.isDigit = false → d ∉ ['+', '-', '.', 'e'] → c ≠ d := by
    rintro d hdigit hsign rfl
    rcases h with h | h
    · rw [hdigit] at h
      cases h
    · exact hsign h
  simp only [leads, hne 'n' rfl (by decide), hne 't' rfl (by decide), hne 'f' rfl (by decide),
    hne '"' rfl (by decide), hne '[' rfl (by decide), hne '\x7b' rfl (by decide),
    hne ']' rfl (by decide), if_false]

theorem numberChars_ne_nil {n : Number} (hn : n.Canonical) : numberChars n ≠ [] := by
  cases n with
  | posInt n =>
    rw [numberChars_posInt]
    exact Nat.toDigits_ne_nil
  | negInt n =>
    rw [numberChars_negInt hn]
    exact List.cons_ne_nil _ _
  | float text => exact fun hnil => hn.2.elim (List.ne_nil_of_mem · hnil) (List.ne_nil_of_mem · hnil)

/-- A text shows the kind of its value. -/
theorem exists_head {v : Value} (hv : v.Canonical) :
    ∃ c cs, v.toChars = c :: cs ∧ leads c = v.kind := by
  cases v with
  | null => exact ⟨_, _, rfl, rfl⟩
  | bool b => cases b <;> exact ⟨_, _, rfl, rfl⟩
  | number n =>
    obtain ⟨c, cs, hcs⟩ := List.exists_cons_of_ne_nil (numberChars_ne_nil hv)
    exact ⟨c, cs, hcs, leads_of_isNumberChar
      (isNumberChar_of_mem hv c (hcs ▸ List.mem_cons_self))⟩
  | _ => exact ⟨_, _, rfl, rfl⟩

theorem kind_eq {v w : Value} {r r' : List Char} (hv : v.Canonical) (hw : w.Canonical)
    (heq : v.toChars ++ r = w.toChars ++ r') : v.kind = w.kind := by
  obtain ⟨c, cs, hcs, hc⟩ := exists_head hv
  obtain ⟨d, ds, hds, hd⟩ := exists_head hw
  rw [hcs, hds] at heq
  rw [← hc, ← hd, (List.cons_eq_cons.mp heq).1]

theorem kind_ne_bracket (v : Value) : v.kind ≠ leads ']' := by
  cases v with
  | bool b => cases b <;> decide
  | _ => simp [kind, leads]

/-- The text of an array after an element. -/
def elemsRest : List Value → List Char
  | [] => [']']
  | y :: ys => ',' :: elemsChars (y :: ys)

theorem elemsChars_cons (x : Value) (xs : List Value) :
    elemsChars (x :: xs) = x.toChars ++ elemsRest xs := by
  cases xs with
  | nil => rfl
  | cons => rfl

/-- The text of an object after a member. -/
def fieldsRest : List (String × Value) → List Char
  | [] => ['\x7d']
  | f :: fs => ',' :: fieldsChars (f :: fs)

theorem fieldsChars_cons (k : String) (v : Value) (fields : List (String × Value)) :
    fieldsChars ((k, v) :: fields) = quote k ++ ':' :: (v.toChars ++ fieldsRest fields) := by
  cases fields with
  | nil => simp [fieldsChars, fieldsRest]
  | cons => simp [fieldsChars, fieldsRest]

theorem endsNumber_cons {c : Char} {r : List Char} (h : ¬ IsNumberChar c) : EndsNumber (c :: r) := by
  intro d hd
  obtain rfl := Option.some.inj hd
  exact h

theorem endsNumber_elemsRest (xs : List Value) (r : List Char) : EndsNumber (elemsRest xs ++ r) := by
  cases xs with
  | nil => exact endsNumber_cons (by decide)
  | cons => exact endsNumber_cons (by decide)

theorem endsNumber_fieldsRest (fields : List (String × Value)) (r : List Char) :
    EndsNumber (fieldsRest fields ++ r) := by
  cases fields with
  | nil => exact endsNumber_cons (by decide)
  | cons => exact endsNumber_cons (by decide)

mutual

/-- A value at the front of a text is read in one way. -/
theorem toChars_inj : ∀ (v w : Value) {r r' : List Char}, v.Canonical → w.Canonical →
    EndsNumber r → EndsNumber r' → v.toChars ++ r = w.toChars ++ r' → v = w ∧ r = r'
  | v, w, r, r', hv, hw, hr, hr', heq => by
    have hkind := kind_eq hv hw heq
    match v, w with
    | null, null => exact ⟨rfl, List.append_cancel_left heq⟩
    | bool true, bool true => exact ⟨rfl, List.append_cancel_left heq⟩
    | bool false, bool false => exact ⟨rfl, List.append_cancel_left heq⟩
    | number n, number m =>
      obtain ⟨rfl, rfl⟩ := readable_number hv hw hr hr' heq
      exact ⟨rfl, rfl⟩
    | string s, string s' =>
      obtain ⟨rfl, rfl⟩ := quote_inj heq
      exact ⟨rfl, rfl⟩
    | array xs, array ys =>
      obtain ⟨rfl, rfl⟩ := elemsChars_inj xs ys hv hw (List.cons_eq_cons.mp heq).2
      exact ⟨rfl, rfl⟩
    | object fields, object fields' =>
      obtain ⟨rfl, rfl⟩ := fieldsChars_inj fields fields' hv hw (List.cons_eq_cons.mp heq).2
      exact ⟨rfl, rfl⟩
termination_by structural v => v

/-- The elements of an array at the front of a text are read in one way. -/
theorem elemsChars_inj : ∀ (xs ys : List Value) {r r' : List Char}, ElemsCanonical xs →
    ElemsCanonical ys → elemsChars xs ++ r = elemsChars ys ++ r' → xs = ys ∧ r = r'
  | [], [], r, r', _, _, heq => ⟨rfl, List.append_cancel_left heq⟩
  | [], y :: ys, r, r', _, hys, heq => by
    obtain ⟨c, cs, hcs, hc⟩ := exists_head hys.1
    rw [elemsChars_cons, hcs] at heq
    have hbracket : ']' = c := (List.cons_eq_cons.mp heq).1
    exact absurd (hbracket ▸ hc) (kind_ne_bracket y).symm
  | x :: xs, [], r, r', hxs, _, heq => by
    obtain ⟨c, cs, hcs, hc⟩ := exists_head hxs.1
    rw [elemsChars_cons, hcs] at heq
    have hbracket : c = ']' := (List.cons_eq_cons.mp heq).1
    exact absurd (hbracket ▸ hc) (kind_ne_bracket x).symm
  | x :: xs, y :: ys, r, r', hxs, hys, heq => by
    rw [elemsChars_cons, elemsChars_cons, List.append_assoc, List.append_assoc] at heq
    obtain ⟨rfl, hrest⟩ := toChars_inj x y hxs.1 hys.1 (endsNumber_elemsRest xs r)
      (endsNumber_elemsRest ys r') heq
    match xs, ys with
    | [], [] => exact ⟨rfl, List.append_cancel_left hrest⟩
    | [], y' :: ys => simp [elemsRest] at hrest
    | x' :: xs, [] => simp [elemsRest] at hrest
    | x' :: xs, y' :: ys =>
      obtain ⟨htail, rfl⟩ := elemsChars_inj (x' :: xs) (y' :: ys) hxs.2 hys.2
        (List.cons_eq_cons.mp hrest).2
      exact ⟨congrArg _ htail, rfl⟩
termination_by structural xs => xs

/-- The members of an object at the front of a text are read in one way. -/
theorem fieldsChars_inj : ∀ (fields fields' : List (String × Value)) {r r' : List Char},
    FieldsCanonical fields → FieldsCanonical fields' →
      fieldsChars fields ++ r = fieldsChars fields' ++ r' → fields = fields' ∧ r = r'
  | [], [], r, r', _, _, heq => ⟨rfl, List.append_cancel_left heq⟩
  | [], (k, v) :: fields, r, r', _, _, heq => by
    rw [fieldsChars_cons] at heq
    simp [fieldsChars, quote] at heq
  | (k, v) :: fields, [], r, r', _, _, heq => by
    rw [fieldsChars_cons] at heq
    simp [fieldsChars, quote] at heq
  | (k, v) :: fields, (k', v') :: fields', r, r', h, h', heq => by
    rw [fieldsChars_cons, fieldsChars_cons, List.append_assoc, List.append_assoc] at heq
    obtain ⟨rfl, hmember⟩ := quote_inj heq
    simp only [List.cons_append, List.cons.injEq, true_and, List.append_assoc] at hmember
    obtain ⟨rfl, hrest⟩ := toChars_inj v v' h.1 h'.1 (endsNumber_fieldsRest fields r)
      (endsNumber_fieldsRest fields' r') hmember
    match fields, fields' with
    | [], [] => exact ⟨rfl, List.append_cancel_left hrest⟩
    | [], f' :: fields' => simp [fieldsRest] at hrest
    | f :: fields, [] => simp [fieldsRest] at hrest
    | f :: fields, f' :: fields' =>
      obtain ⟨htail, rfl⟩ := fieldsChars_inj (f :: fields) (f' :: fields') h.2 h'.2
        (List.cons_eq_cons.mp hrest).2
      exact ⟨congrArg _ htail, rfl⟩
termination_by structural fields => fields

end

/-- A value is found again from its text. -/
theorem toChars_injective {v w : Value} (hv : v.Canonical) (hw : w.Canonical)
    (heq : v.toChars = w.toChars) : v = w := by
  have hend : EndsNumber [] := fun c hc => nomatch hc
  exact (toChars_inj v w hv hw hend hend (congrArg (· ++ []) heq)).1

/-! ## No control characters -/

/-- Neither a control character of ASCII nor a line feed. -/
def Printable (c : Char) : Prop := 32 ≤ c.toNat

instance : DecidablePred Printable := fun _ => inferInstanceAs (Decidable (_ ≤ _))

/-- The characters of a list are checked one by one. -/
theorem printable_of_all {cs : List Char} (h : (cs.all fun c => decide (Printable c)) = true) :
    ∀ c ∈ cs, Printable c :=
  fun c hc => of_decide_eq_true (List.all_eq_true.mp h c hc)

theorem printable_of_isNumberChar {c : Char} (h : IsNumberChar c) : Printable c := by
  rcases h with h | h
  · have hdigit : 48 ≤ c.toNat ∧ c.toNat ≤ 57 := by
      simpa [Char.isDigit, UInt32.le_iff_toNat_le] using h
    exact (by decide : 32 ≤ 48).trans hdigit.1
  · have hsigns : ∀ c ∈ ['+', '-', '.', 'e'], Printable c := printable_of_all (by decide)
    exact hsigns c h

theorem printable_hexDigit : ∀ n < 16, Printable (hexDigit n) := by decide

theorem printable_escapeChar (c : Char) : ∀ d ∈ escapeChar c, Printable d := by
  unfold escapeChar
  split_ifs with hquote hbackslash h8 h9 h10 h12 h13 hcontrol
  on_goal 8 =>
    have hhigh := printable_hexDigit (c.toNat / 16) (by omega)
    have hlow := printable_hexDigit (c.toNat % 16) (by omega)
    have hprefix : ∀ d ∈ ['\\', 'u', '0', '0'], Printable d := printable_of_all (by decide)
    simpa [hhigh, hlow] using hprefix
  on_goal 8 => exact List.forall_mem_singleton.mpr (Nat.le_of_not_lt hcontrol)
  all_goals exact printable_of_all (by decide)

theorem printable_quote (s : String) : ∀ c ∈ quote s, Printable c := by
  have hmark : Printable '"' := by decide
  intro c hc
  simp only [quote, List.mem_cons, List.mem_append, List.mem_flatMap, List.not_mem_nil,
    or_false] at hc
  obtain rfl | ⟨d, -, hd⟩ | rfl := hc
  · exact hmark
  · exact printable_escapeChar d c hd
  · exact hmark

mutual

/-- The text of a value has no control character. -/
theorem printable_toChars : ∀ v : Value, v.Canonical → ∀ c ∈ v.toChars, Printable c
  | null, _ => printable_of_all (by decide)
  | bool true, _ => printable_of_all (by decide)
  | bool false, _ => printable_of_all (by decide)
  | number _, hn => fun c hc => printable_of_isNumberChar (isNumberChar_of_mem hn c hc)
  | string s, _ => printable_quote s
  | array xs, hxs => List.forall_mem_cons.mpr ⟨by decide, printable_elemsChars xs hxs⟩
  | object fields, hfields =>
    List.forall_mem_cons.mpr ⟨by decide, printable_fieldsChars fields hfields⟩
termination_by structural v => v

theorem printable_elemsChars : ∀ xs : List Value, ElemsCanonical xs → ∀ c ∈ elemsChars xs, Printable c
  | [], _ => printable_of_all (by decide)
  | x :: xs, hxs => by
    rw [elemsChars_cons]
    refine List.forall_mem_append.mpr ⟨printable_toChars x hxs.1, ?_⟩
    match xs with
    | [] => exact printable_of_all (by decide)
    | y :: ys =>
      exact List.forall_mem_cons.mpr ⟨by decide, printable_elemsChars (y :: ys) hxs.2⟩
termination_by structural xs => xs

theorem printable_fieldsChars : ∀ fields : List (String × Value), FieldsCanonical fields →
    ∀ c ∈ fieldsChars fields, Printable c
  | [], _ => printable_of_all (by decide)
  | (k, v) :: fields, h => by
    rw [fieldsChars_cons]
    refine List.forall_mem_append.mpr ⟨printable_quote k, List.forall_mem_cons.mpr ⟨by decide, ?_⟩⟩
    refine List.forall_mem_append.mpr ⟨printable_toChars v h.1, ?_⟩
    match fields with
    | [] => exact printable_of_all (by decide)
    | f :: fs =>
      exact List.forall_mem_cons.mpr ⟨by decide, printable_fieldsChars (f :: fs) h.2⟩
termination_by structural fields => fields

end

theorem lineFeed_not_mem {v : Value} (hv : v.Canonical) : '\n' ∉ v.toChars :=
  fun hmem => absurd (printable_toChars v hv _ hmem) (by decide)

end Value

end McpShield
