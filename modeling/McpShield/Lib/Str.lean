import Mathlib.Data.List.Basic
import Mathlib.Data.List.DropRight
import Mathlib.Data.String.Basic

/-!
# String operations of the Rust standard library

The operations on `str` that the program uses, on Lean strings through their lists of characters.
Lengths and offsets are in bytes of the UTF-8 encoding, as in Rust.
-/

namespace Str

/-- `char::is_whitespace`: the Unicode property `White_Space`. -/
def isWhitespace (c : Char) : Bool :=
  (9 ≤ c.toNat && c.toNat ≤ 13) || c.toNat == 0x20 || c.toNat == 0x85 || c.toNat == 0xA0 ||
    c.toNat == 0x1680 || (0x2000 ≤ c.toNat && c.toNat ≤ 0x200A) || c.toNat == 0x2028 ||
    c.toNat == 0x2029 || c.toNat == 0x202F || c.toNat == 0x205F || c.toNat == 0x3000

/-- `char::is_ascii_lowercase`. -/
def isAsciiLowercase (c : Char) : Bool := 'a'.toNat ≤ c.toNat && c.toNat ≤ 'z'.toNat

/-- `char::is_ascii_digit`. -/
def isAsciiDigit (c : Char) : Bool := '0'.toNat ≤ c.toNat && c.toNat ≤ '9'.toNat

/-- `str::len`, in bytes. -/
def len (s : String) : ℕ := s.toList.foldr (fun c n => c.utf8Size + n) 0

/-- `str::trim`. -/
def trim (s : String) : String :=
  String.ofList ((s.toList.dropWhile isWhitespace).rdropWhile isWhitespace)

/-- The text before the first `c`, all of `s` if there is none. -/
def before (s : String) (c : Char) : String := String.ofList (s.toList.takeWhile (· ≠ c))

/-- The text after the first `c`, if there is one. -/
def after (s : String) (c : Char) : Option String :=
  match s.toList.dropWhile (· ≠ c) with
  | [] => none
  | _ :: rest => some (String.ofList rest)

/-- `str::splitn(2, c)` collected. -/
def splitn2 (s : String) (c : Char) : List String := before s c :: (after s c).toList

/-- `str::split(c)` collected: the pieces between the occurrences of `c`. -/
def split (s : String) (c : Char) : List String :=
  (s.toList.splitOn c).map String.ofList

/-- `str::split_whitespace` collected: the pieces between blanks, without the empty ones. -/
def splitWhitespace (s : String) : List String :=
  ((s.toList.splitOnP isWhitespace).filter (!·.isEmpty)).map String.ofList

/-- `str::starts_with`. -/
def startsWith (s p : String) : Bool := p.toList.isPrefixOf s.toList

/-- `str::ends_with`. -/
def endsWith (s p : String) : Bool := p.toList.isSuffixOf s.toList

/-- `str::contains` for a character. -/
def containsChar (s : String) (c : Char) : Bool := s.toList.contains c

/-- `str::contains` for a string. -/
def containsStr (s p : String) : Bool := s.toList.tails.any fun t => p.toList.isPrefixOf t

/-- `str::trim_matches` for a set of characters. -/
def trimMatches (s : String) (p : Char → Bool) : String :=
  String.ofList ((s.toList.dropWhile p).rdropWhile p)

/-- The characters with every occurrence of `pat` replaced, once `skip` more are passed over. -/
def replaceChars (pat rep : List Char) : ℕ → List Char → List Char
  | _, [] => []
  | skip + 1, _ :: cs => replaceChars pat rep skip cs
  | 0, c :: cs =>
      if pat.isPrefixOf (c :: cs) then rep ++ replaceChars pat rep (pat.length - 1) cs
      else c :: replaceChars pat rep 0 cs

/-- `str::replace`, for a pattern that is not empty. -/
def replace (s pat rep : String) : String :=
  String.ofList (replaceChars pat.toList rep.toList 0 s.toList)

/-- The value of a decimal numeral. -/
def digitsValue (cs : List Char) : ℕ := cs.foldl (fun n c => 10 * n + (c.toNat - '0'.toNat)) 0

/-- `str::parse::<usize>` on a machine of 64 bits. -/
def parseUsize (s : String) : Option ℕ :=
  let digits := match s.toList with
    | '+' :: rest => rest
    | cs => cs
  if !digits.isEmpty && digits.all isAsciiDigit && digitsValue digits < 2 ^ 64 then
    some (digitsValue digits)
  else none

/-- The characters that make up exactly the first `n` bytes; `none` when byte `n` is past the end
or inside a character. -/
def takeBytes : ℕ → List Char → Option (List Char)
  | 0, _ => some []
  | _ + 1, [] => none
  | n + 1, c :: cs =>
      if c.utf8Size ≤ n + 1 then (takeBytes (n + 1 - c.utf8Size) cs).map (c :: ·) else none
termination_by structural _ cs => cs

/-- `&s[..n]`; `none` is the panic. -/
def sliceTo (s : String) (n : ℕ) : Option String := (takeBytes n s.toList).map String.ofList

@[simp] theorem takeBytes_zero (cs : List Char) : takeBytes 0 cs = some [] := by
  cases cs <;> rfl

theorem takeBytes_append {n : ℕ} {cs rest : List Char} (hc : ∀ c ∈ cs, c.utf8Size = 1)
    (hn : n ≤ cs.length) : takeBytes n (cs ++ rest) = some (cs.take n) := by
  induction cs generalizing n with
  | nil =>
    obtain rfl : n = 0 := by simpa using hn
    simp
  | cons c cs ih =>
    cases n with
    | zero => simp
    | succ n =>
      have h1 : c.utf8Size = 1 := hc c (by simp)
      have hrec := ih (n := n) (fun d hd => hc d (by simp [hd])) (by simpa using hn)
      simp [takeBytes, h1, hrec]

theorem length_le_len (s : String) : s.toList.length ≤ len s := by
  unfold len
  induction s.toList with
  | nil => simp
  | cons c cs ih =>
    have hc := Char.utf8Size_pos c
    simp only [List.length_cons, List.foldr_cons]
    omega

/-- Characters of one byte are counted by the length in bytes. -/
theorem len_eq_length {s : String} (h : ∀ c ∈ s.toList, c.utf8Size = 1) :
    len s = s.toList.length := by
  unfold len
  generalize s.toList = cs at h ⊢
  induction cs with
  | nil => rfl
  | cons c cs ih =>
    rw [List.foldr_cons, ih fun d hd => h d (List.mem_cons_of_mem _ hd), h c List.mem_cons_self,
      List.length_cons, add_comm]

theorem sliceTo_of_ascii_append {n : ℕ} {cs rest : List Char} (hc : ∀ c ∈ cs, c.utf8Size = 1)
    (hn : n ≤ cs.length) :
    sliceTo (String.ofList (cs ++ rest)) n = some (String.ofList (cs.take n)) := by
  rw [sliceTo, String.toList_ofList, takeBytes_append hc hn, Option.map_some]

/-- `str::is_char_boundary`: byte `n` is the end of a text that `s` begins with. -/
def IsCharBoundary (s : String) (n : ℕ) : Prop := ∃ start rest, s = start ++ rest ∧ len start = n

theorem len_ofList_cons (c : Char) (cs : List Char) :
    len (String.ofList (c :: cs)) = c.utf8Size + len (String.ofList cs) := by
  simp [len]

theorem len_append (s t : String) : len (s ++ t) = len s + len t := by
  unfold len
  rw [String.toList_append]
  induction s.toList with
  | nil => simp
  | cons c cs ih =>
    rw [List.cons_append, List.foldr_cons, List.foldr_cons, ih, add_assoc]

theorem takeBytes_eq_some_iff {n : ℕ} {cs out : List Char} :
    takeBytes n cs = some out ↔ (∃ rest, cs = out ++ rest) ∧ len (String.ofList out) = n := by
  induction cs generalizing n out with
  | nil =>
    cases n with
    | zero =>
      simp only [takeBytes_zero, Option.some.injEq, List.nil_eq_append_iff]
      constructor
      · rintro rfl
        exact ⟨⟨[], rfl, rfl⟩, rfl⟩
      · rintro ⟨⟨rest, rfl, -⟩, -⟩
        rfl
    | succ n =>
      simp only [takeBytes, reduceCtorEq, false_iff, not_and]
      rintro ⟨rest, hnil⟩ hlen
      rw [(List.nil_eq_append_iff.mp hnil).1] at hlen
      cases hlen
  | cons c cs ih =>
    have hpos := Char.utf8Size_pos c
    cases out with
    | nil =>
      cases n with
      | zero => simp [len]
      | succ n =>
        simp only [takeBytes]
        split_ifs <;> simp [len]
    | cons d out =>
      rw [len_ofList_cons]
      cases n with
      | zero =>
        have hpos' := Char.utf8Size_pos d
        simp only [takeBytes_zero, Option.some.injEq, reduceCtorEq, false_iff, not_and]
        omega
      | succ n =>
        simp only [takeBytes]
        split_ifs with hfits
        · simp only [Option.map_eq_some_iff, List.cons.injEq, List.cons_append, ih]
          constructor
          · rintro ⟨out', ⟨⟨rest, rfl⟩, hlen⟩, rfl, rfl⟩
            exact ⟨⟨rest, rfl, rfl⟩, by omega⟩
          · rintro ⟨⟨rest, rfl, rfl⟩, hlen⟩
            exact ⟨out, ⟨⟨rest, rfl⟩, by omega⟩, rfl, rfl⟩
        · simp only [false_iff, not_and]
          rintro ⟨rest, heq⟩ hlen
          obtain ⟨rfl, -⟩ := List.cons.inj heq
          omega

/-- A text can be cut at its character boundaries. -/
theorem isSome_sliceTo {s : String} {n : ℕ} :
    (sliceTo s n).isSome = true ↔ IsCharBoundary s n := by
  rw [sliceTo, Option.isSome_map, Option.isSome_iff_exists]
  constructor
  · rintro ⟨out, hout⟩
    obtain ⟨⟨rest, hsplit⟩, hlen⟩ := takeBytes_eq_some_iff.mp hout
    refine ⟨String.ofList out, String.ofList rest, ?_, hlen⟩
    rw [← String.ofList_append, ← hsplit, String.ofList_toList]
  · rintro ⟨start, rest, rfl, hlen⟩
    refine ⟨start.toList, takeBytes_eq_some_iff.mpr ⟨⟨rest.toList, String.toList_append⟩, ?_⟩⟩
    rwa [String.ofList_toList]

/-- A text with no `c` is passed over in the search for the first `c`. -/
theorem forall_ne_of_not_mem {s : String} {c : Char} (h : c ∉ s.toList) :
    ∀ x ∈ s.toList, decide (x ≠ c) = true := by
  intro x hx
  simpa using fun e : x = c => h (e ▸ hx)

theorem toList_append_singleton (s : String) (c : Char) (t : String) :
    (s ++ String.singleton c ++ t).toList = s.toList ++ c :: t.toList := by
  simp

theorem mem_of_mem_trim {s : String} {c : Char} (h : c ∈ (trim s).toList) : c ∈ s.toList := by
  rw [trim, String.toList_ofList] at h
  exact (List.dropWhile_sublist _).subset ((List.rdropWhile_prefix _ _).subset h)

theorem trim_trim (s : String) : trim (trim s) = trim s := by
  have hhead : (trim s).toList.dropWhile isWhitespace = (trim s).toList := by
    rw [trim, String.toList_ofList, List.dropWhile_eq_self_iff]
    intro hpos
    have hfirst : (s.toList.dropWhile isWhitespace).rdropWhile isWhitespace <+:
        s.toList.dropWhile isWhitespace := List.rdropWhile_prefix _ _
    rw [hfirst.getElem hpos]
    exact List.dropWhile_get_zero_not _ _ (hpos.trans_le hfirst.length_le)
  calc trim (trim s)
      = String.ofList ((trim s).toList.rdropWhile isWhitespace) := by rw [trim, hhead]
    _ = trim s := by rw [trim, String.toList_ofList, List.rdropWhile_idempotent]
theorem before_append {s : String} {c : Char} {t : String} (h : c ∉ s.toList) :
    before (s ++ String.singleton c ++ t) c = s := by
  rw [before, toList_append_singleton, List.takeWhile_append_of_pos (forall_ne_of_not_mem h)]
  simp

theorem after_append {s : String} {c : Char} {t : String} (h : c ∉ s.toList) :
    after (s ++ String.singleton c ++ t) c = some t := by
  rw [after, toList_append_singleton, List.dropWhile_append_of_pos (forall_ne_of_not_mem h)]
  simp

/-- The side before the first `c` is known from the whole text, and so is the one after it. -/
theorem append_singleton_inj {s s' t t' : String} {c : Char} (h : c ∉ s.toList)
    (h' : c ∉ s'.toList)
    (heq : s ++ String.singleton c ++ t = s' ++ String.singleton c ++ t') : s = s' ∧ t = t' := by
  have hbefore : s = s' := by rw [← before_append h, heq, before_append h']
  have hafter : some t = some t' := by rw [← after_append h, heq, after_append h']
  exact ⟨hbefore, Option.some.inj hafter⟩

theorem not_mem_before (s : String) (c : Char) : c ∉ (before s c).toList := by
  intro h
  rw [before, String.toList_ofList] at h
  simpa using List.mem_takeWhile_imp h

/-- A text with a `c` is what is before the first one, that one, and what is after it. -/
theorem eq_of_after {s : String} {c : Char} {t : String} (h : after s c = some t) :
    s = before s c ++ String.singleton c ++ t := by
  have hsplit := List.takeWhile_append_dropWhile (p := (· ≠ c)) (l := s.toList)
  unfold after at h
  cases hrest : s.toList.dropWhile (· ≠ c) with
  | nil =>
    rw [hrest] at h
    cases h
  | cons c' rest =>
    have hc : c' = c := by
      have hhead := List.head?_dropWhile_not (· ≠ c) s.toList
      rw [hrest] at hhead
      simpa using hhead
    rw [hrest] at h hsplit
    obtain rfl := Option.some.inj h
    apply String.toList_inj.mp
    rw [toList_append_singleton, before, String.toList_ofList, String.toList_ofList]
    exact hc ▸ hsplit.symm

/-- No byte within a character is a boundary. -/
theorem not_isCharBoundary {start rest : String} {c : Char} {n : ℕ} (hlow : len start < n)
    (hhigh : n < len start + c.utf8Size) :
    ¬ IsCharBoundary (start ++ String.singleton c ++ rest) n := by
  rintro ⟨start', rest', heq, rfl⟩
  have hlists := congrArg String.toList heq
  rw [toList_append_singleton, String.toList_append] at hlists
  rcases List.append_eq_append_iff.mp hlists with ⟨more, hmore, hrest⟩ | ⟨more, hmore, hrest⟩
  · -- the cut is after `start`, so it is after the character
    cases more with
    | nil =>
      have hstart : start' = start := String.toList_inj.mp (by rw [hmore, List.append_nil])
      exact hlow.ne (congrArg len hstart.symm)
    | cons d more =>
      obtain ⟨rfl, -⟩ := List.cons.inj hrest
      have hstart : start' = start ++ String.ofList (c :: more) :=
        String.toList_inj.mp (by rw [hmore, String.toList_append, String.toList_ofList])
      rw [hstart, len_append, len_ofList_cons] at hhigh
      omega
  · have hstart : start = start' ++ String.ofList more :=
      String.toList_inj.mp (by rw [hmore, String.toList_append, String.toList_ofList])
    rw [hstart, len_append] at hlow
    omega

theorem infix_intercalate {cs : List Char} {pieces : List (List Char)} {c : Char}
    (h : cs ∈ pieces) : cs <:+: [c].intercalate pieces := by
  induction pieces with
  | nil => cases h
  | cons piece pieces ih =>
    cases pieces with
    | nil =>
      obtain rfl := List.mem_singleton.mp h
      simp only [List.intercalate_singleton, List.infix_refl]
    | cons next pieces =>
      rw [List.intercalate_cons_cons]
      rcases List.mem_cons.mp h with rfl | hmem
      · exact ((List.prefix_append cs [c]).trans (List.prefix_append _ _)).isInfix
      · exact (ih hmem).trans (List.suffix_append _ _).isInfix

theorem not_mem_of_mem_splitOn {cs piece : List Char} {c : Char} (h : piece ∈ cs.splitOn c) :
    c ∉ piece := by
  induction cs generalizing piece with
  | nil =>
    rw [List.splitOn_nil, List.mem_singleton] at h
    exact h ▸ List.not_mem_nil
  | cons d cs ih =>
    rw [List.splitOn_cons_eq_if_modifyHead] at h
    split at h
    · rcases List.mem_cons.mp h with rfl | h
      · exact List.not_mem_nil
      · exact ih h
    · next hne =>
      cases hcs : cs.splitOn c with
      | nil => exact absurd hcs (List.splitOn_ne_nil c cs)
      | cons first pieces =>
        rw [hcs] at h ih
        rcases List.mem_cons.mp h with rfl | h
        · rw [List.mem_cons, not_or]
          exact ⟨fun heq => hne (beq_iff_eq.mpr heq.symm), ih List.mem_cons_self⟩
        · exact ih (List.mem_cons_of_mem _ h)

theorem two_le_length_splitOn {cs : List Char} {c : Char} :
    2 ≤ (cs.splitOn c).length ↔ c ∈ cs := by
  induction cs with
  | nil => simp
  | cons d cs ih =>
    have hpos : 0 < (cs.splitOn c).length := List.length_pos_iff.mpr (List.splitOn_ne_nil c cs)
    rw [List.splitOn_cons_eq_if_modifyHead, List.mem_cons]
    split
    · next heq =>
      rw [List.length_cons]
      exact iff_of_true (by omega) (.inl (beq_iff_eq.mp heq).symm)
    · next hne =>
      rw [List.length_modifyHead, ih]
      exact (or_iff_right fun heq => hne (beq_iff_eq.mpr heq.symm)).symm

theorem mem_intercalate {d c : Char} {pieces : List (List Char)}
    (h : d ∈ [c].intercalate pieces) : d = c ∨ ∃ piece ∈ pieces, d ∈ piece := by
  induction pieces with
  | nil => simp at h
  | cons piece pieces ih =>
    cases pieces with
    | nil => exact .inr ⟨piece, List.mem_singleton_self _, by simpa using h⟩
    | cons next pieces =>
      rw [List.intercalate_cons_cons, List.mem_append, List.mem_append, List.mem_singleton] at h
      rcases h with (h | rfl) | h
      · exact .inr ⟨piece, List.mem_cons_self, h⟩
      · exact .inl rfl
      · exact (ih h).imp_right fun ⟨piece', hmem, hd⟩ => ⟨piece', List.mem_cons_of_mem _ hmem, hd⟩

/-- A piece of a text occurs in it. -/
theorem infix_of_mem_split {piece s : String} {c : Char} (h : piece ∈ split s c) :
    piece.toList <:+: s.toList := by
  obtain ⟨cs, hcs, rfl⟩ := List.mem_map.mp h
  have hinfix : cs <:+: [c].intercalate (s.toList.splitOn c) := infix_intercalate hcs
  rwa [List.intercalate_splitOn, ← String.toList_ofList (l := cs)] at hinfix

theorem empty_mem_split {s : String} {c : Char} : "" ∈ split s c ↔ [] ∈ s.toList.splitOn c := by
  rw [split, List.mem_map]
  constructor
  · rintro ⟨piece, hpiece, heq⟩
    obtain rfl : piece = [] := String.ofList_eq_empty_iff.mp heq
    exact hpiece
  · exact fun hmem => ⟨[], hmem, rfl⟩

end Str
