import McpShield.Gateway.Registry

/-!
# The grammar of tool names

A reverse-DNS prefix is a list of labels joined by dots.  The parser of tool names asks for a dot in
the prefix and looks at its characters, but not at the labels between the dots, so a label may be
empty.  `parsedStrictly_iff` says that this is all that the parser lets through beyond the grammar.
-/

namespace McpShield

/-- The characters of a label: lowercase ASCII letters, digits and hyphens. -/
def isLabelChar (c : Char) : Bool := Str.isAsciiLowercase c || Str.isAsciiDigit c || c == '-'

/-- The characters of a name within a prefix: lowercase ASCII letters, digits and underscores. -/
def isNameChar (c : Char) : Bool := Str.isAsciiLowercase c || Str.isAsciiDigit c || c == '_'

/-- A reverse-DNS prefix: at least two labels, none of them empty, joined by single dots. -/
def ReverseDns (pfx : String) : Prop :=
  ∃ labels : List (List Char), 2 ≤ labels.length ∧
    (∀ label ∈ labels, label ≠ [] ∧ ∀ c ∈ label, isLabelChar c = true) ∧
      pfx.toList = ['.'].intercalate labels

/-- A name within a prefix has 1 to 128 characters. -/
def IsToolName (name : String) : Prop :=
  1 ≤ name.toList.length ∧ name.toList.length ≤ 128 ∧ ∀ c ∈ name.toList, isNameChar c = true

/-- The two sides of the first colon, trimmed. -/
def TrimmedSides (rawName pfx name : String) : Prop :=
  ∃ left right, ':' ∉ left.toList ∧ rawName = left ++ String.singleton ':' ++ right ∧
    pfx = Str.trim left ∧ name = Str.trim right

/-- The parser accepts a raw name exactly in the strict grammar, what it returns reads back as
itself, and no other pair has the same qualified name. -/
structure ParsedStrictly (rawName : String) : Prop where
  accepts_iff : ∀ pfx name, parseToolName rawName true = .ok (pfx, name) ↔
    TrimmedSides rawName pfx name ∧ ReverseDns pfx ∧ IsToolName name
  canonical : ∀ enforcePrefix pfx name, parseToolName rawName enforcePrefix = .ok (pfx, name) →
    parseToolName (qualify pfx name) enforcePrefix = .ok (pfx, name)
  injective : ∀ rawName' enforcePrefix enforcePrefix' pfx name pfx' name',
    parseToolName rawName enforcePrefix = .ok (pfx, name) →
    parseToolName rawName' enforcePrefix' = .ok (pfx', name') →
      qualify pfx name = qualify pfx' name' → (pfx, name) = (pfx', name')

/-- The name is in form, and the prefix would be but for an empty label: a dot at its begin or its
end, or two dots in a row. -/
def HasEmptyLabel (rawName : String) : Prop :=
  ∃ pfx name, TrimmedSides rawName pfx name ∧ IsToolName name ∧ '.' ∈ pfx.toList ∧
    (∀ c ∈ pfx.toList, isLabelChar c = true ∨ c = '.') ∧ "" ∈ Str.split pfx '.'

variable {rawName pfx name : String}

/-! ## The checks -/

theorem refused_or_iff {ε α : Type} {c : Prop} [Decidable c] {e : ε} {r : Except ε α} {a : α} :
    (if c then .error e else r) = .ok a ↔ ¬ c ∧ r = .ok a := by
  split
  · next hc => simp [hc]
  · next hc => simp [hc]

/-- The prefix has a dot, and only characters of labels and dots. -/
theorem checkPrefixFormat_eq_ok_iff : checkPrefixFormat pfx = .ok () ↔
    '.' ∈ pfx.toList ∧ ∀ c ∈ pfx.toList, isLabelChar c = true ∨ c = '.' := by
  rw [checkPrefixFormat, refused_or_iff, refused_or_iff]
  simp only [Str.containsChar, isLabelChar, Bool.not_eq_true', Bool.not_eq_false,
    List.contains_iff_mem, List.all_eq_true, Bool.or_eq_true, beq_iff_eq, and_true]

theorem utf8Size_of_isNameChar {c : Char} (h : isNameChar c = true) : c.utf8Size = 1 := by
  simp only [isNameChar, Str.isAsciiLowercase, Str.isAsciiDigit, Bool.or_eq_true, Bool.and_eq_true,
    decide_eq_true_eq, beq_iff_eq] at h
  rw [Char.utf8Size_eq_one_iff, UInt32.le_iff_toNat_le]
  rcases h with (⟨-, hz⟩ | ⟨-, hnine⟩) | rfl
  · exact hz.trans (by decide)
  · exact hnine.trans (by decide)
  · decide

/-- The characters of a name are counted in bytes, but each has one. -/
theorem checkNameFormat_eq_ok_iff : checkNameFormat name = .ok () ↔ IsToolName name := by
  have hlen : (∀ c ∈ name.toList, isNameChar c = true) →
      Str.len name = name.toList.length :=
    fun h => Str.len_eq_length fun c hc => utf8Size_of_isNameChar (h c hc)
  rw [checkNameFormat, refused_or_iff, refused_or_iff]
  simp only [not_or, not_lt, minToolNameLength, maxToolNameLength, Bool.not_eq_true',
    Bool.not_eq_false, List.all_eq_true, and_true, IsToolName]
  constructor
  · rintro ⟨⟨hmin, hmax⟩, hchars⟩
    rw [hlen hchars] at hmin hmax
    exact ⟨hmin, hmax, hchars⟩
  · rintro ⟨hmin, hmax, hchars⟩
    rw [hlen hchars]
    exact ⟨⟨hmin, hmax⟩, hchars⟩

/-! ## Labels -/

/-- A text of label characters and dots is a reverse-DNS prefix exactly when it has a dot and no
empty label. -/
theorem reverseDns_iff : ReverseDns pfx ↔
    '.' ∈ pfx.toList ∧ (∀ c ∈ pfx.toList, isLabelChar c = true ∨ c = '.') ∧
      "" ∉ Str.split pfx '.' := by
  rw [Str.empty_mem_split]
  constructor
  · rintro ⟨labels, hlength, hlabels, hpfx⟩
    have hdot : ∀ label ∈ labels, '.' ∉ label := fun label hlabel hmem =>
      absurd ((hlabels label hlabel).2 '.' hmem) (by decide)
    have hsplit : pfx.toList.splitOn '.' = labels := by
      rw [hpfx]
      exact List.splitOn_intercalate '.' hdot (List.ne_nil_of_length_pos (by omega))
    refine ⟨Str.two_le_length_splitOn.mp (hsplit ▸ hlength), fun c hc => ?_, fun hnil => ?_⟩
    · rcases Str.mem_intercalate (hpfx ▸ hc) with hc | ⟨label, hlabel, hc⟩
      · exact .inr hc
      · exact .inl ((hlabels label hlabel).2 c hc)
    · exact (hlabels [] (hsplit ▸ hnil)).1 rfl
  · rintro ⟨hdot, hchars, hnil⟩
    refine ⟨pfx.toList.splitOn '.', Str.two_le_length_splitOn.mpr hdot, fun label hlabel => ?_,
      (List.intercalate_splitOn '.').symm⟩
    have hwithin : label <:+: pfx.toList := by
      have h := Str.infix_intercalate (c := '.') hlabel
      rwa [List.intercalate_splitOn] at h
    refine ⟨fun heq => hnil (heq ▸ hlabel), fun c hc => ?_⟩
    refine (hchars c (hwithin.subset hc)).resolve_right fun heq => ?_
    exact Str.not_mem_of_mem_splitOn hlabel (heq ▸ hc)

/-! ## What the parser accepts -/

theorem trimmedSides_iff : TrimmedSides rawName pfx name ↔
    ∃ rest, Str.after rawName ':' = some rest ∧ pfx = Str.trim (Str.before rawName ':') ∧
      name = Str.trim rest := by
  constructor
  · rintro ⟨left, right, hleft, rfl, rfl, rfl⟩
    rw [Str.before_append hleft]
    exact ⟨right, Str.after_append hleft, rfl, rfl⟩
  · rintro ⟨rest, hrest, rfl, rfl⟩
    exact ⟨_, rest, Str.not_mem_before rawName ':', Str.eq_of_after hrest, rfl, rfl⟩

/-- With the prefix format enforced, a parsed prefix has a dot and only characters of labels and
dots. -/
theorem parseToolName_enforced_iff : parseToolName rawName true = .ok (pfx, name) ↔
    TrimmedSides rawName pfx name ∧ IsToolName name ∧ '.' ∈ pfx.toList ∧
      ∀ c ∈ pfx.toList, isLabelChar c = true ∨ c = '.' := by
  rw [parseToolName_eq_ok_iff, trimmedSides_iff]
  simp only [checkPrefixFormat_eq_ok_iff, checkNameFormat_eq_ok_iff, forall_const]
  constructor
  · rintro ⟨rest, hrest, hpfx, hname, -, -, ⟨hdot, hchars⟩, hform⟩
    exact ⟨⟨rest, hrest, hpfx, hname⟩, hform, hdot, hchars⟩
  · rintro ⟨⟨rest, hrest, hpfx, hname⟩, hform, hdot, hchars⟩
    refine ⟨rest, hrest, hpfx, hname, ?_, ?_, ⟨hdot, hchars⟩, hform⟩
    · rintro rfl
      exact List.not_mem_nil hdot
    · rintro rfl
      exact absurd hform.1 (by decide)

/-! ## The normal form -/

/-- What the parser returns reads back as itself. -/
theorem parseToolName_qualify {enforcePrefix : Bool}
    (h : parseToolName rawName enforcePrefix = .ok (pfx, name)) :
    parseToolName (qualify pfx name) enforcePrefix = .ok (pfx, name) := by
  have hcolon := not_mem_of_parseToolName h
  obtain ⟨rest, -, hpfx, hname, hchecked⟩ := parseToolName_eq_ok_iff.mp h
  rw [qualify_eq]
  refine parseToolName_eq_ok_iff.mpr ⟨name, Str.after_append hcolon, ?_, ?_, hchecked⟩
  · rw [Str.before_append hcolon, hpfx, Str.trim_trim]
  · rw [hname, Str.trim_trim]

/-- The prefix of a qualified name ends at its first colon. -/
theorem qualify_injective {pfx' name' : String} (hcolon : ':' ∉ pfx.toList)
    (hcolon' : ':' ∉ pfx'.toList) (h : qualify pfx name = qualify pfx' name') :
    (pfx, name) = (pfx', name') := by
  rw [qualify_eq, qualify_eq] at h
  obtain ⟨rfl, rfl⟩ := Str.append_singleton_inj hcolon hcolon' h
  rfl

/-- A raw name is parsed in the strict grammar and canonically exactly when it is none whose prefix
would be in form but for an empty label. -/
theorem parsedStrictly_iff : ParsedStrictly rawName ↔ ¬ HasEmptyLabel rawName := by
  constructor
  · rintro h ⟨pfx, name, hsides, hname, hdot, hchars, hempty⟩
    have hparse := parseToolName_enforced_iff.mpr ⟨hsides, hname, hdot, hchars⟩
    obtain ⟨-, hpfx, -⟩ := (h.accepts_iff pfx name).mp hparse
    exact (reverseDns_iff.mp hpfx).2.2 hempty
  · intro hno
    refine ⟨fun pfx name => ?_, fun _ _ _ => parseToolName_qualify, fun _ _ _ _ _ _ _ h h' =>
      qualify_injective (not_mem_of_parseToolName h) (not_mem_of_parseToolName h')⟩
    rw [parseToolName_enforced_iff, reverseDns_iff]
    constructor
    · rintro ⟨hsides, hname, hdot, hchars⟩
      refine ⟨hsides, ⟨hdot, hchars, fun hempty => ?_⟩, hname⟩
      exact hno ⟨pfx, name, hsides, hname, hdot, hchars, hempty⟩
    · rintro ⟨hsides, ⟨hdot, hchars, -⟩, hname⟩
      exact ⟨hsides, hname, hdot, hchars⟩

/-! ## An empty label -/

/-- Two dots in a row are let through. -/
theorem doubleDot_not_parsedStrictly :
    parseToolName "com..example:search" true = .ok ("com..example", "search") ∧
      ¬ ReverseDns "com..example" ∧ ¬ ParsedStrictly "com..example:search" := by
  have hparse : parseToolName "com..example:search" true = .ok ("com..example", "search") := rfl
  have hdns : ¬ ReverseDns "com..example" := fun h =>
    (reverseDns_iff.mp h).2.2 (Str.empty_mem_split.mpr (by decide +kernel))
  exact ⟨hparse, hdns, fun h => hdns ((h.accepts_iff _ _).mp hparse).2.1⟩

end McpShield
