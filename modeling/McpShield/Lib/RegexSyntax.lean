import McpShield.Lib.Regex

/-!
# Patterns

The part of the concrete syntax of the Rust `regex` crate that has a plain reading: literals,
classes, the anchors, groups, alternation, the repetitions `*`, `+` and `?` with their lazy forms,
and the flag `(?i)` at the start.  What is outside of it is not parsed.
-/

namespace Regex

/-! ## Characters -/

/-- The characters that `escape` puts a backslash before. -/
def isMeta (c : Char) : Bool := "\\.+*?()|[]\x7b\x7d^$#&-~".toList.contains c

/-- `regex::escape`. -/
def escape (s : String) : String :=
  String.ofList (s.toList.flatMap fun c => if isMeta c then ['\\', c] else [c])

def isAsciiLetter (c : Char) : Bool :=
  ('a'.toNat ≤ c.toNat && c.toNat ≤ 'z'.toNat) || ('A'.toNat ≤ c.toNat && c.toNat ≤ 'Z'.toNat)

/-- The characters that differ from an ASCII character only in case: `K` has the Kelvin sign and
`S` the long s among them. -/
def caseVariants (c : Char) : List Char :=
  if isAsciiLetter c then
    let upper := c.toUpper
    let others := if upper == 'K' then ['\u212A'] else if upper == 'S' then ['\u017F'] else []
    upper :: c.toLower :: others
  else [c]

/-- A character of a pattern, as a set.  Without regard to case only ASCII is supported. -/
def literal (i : Bool) (c : Char) : Option (List (Char × Char)) :=
  if i then if c.toNat < 128 then some ((caseVariants c).map fun d => (d, d)) else none
  else some [(c, c)]

def hexDigit (c : Char) : Option ℕ :=
  if Str.isAsciiDigit c then some (c.toNat - '0'.toNat)
  else if 'a'.toNat ≤ c.toNat && c.toNat ≤ 'f'.toNat then some (c.toNat - 'a'.toNat + 10)
  else if 'A'.toNat ≤ c.toNat && c.toNat ≤ 'F'.toNat then some (c.toNat - 'A'.toNat + 10)
  else none

/-- What an escape sequence stands for. -/
inductive Escaped where
  | char (c : Char)
  | word
  | space

/-- The escape sequence after a backslash.  Also a slash, which needs none, may have one. -/
def parseEscape : List Char → Option (Escaped × List Char)
  | 'w' :: cs => some (.word, cs)
  | 's' :: cs => some (.space, cs)
  | 'n' :: cs => some (.char '\n', cs)
  | 't' :: cs => some (.char '\t', cs)
  | 'r' :: cs => some (.char '\r', cs)
  | 'u' :: a :: b :: c :: d :: cs => do
      let code := (← hexDigit a) * 4096 + (← hexDigit b) * 256 + (← hexDigit c) * 16 + (← hexDigit d)
      if code.isValidChar then some (.char (Char.ofNat code), cs) else none
  | c :: cs => if isMeta c || c == '/' then some (.char c, cs) else none
  | [] => none

/-! ## Classes -/

/-- The union of two sets that are not negated. -/
def CharSet.union (s t : CharSet) : CharSet :=
  { ranges := s.ranges ++ t.ranges, word := s.word || t.word, space := s.space || t.space,
    negated := false }

def CharSet.ofRanges (ranges : List (Char × Char)) : CharSet :=
  { ranges, word := false, space := false, negated := false }

def Escaped.toSet (i : Bool) : Escaped → Option CharSet
  | .char c => (literal i c).map .ofRanges
  | .word => some { ranges := [], word := true, space := false, negated := false }
  | .space => some { ranges := [], word := false, space := true, negated := false }

/-- A class member that may begin a range. -/
def parseMember : List Char → Option (Escaped × List Char)
  | '\\' :: cs => parseEscape cs
  | '[' :: _ | ']' :: _ | '&' :: _ | '~' :: _ => none
  | c :: cs => some (.char c, cs)
  | [] => none

/-- A member of a class or a range.  A dash is literal only at the end of a class. -/
def parseItem (i : Bool) (cs : List Char) : Option (CharSet × List Char) := do
  let (a, cs) ← parseMember cs
  match cs with
  | '-' :: ']' :: _ => (a.toSet i).map (·, cs)
  | '-' :: rest =>
      let (b, rest) ← parseMember rest
      match a, b with
      | .char lo, .char hi =>
          if i || hi.toNat < lo.toNat || lo == '-' || hi == '-' then none
          else some (.ofRanges [(lo, hi)], rest)
      | _, _ => none
  | _ => (a.toSet i).map (·, cs)

/-- The members of a class, up to its closing bracket. -/
def parseClass (i : Bool) : ℕ → List Char → Option (CharSet × List Char)
  | 0, _ => none
  | n + 1, cs => do
      let (s, cs) ← parseItem i cs
      match cs with
      | ']' :: cs => some (s, cs)
      | _ => (parseClass i n cs).map fun (t, cs) => (s.union t, cs)

/-! ## Expressions -/

/-- The repetition after an atom, if there is one. -/
def repeated (a : Expr) : List Char → Expr × List Char
  | '*' :: '?' :: cs => (.star false a, cs)
  | '*' :: cs => (.star true a, cs)
  | '+' :: '?' :: cs => (.cat a (.star false a), cs)
  | '+' :: cs => (.cat a (.star true a), cs)
  | '?' :: '?' :: cs => (.alt .empty a, cs)
  | '?' :: cs => (.alt a .empty, cs)
  | cs => (a, cs)

mutual

/-- Alternatives, up to a closing parenthesis or the end. -/
def parseAlt (i : Bool) : ℕ → List Char → Option (Expr × List Char)
  | 0, _ => none
  | n + 1, cs => do
      let (items, cs) ← parseConcat i n cs
      match cs with
      | '|' :: cs => (parseAlt i n cs).map fun (b, cs) => (.alt (seq items) b, cs)
      | _ => some (seq items, cs)

/-- What stands one after the other. -/
def parseConcat (i : Bool) : ℕ → List Char → Option (List Expr × List Char)
  | 0, _ => none
  | n + 1, cs =>
      match cs with
      | [] | '|' :: _ | ')' :: _ => some ([], cs)
      | _ => do
          let (a, cs) ← parseAtom i n cs
          let (a, cs) := repeated a cs
          let (items, cs) ← parseConcat i n cs
          some (a :: items, cs)

def parseAtom (i : Bool) : ℕ → List Char → Option (Expr × List Char)
  | 0, _ => none
  | n + 1, cs =>
      match cs with
      | '(' :: '?' :: ':' :: cs => parseGroup i n cs
      | '(' :: '?' :: _ => none
      | '(' :: cs => parseGroup i n cs
      | '[' :: '^' :: cs =>
          (parseClass i cs.length cs).map fun (s, cs) => (.set { s with negated := true }, cs)
      | '[' :: cs => (parseClass i cs.length cs).map fun (s, cs) => (.set s, cs)
      | '.' :: cs => some (.set .dot, cs)
      | '^' :: cs => some (.startText, cs)
      | '$' :: cs => some (.endText, cs)
      | '\\' :: cs => do
          let (a, cs) ← parseEscape cs
          let s ← a.toSet i
          some (.set s, cs)
      | '*' :: _ | '+' :: _ | '?' :: _ | '\x7b' :: _ => none
      | c :: cs => (literal i c).map fun ranges => (.set (.ofRanges ranges), cs)
      | [] => none

/-- A group, after its opening parenthesis. -/
def parseGroup (i : Bool) : ℕ → List Char → Option (Expr × List Char)
  | 0, _ => none
  | n + 1, cs => do
      match ← parseAlt i n cs with
      | (a, ')' :: cs) => some (a, cs)
      | _ => none

end

/-- The expression that a pattern stands for. -/
def parse (pattern : String) : Option Expr :=
  let cs := pattern.toList
  let (i, cs) := match cs with
    | '(' :: '?' :: 'i' :: ')' :: cs => (true, cs)
    | _ => (false, cs)
  match parseAlt i (4 * cs.length + 4) cs with
  | some (a, []) => some a
  | _ => none

end Regex
