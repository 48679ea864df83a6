import PackLint.Text.Digit

/-!
# Reading characters

A `Mark` is a place in a text: the index of a character, its line and its column. A `Cursor` is a
mark with the text behind it. `Scan` is reading from a cursor, which may end in an `Error`.

Marks count as lines what ends at a line feed or at a carriage return that no line feed follows;
the other breaks take a column instead. A byte order mark takes no column. The end of the text reads
as a NUL, which no text contains.
-/

namespace PackLint.Yaml

/-- A place in a text. -/
structure Mark where
  index : Nat := 0
  line : Nat := 0
  column : Nat := 0
deriving DecidableEq, Inhabited

/-- The version of the language that a text declares. -/
structure Version where
  major : Nat := 1
  minor : Nat := 2
deriving DecidableEq, Inhabited

namespace Version

/-- The older version, with other booleans, octal numbers and numbers of base sixty. -/
def v1_1 : Version := ⟨1, 1⟩

/-- The version of a text that declares none. -/
def v1_2 : Version := ⟨1, 2⟩

/-- Whether a version comes after 1.1. -/
def after1_1 (v : Version) : Bool :=
  decide (1 < v.major ∨ v.major = 1 ∧ 1 < v.minor)

end Version

/-- Why a text cannot be read. -/
inductive Error where
  /-- The text is not YAML, or holds a scalar that its tag does not allow. The mark is where that
  was noticed, if there is such a place. -/
  | malformed (problem : String) (mark : Option Mark)
  /-- An escape has a number that no character has. -/
  | noSuchCharacter (number : Nat)
  /-- The text declares a version that has no rules for plain scalars. -/
  | unknownVersion (version : Version)
  /-- A scalar is tagged as a boolean, and is none. Holds the scalar in lower case. -/
  | notABoolean (text : String)
  /-- A scalar is a number or a date by its tag, and is none. -/
  | notANumber (text : String)
  /-- A scalar is a number by its tag, and has nothing to read. -/
  | emptyNumber
  /-- A scalar is a moment that its fraction of a second moves behind the end of the calendar. -/
  | afterLastYear
deriving DecidableEq

/-! ## Cursors -/

/-- A place in a text and the text behind it. -/
structure Cursor where
  mark : Mark := {}
  rest : List Char
  /-- The number of characters of the whole text. -/
  size : Nat := rest.length

/-- The character that stands for the end of the text. -/
def endChar : Char := '\x00'

/-- The mark behind the character `c`, which the text `rest` follows. -/
def Mark.after (m : Mark) (c : Char) (rest : List Char) : Mark :=
  if c = '\n' ∨ c = '\r' ∧ rest.head? ≠ some '\n' then ⟨m.index + 1, m.line + 1, 0⟩
  else if c = '\uFEFF' then { m with index := m.index + 1 }
  else { m with index := m.index + 1, column := m.column + 1 }

namespace Cursor

/-- The character `k` places further on. -/
def peek (c : Cursor) (k : Nat) : Char := c.rest[k]?.getD endChar

/-- The cursor behind the next character. -/
def next (c : Cursor) : Cursor :=
  match c.rest with
  | [] => c
  | d :: ds => { c with mark := c.mark.after d ds, rest := ds }

/-- The cursor `n` characters further on. -/
def skip : Nat → Cursor → Cursor
  | 0, c => c
  | n + 1, c => skip n c.next

/-- The longest run of characters that `p` accepts, the mark behind it, and the text behind it. -/
def spanFrom (p : Char → Bool) (m : Mark) : List Char → List Char × Mark × List Char
  | [] => ([], m, [])
  | c :: cs =>
    if p c then
      let (run, after) := spanFrom p (m.after c cs) cs
      (c :: run, after)
    else ([], m, c :: cs)

/-- The longest run of characters that `p` accepts, and the cursor behind it. -/
def span (p : Char → Bool) (c : Cursor) : List Char × Cursor :=
  let (run, mark, rest) := spanFrom p c.mark c.rest
  (run, { c with mark, rest })

end Cursor

/-! ## Classes of characters -/

/-- A character that breaks a line: a line feed, a carriage return, a next line, or one of the two
Unicode separators. -/
def isBreak (c : Char) : Bool :=
  c = '\r' || c = '\n' || c = '\x85' || c = '\u2028' || c = '\u2029'

/-- A break or the end of the text. -/
def isLineEnd (c : Char) : Bool :=
  c = endChar || isBreak c

/-- A line end, a space or a tab. -/
def isGap (c : Char) : Bool :=
  c = ' ' || c = '\t' || isLineEnd c

/-- A space or a tab. -/
def isInlineSpace (c : Char) : Bool :=
  c = ' ' || c = '\t'

/-- A letter, a digit, a dash or an underscore. -/
def isWordChar (c : Char) : Bool :=
  c.isAlphanum || c = '-' || c = '_'

/-- A character that a text may contain. -/
def isAllowed (c : Char) : Bool :=
  let n := c.toNat
  c = '\t' || c = '\n' || c = '\r' || c = '\x85' || decide (0x20 ≤ n ∧ n ≤ 0x7E) ||
    decide (0xA0 ≤ n ∧ n ≤ 0xD7FF) || decide (0xE000 ≤ n ∧ n ≤ 0xFFFD) || decide (0x10000 ≤ n)

/-- A visible character other than the byte order mark. -/
def isVisible (c : Char) : Bool :=
  isAllowed c && decide (0x21 ≤ c.toNat) && c ≠ '\x85' && c ≠ '\uFEFF'

/-! ## Scanning -/

/-- Reading from a cursor. -/
abbrev Scan := StateT Cursor (Except Error)

namespace Scan

/-- The character `k` places further on. -/
def peekAt (k : Nat) : Scan Char := do
  return (← get).peek k

/-- The next character. -/
def peek : Scan Char := peekAt 0

/-- The place of the cursor. -/
def mark : Scan Mark := do
  return (← get).mark

/-- Moves on by `n` characters. -/
def skip (n : Nat) : Scan Unit := modify (·.skip n)

/-- Reads the longest run of characters that `p` accepts. -/
def span (p : Char → Bool) : Scan (List Char) := modifyGet (·.span p)

/-- Passes over the longest run of characters that `p` accepts. -/
def skipWhile (p : Char → Bool) : Scan Unit := do
  let _ ← span p

/-- Reads `n` characters. -/
def take (n : Nat) : Scan (List Char) := do
  let c ← get
  set (c.skip n)
  return c.rest.take n

/-- The number of characters of the whole text, as a bound for loops that read something in every
round. -/
def size : Scan Nat := do
  return (← get).size

/-- Gives up at the place of the cursor. -/
def fail (problem : String) : Scan α := do
  throw (.malformed problem (some (← mark)))

/-- Reads a line break, if there is one, and answers what it stands for: a line feed, or a Unicode
separator. -/
def lineBreak? : Scan (Option Char) := do
  let c ← peek
  if c = '\r' ∨ c = '\n' ∨ c = '\x85' then
    skip (if c = '\r' ∧ (← peekAt 1) = '\n' then 2 else 1)
    return some '\n'
  else if c = '\u2028' ∨ c = '\u2029' then
    skip 1
    return some c
  else return none

/-- Passes over the rest of the line if it is a comment. -/
def skipComment : Scan Unit := do
  if (← peek) = '#' then skipWhile (!isLineEnd ·)

/-- Whether the mark of a document start or end, three times `c`, stands here. -/
def atDocumentMark (c : Char) : Scan Bool := do
  return (← peek) = c && (← peekAt 1) = c && (← peekAt 2) = c && isGap (← peekAt 3)

/-- Whether a document starts or ends here. -/
def atDocumentBoundary : Scan Bool := do
  return (← atDocumentMark '-') || (← atDocumentMark '.')

end Scan

end PackLint.Yaml
