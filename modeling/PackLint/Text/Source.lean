import PackLint.Text.Position
import PackLint.Text.Blank

/-!
# Source texts

A `Source` is a text with the offsets at which its lines start. Offsets count characters (code
points) and lines end with a line feed. `position` and `offset` convert between offsets and
positions; both clamp what lies outside the text. Model of the positions of `MythicDoc`.
-/

namespace PackLint

/-- The offsets behind the line feeds of `cs`, where `cs` itself starts at `start`. -/
def lineStartsAfter (start : Nat) : List Char → List Nat
  | [] => []
  | c :: cs =>
    if c = '\n' then (start + 1) :: lineStartsAfter (start + 1) cs
    else lineStartsAfter (start + 1) cs

/-- The offsets at which the lines of `cs` start; the first line starts at 0. -/
def lineStartsOf (cs : List Char) : List Nat :=
  0 :: lineStartsAfter 0 cs

/-- A text together with the starts of its lines. -/
structure Source where
  chars : Array Char
  lineStarts : Array Nat := (lineStartsOf chars.toList).toArray
  lineStarts_eq : lineStarts = (lineStartsOf chars.toList).toArray := by rfl

namespace Source

/-- The source holding the characters `cs`. -/
def ofList (cs : List Char) : Source where
  chars := cs.toArray

/-- The source holding the text `s`. -/
def ofString (s : String) : Source :=
  ofList s.toList

variable (src : Source)

/-- The number of characters. -/
def size : Nat := src.chars.size

/-- The characters in order. -/
def toList : List Char := src.chars.toList

/-- The whole text. -/
def text : String := String.ofList src.toList

/-- The number of lines; a text without line feeds has one. -/
def lineCount : Nat := src.lineStarts.size

/-- The characters from offset `start` up to `stop`. -/
def slice (start stop : Nat) : List Char :=
  (src.chars.extract start stop).toList

/-- The part of the text from `start` up to `stop`. -/
def sliceText (start stop : Nat) : String :=
  String.ofList (src.slice start stop)

/-- An offset moved into the text if it lies outside. -/
def clamp (offset : Int) : Nat :=
  min offset.toNat src.size

/-- The line that holds the offset `o`: the last one starting at or before it. -/
def lineOf (o : Nat) : Nat :=
  src.lineStarts.countP (· ≤ o) - 1

/-- The start of line `line`. -/
def lineStart (line : Nat) : Nat :=
  src.lineStarts.getD line 0

/-- The end of line `line`, before its line feed (`_line_end`). -/
def lineEnd (line : Nat) : Nat :=
  if line + 1 < src.lineCount then src.lineStart (line + 1) - 1 else src.size

/-- The position of an offset, which is clamped to the text (`offset_to_position`). -/
def position (offset : Int) : Position :=
  let o := src.clamp offset
  let line := src.lineOf o
  ⟨line, (o : Int) - src.lineStart line⟩

/-- The offset of a position, clamped to its line, or to the text when the line is not there
(`position_to_offset`). -/
def offset (p : Position) : Nat :=
  if p.line < 0 then 0
  else if src.lineCount ≤ p.line then src.size
  else
    let line := p.line.toNat
    min (src.lineStart line + p.character.toNat) (src.lineEnd line)

/-- The range between two offsets (`to_range`). -/
def range (start stop : Int) : Range :=
  ⟨src.position start, src.position stop⟩

/-- The text of a line without its line feed; empty for a line that is not there (`line_text`). -/
def lineText (line : Int) : String :=
  if line < 0 ∨ src.lineCount ≤ line then ""
  else src.sliceText (src.lineStart line.toNat) (src.lineEnd line.toNat)

/-- The offset of the first character at or after `o` that is not blank (`next_non_whitespace`). -/
def nextNonBlank (o : Nat) : Nat :=
  o + ((src.slice o src.size).takeWhile isBlank).length

end Source

end PackLint
