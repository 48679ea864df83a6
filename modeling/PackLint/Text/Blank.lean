import PackLint.Text.CharRange

/-!
# Blank characters

The white space of the Unicode standard together with the four information separators
U+001C to U+001F, and the removal of blanks from the ends of a text. Where the separators do not
count as blanks, `isWhiteSpace` is the rule. `isBlank` is `isspace`, and `trim` is `strip`.
-/

namespace PackLint

/-- The blank characters. -/
def blankRanges : List CharRange :=
  [⟨0x0009, 0x000D⟩, ⟨0x001C, 0x0020⟩, ⟨0x0085, 0x0085⟩, ⟨0x00A0, 0x00A0⟩,
   ⟨0x1680, 0x1680⟩, ⟨0x2000, 0x200A⟩, ⟨0x2028, 0x2029⟩, ⟨0x202F, 0x202F⟩,
   ⟨0x205F, 0x205F⟩, ⟨0x3000, 0x3000⟩]

/-- Whether a character is blank. -/
def isBlank (c : Char) : Bool :=
  CharRange.anyContains blankRanges c

/-- Whether a character is an information separator. -/
def isSeparator (c : Char) : Bool :=
  decide ('\x1c' ≤ c ∧ c ≤ '\x1f')

/-- Whether a character is white space: a blank other than the information separators. -/
def isWhiteSpace (c : Char) : Bool :=
  isBlank c && !isSeparator c

theorem isBlank_of_isWhitespace {c : Char} (h : c.isWhitespace) : isBlank c := by
  simp only [Char.isWhitespace, Bool.or_eq_true, decide_eq_true_eq] at h
  rcases h with ((rfl | rfl) | rfl) | rfl <;> decide

/-- The text without the blanks it starts with. -/
def trimStart (cs : List Char) : List Char :=
  cs.dropWhile isBlank

/-- The text without the blanks it ends with. -/
def trimEnd (cs : List Char) : List Char :=
  (cs.reverse.dropWhile isBlank).reverse

/-- The text without the blanks at both ends. -/
def trim (cs : List Char) : List Char :=
  trimEnd (trimStart cs)

/-- The text without the white space at both ends. -/
def trimWhiteSpace (cs : List Char) : List Char :=
  ((cs.dropWhile isWhiteSpace).reverse.dropWhile isWhiteSpace).reverse

end PackLint
