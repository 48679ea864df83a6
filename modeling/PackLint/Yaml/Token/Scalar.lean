import PackLint.Yaml.Token

/-!
# Scalars

Reading plain, quoted and block scalars. Loops over the lines of a scalar are bounded by the
number of characters of the text.

A numeric escape may write half a surrogate pair, which is a code point but no `Char`. It is read as
the replacement character U+FFFD, where a text that is a list of code points keeps it and tells one
such half from another. What is said of the values and texts of scalars, and of the keys, ids and
options that are read from them, is meant for documents without such escapes. Offsets and positions
are not concerned: the escape takes the same characters of the document either way.
-/

namespace PackLint.Yaml.Scan

/-! ## Quoted scalars -/

/-- The character that a one-letter escape of a double quoted scalar stands for. -/
def escapedChar? : Char → Option Char
  | '0' => some '\x00'
  | 'a' => some '\x07'
  | 'b' => some '\x08'
  | 't' => some '\t'
  | '\t' => some '\t'
  | 'n' => some '\n'
  | 'v' => some '\x0b'
  | 'f' => some '\x0c'
  | 'r' => some '\r'
  | 'e' => some '\x1b'
  | ' ' => some ' '
  | '"' => some '"'
  | '/' => some '/'
  | '\\' => some '\\'
  | 'N' => some '\x85'
  | '_' => some '\xa0'
  | 'L' => some '\u2028'
  | 'P' => some '\u2029'
  | _ => none

/-- The number of digits behind the letter of a numeric escape. -/
def escapeWidth? : Char → Option Nat
  | 'x' => some 2
  | 'u' => some 4
  | 'U' => some 8
  | _ => none

/-- The blank lines inside a quoted scalar. -/
def quotedBreaks : Nat → List Char → Scan (List Char)
  | 0, acc => return acc
  | fuel + 1, acc => do
    if ← atDocumentBoundary then fail "unexpected document separator"
    skipWhile isInlineSpace
    match ← lineBreak? with
    | some c => quotedBreaks fuel (acc ++ [c])
    | none => return acc

/-- The folding of a line break followed by blank lines. -/
def foldBreaks (first : Char) (breaks : List Char) : List Char :=
  if first ≠ '\n' then first :: breaks else if breaks.isEmpty then [' '] else breaks

/-- Spaces and line breaks inside a quoted scalar. -/
def quotedSpaces : Scan (List Char) := do
  let spaces ← span isInlineSpace
  if (← get).rest.isEmpty then fail "unexpected end of a quoted scalar"
  match ← lineBreak? with
  | some c => return foldBreaks c (← quotedBreaks ((← size) + 1) [])
  | none => return spaces

/-- The number that `width` hexadecimal digits write at the start of a text. -/
def hexNumber? (width : Nat) (text : List Char) : Option Nat :=
  let digits := text.take width
  if digits.length = width && digits.all (fun c => (hexValue? c).isSome) then
    some (digits.foldl (fun n c => 16 * n + (hexValue? c).getD 0) 0)
  else none

/-- The number of an escape that stands for the second half of a surrogate pair. -/
def lowSurrogate? : List Char → Option Nat
  | '\\' :: 'u' :: text => (hexNumber? 4 text).filter fun n => decide (0xDC00 ≤ n ∧ n ≤ 0xDFFF)
  | _ => none

/-- Reads the digits of a numeric escape. A surrogate pair is one character. Half a pair, which no
`Char` can hold, is the replacement character. -/
def numericEscape (width : Nat) : Scan Char := do
  match hexNumber? width (← get).rest with
  | none => fail "expected an escape of hexadecimal digits"
  | some n =>
    skip width
    if 0x10FFFF < n then throw (.noSuchCharacter n)
    else if 0xD800 ≤ n ∧ n ≤ 0xDFFF then
      match lowSurrogate? (← get).rest with
      | some low =>
        if n ≤ 0xDBFF then
          skip 6
          return Char.ofNat (0x10000 + (n - 0xD800) * 0x400 + (low - 0xDC00))
        else return '\uFFFD'
      | none => return '\uFFFD'
    else return Char.ofNat n

/-- What an escape of a double quoted scalar stands for; its backslash has been read. -/
def escapeText : Scan (List Char) := do
  let c ← peek
  match escapedChar? c, escapeWidth? c with
  | some d, _ =>
    skip 1
    return [d]
  | none, some width =>
    skip 1
    return [← numericEscape width]
  | none, none =>
    match ← lineBreak? with
    | some _ => quotedBreaks ((← size) + 1) []
    | none => fail "unknown escape"

/-- The characters that a quoted scalar may hold as they are, in either kind. -/
def isQuotedChar (c : Char) : Bool :=
  !(isGap c || c = '\'' || c = '"' || c = '\\')

/-- The characters of a quoted scalar up to the next space, break or closing quote. -/
def quotedRun (double : Bool) : Nat → List Char → Scan (List Char)
  | 0, acc => return acc
  | fuel + 1, acc => do
    let acc := acc ++ (← span isQuotedChar)
    let c ← peek
    if !double && c = '\'' && (← peekAt 1) = '\'' then
      skip 2
      quotedRun double fuel (acc ++ ['\''])
    else if double && c = '\'' || !double && (c = '"' || c = '\\') then
      skip 1
      quotedRun double fuel (acc ++ [c])
    else if double && c = '\\' then
      skip 1
      quotedRun double fuel (acc ++ (← escapeText))
    else return acc

/-- The text of a quoted scalar up to its closing quote. -/
def quotedText (double : Bool) : Nat → List Char → Scan (List Char)
  | 0, acc => return acc
  | fuel + 1, acc => do
    let acc := acc ++ (← quotedRun double ((← size) + 1) [])
    if (← peek) = (if double then '"' else '\'') then return acc
    else quotedText double fuel (acc ++ (← quotedSpaces))

/-- Reads a quoted scalar. -/
def quoted (double : Bool) : Scan Token := do
  let start ← mark
  skip 1
  let text ← quotedText double ((← size) + 1) []
  skip 1
  return ⟨.scalar text (if double then .doubleQuoted else .singleQuoted), start, ← mark⟩

/-! ## Plain scalars -/

/-- Whether a plain scalar ends before `c`, which `next` follows. -/
def endsPlain (version : Version) (inFlow : Bool) (c next : Char) : Bool :=
  if c = ':' && !isGap next then false
  else if c = '?' && version ≠ .v1_1 then false
  else isGap c || (!inFlow && c = ':') || (inFlow && ",:?[]\x7b\x7d".toList.contains c)

/-- The number of characters of a plain scalar at the start of a text. -/
def plainLength (version : Version) (inFlow : Bool) : List Char → Nat
  | [] => 0
  | c :: cs =>
    if endsPlain version inFlow c (cs.head?.getD endChar) then 0
    else plainLength version inFlow cs + 1

/-- The blank lines inside a plain scalar; none when a document boundary comes first. -/
def plainBreaks : Nat → List Char → Scan (Option (List Char))
  | 0, acc => return some acc
  | fuel + 1, acc => do
    if (← peek) = ' ' then
      skip 1
      plainBreaks fuel acc
    else
      match ← lineBreak? with
      | none => return some acc
      | some c =>
        if ← atDocumentBoundary then return none
        else plainBreaks fuel (acc ++ [c])

/-- The spaces and breaks behind a piece of a plain scalar, folded, and whether a line ended; an
empty answer means that the scalar ends. -/
def plainSpaces : Scan (List Char × Bool) := do
  let spaces ← span (· = ' ')
  match ← lineBreak? with
  | none => return (spaces, false)
  | some c =>
    if ← atDocumentBoundary then return ([], true)
    else
      match ← plainBreaks ((← size) + 1) [] with
      | none => return ([], true)
      | some breaks => return (foldBreaks c breaks, true)

/-- A plain scalar that has been read up to `stop`. -/
structure PlainScalar where
  text : List Char
  stop : Mark
  /-- Whether a line ended behind the last piece. -/
  lineEnded : Bool

/-- The pieces of a plain scalar; `spaces` stands before the next piece. -/
def plainPieces (version : Version) (inFlow : Bool) (indent : Nat) :
    Nat → List Char → PlainScalar → Scan PlainScalar
  | 0, _, acc => return acc
  | fuel + 1, spaces, acc => do
    if (← peek) = '#' then return acc
    let n := plainLength version inFlow (← get).rest
    if n = 0 then return acc
    let piece ← take n
    let stop ← mark
    let (after, ended) ← plainSpaces
    let acc : PlainScalar := ⟨acc.text ++ spaces ++ piece, stop, ended⟩
    let column := (← mark).column
    if after.isEmpty || (← peek) = '#' || (!inFlow && decide (column < indent)) then return acc
    else plainPieces version inFlow indent fuel after acc

/-- Reads a plain scalar whose lines stand at `indent` or further right, and whether a line ended
behind its last piece. -/
def plain (version : Version) (inFlow : Bool) (indent : Nat) : Scan (Token × Bool) := do
  let start ← mark
  let scalar ← plainPieces version inFlow indent ((← size) + 1) [] ⟨[], start, false⟩
  return (⟨.scalar scalar.text .plain, start, scalar.stop⟩, scalar.lineEnded)

/-! ## Block scalars -/

/-- What becomes of the line breaks at the end of a block scalar. -/
inductive Chomping where
  | strip
  | clip
  | keep
deriving DecidableEq

/-- Reads the digit that sets the indentation of a block scalar. -/
def indentDigit? : Scan (Option Nat) := do
  let c ← peek
  if c.isDigit then
    if c = '0' then fail "expected an indentation in the range 1-9"
    skip 1
    return some (c.toNat - 48)
  else return none

/-- Reads the sign that sets the chomping of a block scalar. -/
def chompingSign? : Scan (Option Chomping) := do
  let c ← peek
  if c = '+' then
    skip 1
    return some .keep
  else if c = '-' then
    skip 1
    return some .strip
  else return none

/-- Reads the indicators of a block scalar, in either order. -/
def blockIndicators : Scan (Chomping × Option Nat) := do
  let indicators ← match ← chompingSign? with
    | some chomping => pure (chomping, ← indentDigit?)
    | none =>
      match ← indentDigit? with
      | some n => pure ((← chompingSign?).getD .clip, some n)
      | none => pure (.clip, none)
  let c ← peek
  if c ≠ ' ' ∧ !isLineEnd c then fail "expected chomping or indentation indicators"
  return indicators

/-- The lines before the first text of a block scalar whose indentation is not given: their
breaks, the width of the widest, and the place behind the last break. `first` is the column at
which the first of them ended. -/
def blockIndentation : Nat → List Char → Option Nat → Nat → Mark →
    Scan (List Char × Nat × Mark)
  | 0, breaks, _, width, stop => return (breaks, width, stop)
  | fuel + 1, breaks, first, width, stop => do
    if (← peek) = ' ' then
      skip 1
      blockIndentation fuel breaks first (max width (← mark).column) stop
    else
      let column := (← mark).column
      match ← lineBreak? with
      | some c =>
        blockIndentation fuel (breaks ++ [c]) (first.or (some column)) width (← mark)
      | none =>
        match first with
        | some n =>
          if 0 < n ∧ n < width then
            throw (.malformed "more indented follow up line than first in a block scalar" none)
        | none => pure ()
        return (breaks, width, stop)

/-- Passes over the spaces of the indentation. -/
def skipIndent (indent : Nat) : Nat → Scan Unit
  | 0 => return
  | fuel + 1 => do
    if decide ((← mark).column < indent) && (← peek) = ' ' then
      skip 1
      skipIndent indent fuel

/-- The blank lines before a line of a block scalar, and the place behind the last break. -/
def blockBreaks (indent : Nat) : Nat → List Char → Mark → Scan (List Char × Mark)
  | 0, breaks, stop => return (breaks, stop)
  | fuel + 1, breaks, stop => do
    skipIndent indent indent
    match ← lineBreak? with
    | some c => blockBreaks indent fuel (breaks ++ [c]) (← mark)
    | none => return (breaks, stop)

/-- The lines of a block scalar that have been read: the text up to the last line, the break
behind it, the blank lines that follow, and the place behind the last break. -/
structure BlockLines where
  text : List Char
  lineBreak : Option Char
  breaks : List Char
  stop : Mark

/-- What stands for the line break `c` between two lines of a block scalar. -/
def blockFold (folded betweenText : Bool) (c : Option Char) (breaks : List Char) : List Char :=
  if folded && c = some '\n' && betweenText then (if breaks.isEmpty then [' '] else [])
  else c.toList

/-- The lines of a block scalar at `indent`. At the outermost level, `watchful`, a document
boundary ends them. -/
def blockLines (folded watchful : Bool) (indent : Nat) :
    Nat → BlockLines → Scan BlockLines
  | 0, acc => return acc
  | fuel + 1, acc => do
    let textStarts := !isInlineSpace (← peek)
    let line ← span (!isLineEnd ·)
    let lineBreak ← lineBreak?
    let (breaks, stop) ← blockBreaks indent ((← size) + 1) [] (← mark)
    let done : BlockLines := ⟨acc.text ++ acc.breaks ++ line, lineBreak, breaks, stop⟩
    if watchful && (← mark).column = 0 && (← atDocumentBoundary) then return done
    else if (← mark).column = indent && !(← get).rest.isEmpty then
      let fold := blockFold folded (textStarts && !isInlineSpace (← peek)) lineBreak breaks
      blockLines folded watchful indent fuel { done with text := done.text ++ fold }
    else return done

/-- Reads a block scalar in a block whose indentation is below `minIndent`. -/
def block (folded : Bool) (minIndent : Nat) : Scan Token := do
  let start ← mark
  skip 1
  let (chomping, increment) ← blockIndicators
  skipWhile (· = ' ')
  skipComment
  if !isLineEnd (← peek) then fail "expected a comment or a line break"
  let _ ← lineBreak?
  let fuel := (← size) + 1
  let (indent, breaks, stop) ← match increment with
    | none =>
      let (breaks, width, stop) ← blockIndentation fuel [] none 0 (← mark)
      pure (max minIndent width, breaks, stop)
    | some n =>
      let indent := max minIndent 1 + n - 1
      let (breaks, stop) ← blockBreaks indent fuel [] (← mark)
      pure (indent, breaks, stop)
  let watchful := increment.isNone && minIndent = 0
  let first : BlockLines := ⟨[], none, breaks, stop⟩
  let lines ←
    if (← mark).column = indent && !(← get).rest.isEmpty then
      blockLines folded watchful indent ((← size) + 1) first
    else pure first
  let ending := match chomping with
    | .strip => []
    | .clip => lines.lineBreak.toList
    | .keep => lines.lineBreak.toList ++ lines.breaks
  let text := lines.text ++ ending
  return ⟨.scalar text (if folded then .folded else .literal), start, lines.stop⟩

end PackLint.Yaml.Scan
