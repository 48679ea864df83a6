/-!
# Escaping the blocks of a skill line

A skill line is cut at characters that may also stand inside the `{...}` blocks of its parts.
`escape` hides those: inside a closed block every special character between quotes, and every
space and dash outside of quotes, becomes a sentinel such as `<&sp>`. `unescape` puts the
characters back, and `sourceCount` says how many characters of the line an initial part of the
escaped text stands for.

A block is closed at the brace that matches its first one, braces between quotes left aside. A
block that is never closed is left as it is, with all that follows.

Model of `unparse_block` (`escape`), `parse_string` (`unescape`) and `create_pos` (`sourceOffset`).
`piecesFrom` does in one pass over the line what `unparse_block` does block by block.
-/

namespace PackLint.SkillLine

/-! ## Sentinels -/

/-- The sentinels of the special characters (`SPECIAL_CHARACTERS`). -/
def specialSentinels : List (Char × List Char) :=
  [('-', "<&da>".toList), ('\\', "<&bs>".toList), ('/', "<&fs>".toList), (' ', "<&sp>".toList),
   (',', "<&cm>".toList), (';', "<&sc>".toList), ('=', "<&eq>".toList), ('{', "<&lc>".toList),
   ('}', "<&rc>".toList), ('[', "<&lb>".toList), (']', "<&rb>".toList), ('\'', "<&sq>".toList)]

/-- The sentinel of a space that stands in a block outside of quotes (`BLOCK_SPACE`). -/
def blockSpace : List Char := "<&csp>".toList

/-- All sentinels with the characters they stand for. -/
def sentinels : List (Char × List Char) :=
  specialSentinels ++ [(' ', blockSpace)]

/-- A character between quotes. -/
def hideQuoted (c : Char) : List Char :=
  (specialSentinels.lookup c).getD [c]

/-- A character of a block outside of quotes. -/
def hideUnquoted (c : Char) : List Char :=
  if c = ' ' then blockSpace else if c = '-' then hideQuoted c else [c]

/-- The sentinel that a text starts with, and the character it stands for (`_sentinel_at`). -/
def sentinel? (cs : List Char) : Option (Char × List Char) :=
  sentinels.find? fun s => s.2.isPrefixOf cs

/-! ## Quotes and blocks -/

/-- Whether a character opens a quotation. -/
def isQuote (c : Char) : Bool :=
  c = '"' || c = '\''

/-- The quotation that is open after `c`, given the one open before it. -/
def quoteAfter (quote : Option Char) (c : Char) : Option Char :=
  match quote with
  | some q => if c = q then none else some q
  | none => if isQuote c then some c else none

/-- The number of characters up to the brace that closes a block with `depth` open braces. -/
def blockLengthFrom (depth : Nat) (quote : Option Char) : List Char → Option Nat
  | [] => none
  | c :: cs =>
    let quote' := quoteAfter quote c
    if quote.isNone && c = '{' then (blockLengthFrom (depth + 1) quote' cs).map (· + 1)
    else if quote.isNone && c = '}' then
      if depth ≤ 1 then some 1 else (blockLengthFrom (depth - 1) quote' cs).map (· + 1)
    else (blockLengthFrom depth quote' cs).map (· + 1)

/-- The length of the block that a text starts with, if it is closed (`_block_end`). -/
def blockLength? (cs : List Char) : Option Nat :=
  blockLengthFrom 0 none cs

/-! ## Escaping -/

/-- Where in a line the escaping stands. -/
inductive Place where
  /-- Before, between or behind blocks. -/
  | outside
  /-- In a block that has `left` characters left, with the open quotation. -/
  | inside (left : Nat) (quote : Option Char)
  /-- Behind the start of a block that is never closed. -/
  | unclosed

/-- What a character of a block is escaped to (`_escape_block`). -/
def hide (quote : Option Char) (c : Char) : List Char :=
  match quote with
  | some q => if c = q then [c] else hideQuoted c
  | none => hideUnquoted c

/-- The place at the text `c :: cs`, once a block that ends or starts there is noticed. -/
def Place.settle (cs : List Char) : Place → Place
  | inside (n + 1) quote => inside (n + 1) quote
  | unclosed => unclosed
  | _ =>
    if cs.head? = some '{' then
      match blockLength? cs with
      | some n => inside n none
      | none => unclosed
    else outside

/-- What each character of the text is escaped to. -/
def piecesFrom (place : Place) : List Char → List (List Char)
  | [] => []
  | c :: cs =>
    match place.settle (c :: cs) with
    | .inside (n + 1) quote => hide quote c :: piecesFrom (.inside n (quoteAfter quote c)) cs
    | .inside 0 _ => [c] :: piecesFrom .outside cs
    | .outside => [c] :: piecesFrom .outside cs
    | .unclosed => [c] :: piecesFrom .unclosed cs

/-- What each character of a line is escaped to. -/
def pieces (cs : List Char) : List (List Char) :=
  piecesFrom .outside cs

/-- A line with the contents of its closed blocks hidden (`unparse_block`). -/
def escape (cs : List Char) : List Char :=
  (pieces cs).flatten

/-! ## Unescaping -/

/-- The text with its sentinels put back, the first `skip` characters left out. -/
def unescapeFrom (skip : Nat) : List Char → List Char
  | [] => []
  | c :: cs =>
    match skip with
    | n + 1 => unescapeFrom n cs
    | 0 =>
      match sentinel? (c :: cs) with
      | some (d, s) => d :: unescapeFrom (s.length - 1) cs
      | none => c :: unescapeFrom 0 cs

/-- The text with the characters that its sentinels stand for (`parse_string`). -/
def unescape (cs : List Char) : List Char :=
  unescapeFrom 0 cs

/-- How many characters the first `idx` characters of an escaped text stand for, a sentinel
counting from its first character on, the first `skip` characters left out. Behind the end every
place counts. -/
def sourceCountFrom (skip idx : Nat) (cs : List Char) : Nat :=
  match idx, cs with
  | 0, _ => 0
  | n + 1, [] => n + 1
  | n + 1, c :: cs =>
    match skip with
    | k + 1 => sourceCountFrom k n cs
    | 0 => 1 + sourceCountFrom (((sentinel? (c :: cs)).map (·.2.length)).getD 1 - 1) n cs

/-- How many characters of a line the first `idx` characters of its escaped text stand for. -/
def sourceCount (escaped : List Char) (idx : Nat) : Nat :=
  sourceCountFrom 0 idx escaped

/-- The source offset of the index `idx` of an escaped text that starts at `offset`
(`create_pos`). -/
def sourceOffset (escaped : List Char) (offset : Int) (idx : Nat) : Int :=
  sourceCount escaped idx + offset

end PackLint.SkillLine
