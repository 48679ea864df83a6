import PackLint.Yaml.Token

/-!
# Directives, anchors and tags

Reading the tokens that start with `%`, `*`, `&` and `!`.
-/

namespace PackLint.Yaml.Scan

/-! ## Tags -/

/-- A character that may stand in the address of a tag. -/
def isUriChar (version : Version) (c : Char) : Bool :=
  c.isAlphanum || "-;/?:@&=+$,_.!~*'()[]%".toList.contains c || version.after1_1 && c = '#'

/-- Whether bytes are a text in UTF-8. -/
def isUtf8 (bytes : List Nat) : Bool :=
  (ByteArray.mk (bytes.map UInt8.ofNat).toArray).validateUTF8

/-- Passes over a run of escapes such as `%41`, whose bytes must be a text in UTF-8; a run that is
none is an error at its start. `bytes` are those before, the latest first. -/
def skipUriEscapes (start : Mark) : Nat → List Nat → Scan Unit
  | 0, _ => return
  | fuel + 1, bytes => do
    if (← peek) ≠ '%' then
      if !isUtf8 bytes.reverse then throw (.malformed "escapes are not UTF-8" (some start))
    else
      skip 1
      match hexValue? (← peek), hexValue? (← peekAt 1) with
      | some a, some b =>
        skip 2
        skipUriEscapes start fuel ((16 * a + b) :: bytes)
      | _, _ => fail "expected an escape of two hexadecimal digits"

/-- Reads the characters of an address. -/
def uriChars (version : Version) : Nat → List Char → Scan (List Char)
  | 0, acc => return acc
  | fuel + 1, acc => do
    let c ← peek
    if c = '%' then
      let before ← get
      skipUriEscapes before.mark ((← size) + 1) []
      let width := (← mark).index - before.mark.index
      uriChars version fuel (acc ++ before.rest.take width)
    else if isUriChar version c then
      let run ← span fun c => isUriChar version c && c ≠ '%'
      uriChars version fuel (acc ++ run)
    else return acc

/-- Reads the address of a tag as it is written. -/
def tagUri (version : Version) : Scan (List Char) := do
  let uri ← uriChars version ((← size) + 1) []
  if uri.isEmpty then fail "expected the address of a tag"
  return uri

/-- The text of an address in which every escape stands for the character with its number. -/
def decodeUri : List Char → List Char
  | '%' :: a :: b :: cs =>
    Char.ofNat (16 * (hexValue? a).getD 0 + (hexValue? b).getD 0) :: decodeUri cs
  | c :: cs => c :: decodeUri cs
  | [] => []

/-- Reads the address of a tag, with its escapes. -/
def tagSuffix (version : Version) : Scan String := do
  return String.ofList (decodeUri (← tagUri version))

/-- Reads a handle such as `!`, `!!` or `!name!`. -/
def tagHandle : Scan String := do
  if (← peek) ≠ '!' then fail "expected '!'"
  skip 1
  if (← peek) = ' ' then return "!"
  else
    let word ← span isWordChar
    if (← peek) ≠ '!' then fail "expected '!'"
    skip 1
    return String.ofList ('!' :: word ++ ['!'])

/-- Whether a `!` stands in the text before the next space or break. -/
def handleAhead : List Char → Bool
  | [] => false
  | c :: cs => if c = '!' then true else if c = ' ' || isLineEnd c then false else handleAhead cs

/-- Reads a tag. -/
def tag (version : Version) : Scan Token := do
  let start ← mark
  let double := (← peekAt 1) = '!'
  let short := if double then "!!" else "!"
  if double then skip 1
  let c ← peekAt 1
  let kind ←
    if c = '<' then
      skip 2
      let suffix ← tagSuffix version
      if (← peek) ≠ '>' then fail "expected '>'"
      skip 1
      pure (TokenKind.tag none suffix)
    else if isGap c then
      skip 1
      pure (TokenKind.tag none short)
    else
      let ahead := handleAhead ((← get).rest.drop 1)
      let handle ← if ahead then tagHandle else (do skip 1; pure short)
      let suffix ← tagSuffix version
      pure (TokenKind.tag (some handle) suffix)
  let c ← peek
  if c ≠ ' ' ∧ !isLineEnd c then fail "expected a space behind a tag"
  return ⟨kind, start, ← mark⟩

/-! ## Anchors -/

/-- A character of the name of an anchor. -/
def isAnchorChar (c : Char) : Bool :=
  isVisible c && !",[]\x7b\x7d".toList.contains c

/-- Reads an alias or an anchor. -/
def anchor (kind : String → TokenKind) : Scan Token := do
  let start ← mark
  skip 1
  let name ← span isAnchorChar
  if name.isEmpty then fail "expected a name"
  let c ← peek
  if !(isGap c || "?:,[]\x7b\x7d%@`".toList.contains c) then
    fail "unexpected character in a name"
  return ⟨kind (String.ofList name), start, ← mark⟩

/-! ## Directives -/

/-- Reads a decimal number. -/
def directiveNumber : Scan Nat := do
  let digits ← span Char.isDigit
  if digits.isEmpty then fail "expected a digit"
  return digits.foldl (fun n c => 10 * n + (c.toNat - 48)) 0

/-- Fails unless the directive may end here. -/
def directiveEnd : Scan Unit := do
  let c ← peek
  if c ≠ ' ' ∧ !isLineEnd c then fail "unexpected character in a directive"

/-- Reads what a version directive holds. -/
def versionDirective : Scan TokenKind := do
  skipWhile (· = ' ')
  let major ← directiveNumber
  if (← peek) ≠ '.' then fail "expected a digit or '.'"
  skip 1
  let minor ← directiveNumber
  directiveEnd
  return .versionDirective ⟨major, minor⟩

/-- Reads what a tag directive holds. An escape in the expansion stands for itself. -/
def tagDirective (version : Version) : Scan TokenKind := do
  skipWhile (· = ' ')
  let handle ← tagHandle
  if (← peek) ≠ ' ' then fail "expected ' '"
  skipWhile (· = ' ')
  let expansion ← tagUri version
  directiveEnd
  return .tagDirective handle (String.ofList expansion)

/-- Reads a directive with the rest of its line. -/
def directive (version : Version) : Scan Token := do
  let start ← mark
  skip 1
  let name ← span fun c => isWordChar c || c = ':' || c = '.'
  if name.isEmpty then fail "expected the name of a directive"
  directiveEnd
  let kind ← match String.ofList name with
    | "YAML" => versionDirective
    | "TAG" => tagDirective version
    | _ => pure .otherDirective
  let stop ← mark
  if kind = .otherDirective then skipWhile (!isLineEnd ·)
  skipWhile (· = ' ')
  skipComment
  if !isLineEnd (← peek) then fail "expected a comment or a line break"
  let _ ← lineBreak?
  return ⟨kind, start, stop⟩

end PackLint.Yaml.Scan
