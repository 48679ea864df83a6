import PackLint.SkillLine.Token
import PackLint.Number.Reading
import PackLint.Text.Case

/-!
# Configured names

A `LineConfig` is one `name{key=value;key=value}` of a skill line, read from its escaped text.
Its entries are cut at the semicolons outside of inner braces and brackets; an entry is a key in
lower case, an equals sign and a value, with the blanks around key and value left out.
`LineConfig.parse` collects what is wrong in the report, `withHighlights` adds the colours. Model of
`ConfigValue` and `LineConfig`.
-/

namespace PackLint

/-- One `key=value` of a block, with the semicolon behind it if there is one (`ConfigValue`). -/
structure ConfigEntry where
  key : LineToken
  equals : LineToken
  value : LineToken
  semicolon : Option LineToken := none

/-- A name with its block. `source` is the escaped text, `offset` the source offset of its start. -/
structure LineConfig where
  source : List Char
  offset : Int
  main : Option LineToken := none
  openBrace : Option LineToken := none
  closeBrace : Option LineToken := none
  entries : List ConfigEntry := []
  report : Report := .empty

namespace LineConfig

/-! ## Trimming -/

/-- The number of blank characters at the start of a text, where `space` counts as blank too; the
first `skip` characters are blank. -/
def leadingBlanks (space : List Char) (skip : Nat) : List Char → Nat
  | [] => 0
  | c :: cs =>
    match skip with
    | n + 1 => leadingBlanks space n cs + 1
    | 0 =>
      if isBlank c then leadingBlanks space 0 cs + 1
      else if space.isPrefixOf (c :: cs) then leadingBlanks space (space.length - 1) cs + 1
      else 0

/-- The span `start` to `stop` of a text without the blanks and block spaces at its ends
(`_strip_span`). -/
def trimSpan (text : List Char) (start stop : Nat) : Nat × Nat :=
  let span := (text.take stop).drop start
  let front := leadingBlanks SkillLine.blockSpace 0 span
  let back := leadingBlanks SkillLine.blockSpace.reverse 0 (span.drop front).reverse
  (start + front, stop - back)

/-! ## Entries -/

/-- A piece of a block body between semicolons: its span, and whether a semicolon ends it. -/
structure Piece where
  start : Nat
  stop : Nat
  terminated : Bool

/-- The pieces of the body `cs`, which starts at index `i`; the current piece starts at `start`
(`_parse_entries`). -/
def piecesFrom (start i : Nat) (depth : Int) : List Char → List Piece
  | [] => [⟨start, i, false⟩]
  | c :: cs =>
    let depth :=
      if c = '{' ∨ c = '[' then depth + 1 else if c = '}' ∨ c = ']' then depth - 1 else depth
    if c = ';' ∧ depth = 0 then ⟨start, i, true⟩ :: piecesFrom (i + 1) (i + 1) depth cs
    else piecesFrom start (i + 1) depth cs

variable (src : Source) (c : LineConfig)

/-- The source offset of an index of the escaped text. -/
def pos (idx : Nat) : Int := SkillLine.sourceOffset c.source c.offset idx

/-- The token over a span of the escaped text. -/
def token (start stop : Nat) : LineToken := .covering c.source c.offset start stop

/-- The token of a single mark. -/
def mark (idx : Nat) (value : String) : LineToken := ⟨value, c.pos idx, c.pos (idx + 1)⟩

/-- A problem on a span of the escaped text, added to the report (`_diagnostic`). -/
def problem (start stop : Nat) (message : String) (code : DiagnosticCode) : LineConfig :=
  let d : Diagnostic := { range := src.range (c.pos start) (c.pos stop), message, code }
  { c with report := c.report.merge (.ofDiagnostic d) }

/-- Adds the entry that a piece of the body holds; a piece of blanks holds none (`_parse_entry`). -/
def addPiece (p : Piece) : LineConfig :=
  let (start, stop) := trimSpan c.source p.start p.stop
  if start = stop then c
  else
    let span := (c.source.take stop).drop start
    match span.findIdx? (· = '=') with
    | none =>
      c.problem src start stop
        ("Expected `key=value`, but got `" ++ String.ofList (SkillLine.unescape span) ++ "`.")
        .missingEquals
    | some i =>
      let (keyStart, keyStop) := trimSpan c.source start (start + i)
      let (valueStart, valueStop) := trimSpan c.source (start + i + 1) stop
      let key := c.token keyStart keyStop
      let key := { key with value := lowerText key.value }
      let entry : ConfigEntry :=
        { key
          equals := c.mark (start + i) "="
          value := c.token valueStart valueStop
          semicolon := if p.terminated then some (c.mark p.stop ";") else none }
      let repeated := c.entries.any (·.key.value = key.value)
      let c := { c with entries := c.entries ++ [entry] }
      if repeated then c.problem src start stop ("Duplicate key: " ++ key.value) .duplicateKey
      else c

/-! ## Parsing -/

/-- The index of the last character equal to `x`. -/
def lastIdx? (x : Char) (text : List Char) : Option Nat :=
  (text.reverse.findIdx? (· = x)).map (text.length - 1 - ·)

/-- Reads a text that holds a brace (`_parse_block`). -/
def readBlock : LineConfig :=
  let text := c.source
  let opening? := text.findIdx? (· = '{')
  let closing? := lastIdx? '}' text
  let closed? := match opening?, closing? with
    | some o, some k => if o < k then some k else none
    | none, some k => some k
    | _, none => none
  let c :=
    if text.count '{' = text.count '}' then c
    else c.problem src (opening?.getD 0) ((closed?.map (· + 1)).getD text.length)
      "Mismatched braces!" .mismatchedBraces
  match opening? with
  | none => { c with main := some (c.token 0 text.length) }
  | some o =>
    let c := { c with
      main := some (c.token 0 o)
      openBrace := some (c.mark o "\x7b")
      closeBrace := closed?.map (c.mark · "\x7d") }
    let bodyStop := closed?.getD text.length
    (piecesFrom (o + 1) (o + 1) 0 ((text.take bodyStop).drop (o + 1))).foldl (addPiece src) c

/-- Reads a text that holds a bracket and no brace (`_parse_bracket`). -/
def readBracket : LineConfig :=
  let text := c.source
  match text.findIdx? (· = '['), text.findIdx? (· = ']') with
  | some o, some k =>
    if text.count '[' = 1 ∧ text.count ']' = 1 ∧ o < k then
      { c with
        main := some (c.token 0 o)
        openBrace := some (c.mark o "[")
        closeBrace := some (c.mark k "]") }
    else c.problem src 0 text.length "Invalid block syntax!" .invalidBlockSyntax
  | _, _ => c.problem src 0 text.length "Invalid block syntax!" .invalidBlockSyntax

/-- Reads the escaped text of a configuration that has not been read yet (`_parse`). -/
def read : LineConfig :=
  let text := c.source
  if text.contains '{' || text.contains '}' then c.readBlock src
  else if text.contains '[' || text.contains ']' then c.readBracket src
  else { c with main := some (c.token 0 text.length) }

/-- Reads the escaped text `source`, which starts at `offset` of the document `src`. -/
def parse (source : List Char) (offset : Int) : LineConfig :=
  read src { source, offset }

/-! ## Queries -/

/-- The first entry that has one of the keys, which are in lower case. -/
def get? (keys : List String) : Option ConfigEntry :=
  c.entries.find? fun e => keys.contains e.key.value

/-- Whether a value reads as a number (`_is_number`). -/
def isNumber (value : String) : Bool :=
  (readFloat? value.toList).isSome

/-- The highlights of an entry. -/
def entryHighlights (e : ConfigEntry) : Report :=
  let color := if isNumber e.value.value then TextClass.number else .string
  .mergeAll
    [e.key.highlight src .property, e.equals.highlight src .operator,
     e.value.highlight src color, LineToken.highlight? src .operator e.semicolon]

/-- The highlights of the braces and the entries. -/
def highlights : Report :=
  .mergeAll
    (LineToken.highlight? src .operator c.openBrace ::
      LineToken.highlight? src .operator c.closeBrace :: c.entries.map (entryHighlights src))

/-- The configuration with its highlights in the report (`add_highlights`). -/
def withHighlights : LineConfig :=
  { c with report := c.report.merge (c.highlights src) }

end LineConfig

end PackLint
