import PackLint.Yaml.Token.Property
import PackLint.Yaml.Token.Scalar

/-!
# The tokens of a text

`Lexer` reads a text token by token. It keeps the indentation of the open blocks and the places
where a simple key may start: when a `:` follows, the key token is put in front of the tokens read
since. A place stops being one at the end of its line or after 1024 characters.

`Token.stream` reads a whole text. A text with a fault still has the tokens that can be told for
sure before the fault is noticed; those are `TokenStream.tokens`.
-/

namespace PackLint.Yaml

/-- A place where a simple key may start. -/
structure SimpleKey where
  /-- The number of flow collections around it. -/
  level : Nat
  /-- The index of the first token of the key. -/
  tokenIndex : Nat
  /-- Whether there must be a key, because the block would end otherwise. -/
  required : Bool
  mark : Mark

/-- A lexer between two tokens. -/
structure Lexer where
  cursor : Cursor
  version : Version := .v1_2
  /-- The tokens read, the latest first. -/
  tokens : List Token := []
  /-- The number of tokens read. -/
  count : Nat := 0
  /-- The open flow collections, the innermost first; true for sequences. -/
  flow : List Bool := []
  indent : Int := -1
  /-- The indentations of the blocks around the innermost one. -/
  indents : List Int := []
  /-- Whether a simple key may start at the next token. -/
  allowKey : Bool := true
  keys : List SimpleKey := []
  done : Bool := false

namespace Lexer

variable (lx : Lexer)

/-- Whether a flow collection is open. -/
def inFlow : Bool := !lx.flow.isEmpty

/-- The column of the cursor. -/
def column : Int := lx.cursor.mark.column

/-- Gives up at the cursor. -/
def fail (problem : String) : Except Error α :=
  throw (.malformed problem (some lx.cursor.mark))

/-- Reads from the cursor. -/
def scan (s : Scan α) : Except Error (α × Lexer) := do
  let (a, cursor) ← s lx.cursor
  return (a, { lx with cursor })

/-- Adds a token. -/
def push (t : Token) : Lexer := { lx with tokens := t :: lx.tokens, count := lx.count + 1 }

/-- Adds a token of `n` characters that start at the cursor. -/
def pushMark (kind : TokenKind) (n : Nat) : Lexer :=
  let cursor := lx.cursor.skip n
  { lx.push ⟨kind, lx.cursor.mark, cursor.mark⟩ with cursor }

/-! ## Simple keys -/

/-- Whether the place of a key is too far behind the cursor. -/
def isStale (key : SimpleKey) : Bool :=
  key.mark.line ≠ lx.cursor.mark.line || decide (key.mark.index + 1024 < lx.cursor.mark.index)

/-- Gives up the places of keys that are too far behind. -/
def dropStaleKeys : Except Error Lexer := do
  if lx.keys.any fun key => key.required && lx.isStale key then
    lx.fail "could not find expected ':'"
  return { lx with keys := lx.keys.filter fun key => !lx.isStale key }

/-- The place of a key in the innermost flow collection. -/
def key? : Option SimpleKey := lx.keys.find? (·.level = lx.flow.length)

/-- Gives up the place of a key in the innermost flow collection. -/
def dropKey : Except Error Lexer := do
  if (lx.key?.map (·.required)).getD false then lx.fail "could not find expected ':'"
  return { lx with keys := lx.keys.filter (·.level ≠ lx.flow.length) }

/-- Notes that a key may start at the cursor, if one may. -/
def noteKey : Except Error Lexer := do
  if lx.allowKey then
    let required := !lx.inFlow && lx.indent = lx.column
    let lx ← lx.dropKey
    let key : SimpleKey := ⟨lx.flow.length, lx.count, required, lx.cursor.mark⟩
    return { lx with keys := lx.keys ++ [key] }
  else return lx

/-- The index of the first token that a key could still come in front of; all before it are sure. -/
def sure : Nat :=
  lx.keys.foldl (fun n key => min n key.tokenIndex) lx.count

/-! ## Indentation -/

/-- Ends the blocks that stand further right than `column`, the innermost at `indent`. -/
def unwindTo (column : Int) : Int → List Int → Lexer → Lexer
  | indent, [], lx => { lx with indent, indents := [] }
  | indent, outer :: indents, lx =>
    if column < indent then unwindTo column outer indents (lx.pushMark .blockEnd 0)
    else { lx with indent, indents := outer :: indents }

/-- Ends the blocks that stand further right than `column`; inside flow collections there are
none. -/
def unwind (column : Int) : Lexer :=
  if lx.inFlow then lx else unwindTo column lx.indent lx.indents lx

/-- Whether a block that starts at `column` is a new one. -/
def opensBlock (column : Int) : Bool := decide (lx.indent < column)

/-- Opens a block at `column`. -/
def openBlock (column : Int) : Lexer :=
  { lx with indent := column, indents := lx.indent :: lx.indents }

/-! ## Between tokens -/

/-- Passes over spaces, comments and line breaks; whether a line ended. -/
def gaps (inFlow : Bool) : Nat → Bool → Scan Bool
  | 0, ended => return ended
  | fuel + 1, ended => do
    Scan.skipWhile fun c => c = ' ' || inFlow && c = '\t'
    Scan.skipComment
    match ← Scan.lineBreak? with
    | some _ => gaps inFlow fuel true
    | none => return ended

/-- Moves to the next token. -/
def toNextToken : Except Error Lexer := do
  let start : Scan Unit := do
    if (← Scan.mark).index = 0 ∧ (← Scan.peek) = '\uFEFF' then Scan.skip 1
  let (ended, lx) ← lx.scan (do
    start
    gaps lx.inFlow ((← Scan.size) + 1) false)
  return if ended && !lx.inFlow then { lx with allowKey := true } else lx

/-! ## Reading tokens -/

/-- Reads the end of the text. -/
def readStreamEnd : Except Error Lexer := do
  let lx ← (lx.unwind (-1)).dropKey
  return { lx.pushMark .streamEnd 0 with allowKey := false, keys := [], done := true }

/-- Reads a directive; a version directive counts from its line on. -/
def readDirective : Except Error Lexer := do
  let lx ← (lx.unwind (-1)).dropKey
  let (token, lx) ← { lx with allowKey := false }.scan (Scan.directive lx.version)
  let version := match token.kind with
    | .versionDirective v => v
    | _ => lx.version
  return { lx.push token with version }

/-- Reads the mark of a document start or end. -/
def readDocumentMark (kind : TokenKind) : Except Error Lexer := do
  let lx ← (lx.unwind (-1)).dropKey
  return { lx.pushMark kind 3 with allowKey := false }

/-- Reads the bracket that opens a flow collection. -/
def readFlowStart (kind : TokenKind) (sequence : Bool) : Except Error Lexer := do
  let lx ← lx.noteKey
  return { lx.pushMark kind 1 with flow := sequence :: lx.flow, allowKey := true }

/-- Reads the bracket that closes a flow collection. -/
def readFlowEnd (kind : TokenKind) : Except Error Lexer := do
  let lx ← lx.dropKey
  return { lx.pushMark kind 1 with flow := lx.flow.drop 1, allowKey := false }

/-- Reads the comma of a flow collection. -/
def readFlowEntry : Except Error Lexer := do
  let lx ← lx.dropKey
  return { lx.pushMark .flowEntry 1 with allowKey := true }

/-- Opens the block that an indicator at the cursor starts, if it is a new one. -/
def startBlock (kind : TokenKind) (problem : String) : Except Error Lexer := do
  if lx.inFlow then return lx
  if !lx.allowKey then lx.fail problem
  return if lx.opensBlock lx.column then (lx.openBlock lx.column).pushMark kind 0 else lx

/-- Reads the dash of a block sequence. -/
def readBlockEntry : Except Error Lexer := do
  let lx ← lx.startBlock .blockSequenceStart "sequence entries are not allowed here"
  let lx ← { lx with allowKey := true }.dropKey
  return lx.pushMark .blockEntry 1

/-- Reads the question mark of a key. -/
def readKey : Except Error Lexer := do
  let lx ← lx.startBlock .blockMappingStart "mapping keys are not allowed here"
  let lx ← { lx with allowKey := !lx.inFlow }.dropKey
  return lx.pushMark .key 1

/-- Inserts a token of no width before the token at index `i`. -/
def insertToken (kind : TokenKind) (i : Nat) (mark : Mark) : Lexer :=
  { lx with
    tokens := lx.tokens.insertIdx (lx.count - i) ⟨kind, mark, mark⟩
    count := lx.count + 1 }

/-- Reads the colon of a value. What stands at the place of a simple key becomes the key. -/
def readValue : Except Error Lexer := do
  match lx.key? with
  | some key =>
    let lx := { lx with keys := lx.keys.filter (·.level ≠ lx.flow.length) }
    let lx := lx.insertToken .key key.tokenIndex key.mark
    let column : Int := key.mark.column
    let lx :=
      if !lx.inFlow && lx.opensBlock column then
        (lx.openBlock column).insertToken .blockMappingStart key.tokenIndex key.mark
      else lx
    return { lx with allowKey := false }.pushMark .value 1
  | none =>
    let lx ← lx.startBlock .blockMappingStart "mapping values are not allowed here"
    let lx ← { lx with allowKey := !lx.inFlow }.dropKey
    return lx.pushMark .value 1

/-- Reads a token that may be a simple key, or start one. -/
def readNode (s : Scan Token) : Except Error Lexer := do
  let lx ← lx.noteKey
  let (token, lx) ← { lx with allowKey := false }.scan s
  return lx.push token

/-- Reads a plain scalar. Behind a line end a key may start. -/
def readPlain : Except Error Lexer := do
  let lx ← lx.noteKey
  let ((token, ended), lx) ← lx.scan (Scan.plain lx.version lx.inFlow (lx.indent + 1).toNat)
  return { lx.push token with allowKey := ended }

/-- Reads a block scalar. -/
def readBlockScalar (folded : Bool) : Except Error Lexer := do
  let lx ← { lx with allowKey := true }.dropKey
  let (token, lx) ← lx.scan (Scan.block folded (lx.indent + 1).toNat)
  return lx.push token

/-! ## Telling tokens apart -/

/-- Whether a colon at the cursor is the mark of a value. `afterValue` says that the token before
it is one, and could still be followed by a key. -/
def atValue (afterValue : Bool) : Bool :=
  let gap := isGap (lx.cursor.peek 1)
  if lx.inFlow then
    if lx.version = .v1_1 then true
    else if lx.flow.head? = some true then gap
    else !afterValue || gap
  else gap

/-- Whether a plain scalar starts at the cursor. -/
def atPlain : Bool :=
  let c := lx.cursor.peek 0
  let next := lx.cursor.peek 1
  let isIndicator := "-?:,[]\x7b\x7d#&*!|>'\"%@`".toList.contains c
  if !(isGap c || isIndicator) then true
  else if lx.version ≠ .v1_1 && c = ':' && lx.inFlow && !isInlineSpace next then true
  else !isGap next && (c = '-' || !lx.inFlow && (c = '?' || c = ':'))

/-- Reads the token at the cursor. -/
def readToken (afterValue : Bool) : Except Error Lexer := do
  let c := lx.cursor.peek 0
  let gap := isGap (lx.cursor.peek 1)
  let lineStart := lx.cursor.mark.column = 0
  let boundary (c : Char) : Except Error Bool := do
    return lineStart && (← lx.scan (Scan.atDocumentMark c)).1
  if lx.cursor.rest.isEmpty then lx.readStreamEnd
  else if c = '%' && lineStart then lx.readDirective
  else if ← boundary '-' then lx.readDocumentMark .documentStart
  else if ← boundary '.' then lx.readDocumentMark .documentEnd
  else if c = '[' then lx.readFlowStart .flowSequenceStart true
  else if c = '{' then lx.readFlowStart .flowMappingStart false
  else if c = ']' then lx.readFlowEnd .flowSequenceEnd
  else if c = '}' then lx.readFlowEnd .flowMappingEnd
  else if c = ',' then lx.readFlowEntry
  else if c = '-' && gap then lx.readBlockEntry
  else if c = '?' && (lx.inFlow || gap) then lx.readKey
  else if c = ':' && lx.atValue afterValue then lx.readValue
  else if c = '*' then lx.readNode (Scan.anchor .aliasOf)
  else if c = '&' then lx.readNode (Scan.anchor .anchor)
  else if c = '!' then lx.readNode (Scan.tag lx.version)
  else if c = '|' && !lx.inFlow then lx.readBlockScalar false
  else if c = '>' && !lx.inFlow then lx.readBlockScalar true
  else if c = '\'' then lx.readNode (Scan.quoted false)
  else if c = '"' then lx.readNode (Scan.quoted true)
  else if lx.atPlain then lx.readPlain
  else lx.fail "found a character that cannot start any token"

/-- Moves to the next token and reads it. -/
def step : Except Error Lexer := do
  let afterValue := !lx.keys.isEmpty && (lx.tokens.head?.map (·.kind)) = some .value
  let lx ← lx.toNextToken
  let lx ← lx.dropStaleKeys
  (lx.unwind lx.column).readToken afterValue

end Lexer

/-! ## Token streams -/

/-- The tokens of a text that can be told, and the fault that ends them if there is one. -/
structure TokenStream where
  tokens : List Token
  fault : Option Error := none

/-- The tokens that a lexer reads in at most `fuel` steps; the first `sure` of its tokens could be
told before its last step. -/
def Lexer.run : Nat → Nat → Lexer → TokenStream
  | 0, _, lx => ⟨lx.tokens.reverse, none⟩
  | fuel + 1, sure, lx =>
    if lx.done then ⟨lx.tokens.reverse, none⟩
    else
      match lx.dropStaleKeys with
      | .error e => ⟨lx.tokens.reverse.take sure, some e⟩
      | .ok lx =>
        match lx.step with
        | .error e => ⟨lx.tokens.reverse.take lx.sure, some e⟩
        | .ok next => Lexer.run fuel lx.sure next

/-- The tokens of a text. A text with characters that YAML does not allow has none. -/
def Token.stream (text : List Char) : TokenStream :=
  if text.all isAllowed then
    Lexer.run (text.length + 2) 0 { cursor := { rest := text } }
  else ⟨[], some (.malformed "special characters are not allowed" none)⟩

end PackLint.Yaml
