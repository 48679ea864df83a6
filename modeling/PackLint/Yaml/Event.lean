import PackLint.Yaml.Token.Stream

/-!
# Events

The events of a text say what its nodes are, in order: where documents, sequences and mappings
start and end, and which scalars and aliases stand in them. `Event.stream` reads them off the
tokens with a stack of what is still open.

A collection whose tokens run out ends the stream with the fault of the tokens, after the events
that came before it.
-/

namespace PackLint.Yaml

/-- The kinds of events. A tag is written out; a scalar is `open` if its text decides what it is,
because it is plain and has no tag, or is tagged `!`. -/
inductive EventKind where
  | streamEnd
  | documentStart
  | documentEnd
  | aliasOf (name : String)
  | scalar (anchor : Option String) (tag : Option String) (decidedByText : Bool) (text : List Char)
      (style : ScalarStyle)
  | sequenceStart (anchor : Option String)
  | sequenceEnd
  | mappingStart (anchor : Option String)
  | mappingEnd
deriving DecidableEq

/-- An event, the places where its text starts and ends, and the version declared before it. -/
structure Event where
  kind : EventKind
  start : Mark
  stop : Mark
  version : Version
deriving DecidableEq

/-- What a parser expects next. -/
inductive Expectation where
  | documentStart (explicitly : Bool)
  | documentContent
  | documentEnd
  | node
  | blockSequenceEntry
  | indentlessSequenceEntry
  | blockMappingKey
  | blockMappingValue
  | flowSequenceEntry (first : Bool)
  | flowPairKey
  | flowPairValue
  | flowPairEnd
  | flowMappingKey (first : Bool)
  | flowMappingValue
  | flowMappingNoValue
  | nothing
deriving DecidableEq

/-- The expansions of the handles that every document has. -/
def defaultHandles : List (String × String) :=
  [("!", "!"), ("!!", "tag:yaml.org,2002:")]

/-- A parser between two events. -/
structure Parser where
  tokens : List Token
  fault : Option Error
  expected : Expectation := .documentStart false
  /-- What is expected once the node that has been started is over. -/
  pending : List Expectation := []
  handles : List (String × String) := defaultHandles
  version : Version := .v1_2

namespace Parser

variable (p : Parser)

/-- An event together with the parser behind it. -/
abbrev Step := Except Error (Event × Parser)

/-- The next token. -/
def peek : Except Error Token :=
  match p.tokens with
  | t :: _ => .ok t
  | [] => .error (p.fault.getD (.malformed "unexpected end of the text" none))

/-- The next token, if it is of one of the given kinds. -/
def next? (test : TokenKind → Bool) : Except Error (Option Token) := do
  let t ← p.peek
  return if test t.kind then some t else none

/-- Whether the next token is of one of the kinds. -/
def nextIs (kinds : List TokenKind) : Except Error Bool := do
  return kinds.contains (← p.peek).kind

/-- The parser behind the next token. -/
def advance : Parser := { p with tokens := p.tokens.drop 1 }

/-- The parser when the current node is over. -/
def finish : Parser :=
  match p.pending with
  | e :: pending => { p with expected := e, pending }
  | [] => { p with expected := .nothing }

/-- Gives up at a token. -/
def fail (problem : String) (t : Token) : Except Error α :=
  throw (.malformed (problem ++ t.kind.name) (some t.start))

/-- An event between two marks, and the parser behind it. -/
def emit (kind : EventKind) (start stop : Mark) : Event × Parser :=
  (⟨kind, start, stop, p.version⟩, p)

/-- A scalar of no width at `mark`, after which `e` is expected. -/
def emitEmpty (mark : Mark) (e : Expectation) : Event × Parser :=
  { p with expected := e }.emit (.scalar none none true [] .plain) mark mark

/-! ## Nodes -/

/-- The properties of a node: its anchor, its tag, and the marks around them. -/
structure Properties where
  anchor : Option String := none
  tag : Option String := none
  span : Option (Mark × Mark) := none

/-- The tag that a handle and a suffix write. -/
def expandTag (t : Token) (handle : Option String) (suffix : String) : Except Error String :=
  match handle with
  | none => .ok suffix
  | some h =>
    match p.handles.lookup h with
    | some expansion => .ok (expansion ++ suffix)
    | none => throw (.malformed ("undefined tag handle " ++ h) (some t.start))

/-- Reads the anchor and the tag of a node, in either order. -/
def readProperties : Except Error (Properties × Parser) := do
  let t ← p.peek
  match t.kind with
  | .anchor name =>
    let p := p.advance
    let u ← p.peek
    match u.kind with
    | .tag handle suffix =>
      let tag ← p.expandTag u handle suffix
      return (⟨some name, some tag, some (t.start, u.stop)⟩, p.advance)
    | _ => return (⟨some name, none, some (t.start, t.stop)⟩, p)
  | .tag handle suffix =>
    let p := p.advance
    let u ← p.peek
    match u.kind with
    | .anchor name =>
      let tag ← p.expandTag u handle suffix
      return (⟨some name, some tag, some (u.start, u.stop)⟩, p.advance)
    | _ =>
      let tag ← p.expandTag t handle suffix
      return (⟨none, some tag, some (t.start, t.stop)⟩, p)
  | _ => return ({}, p)

/-- Reads the content of a node that has the given properties. Block collections are read only if
`inBlock`, a sequence whose dashes do not stand further right only if `indentless`. -/
def readContent (inBlock indentless : Bool) (props : Properties) : Step := do
  let t ← p.peek
  let start := (props.span.map (·.1)).getD t.start
  let bare := props.tag.isNone || props.tag = some "!"
  let open' (kind : EventKind) (e : Expectation) : Event × Parser :=
    { p.advance with expected := e }.emit kind start t.stop
  match t.kind with
  | .blockEntry =>
    if indentless then
      return { p with expected := .indentlessSequenceEntry }.emit (.sequenceStart props.anchor)
        start t.stop
  | .scalar text style =>
    let decided := props.tag = some "!" || props.tag.isNone && style = .plain
    return p.advance.finish.emit (.scalar props.anchor props.tag decided text style) start t.stop
  | .flowSequenceStart =>
    return open' (.sequenceStart props.anchor) (.flowSequenceEntry true)
  | .flowMappingStart =>
    return open' (.mappingStart props.anchor) (.flowMappingKey true)
  | .blockSequenceStart =>
    if inBlock then return open' (.sequenceStart props.anchor) .blockSequenceEntry
  | .blockMappingStart =>
    if inBlock then return open' (.mappingStart props.anchor) .blockMappingKey
  | _ => pure ()
  match props.span with
  | some (first, last) =>
    return p.finish.emit (.scalar props.anchor props.tag bare [] .plain) first last
  | none => fail "expected the node content, but found " t

/-- Reads a node. -/
def readNode (inBlock indentless : Bool) : Step := do
  let t ← p.peek
  match t.kind with
  | .aliasOf name => return p.advance.finish.emit (.aliasOf name) t.start t.stop
  | _ =>
    let (props, p) ← p.readProperties
    p.readContent inBlock indentless props

/-- Reads a node, after which `e` is expected. -/
def readNodeThen (inBlock indentless : Bool) (e : Expectation) : Step :=
  { p with pending := e :: p.pending }.readNode inBlock indentless

/-! ## Documents -/

/-- Reads the directives before a document; none of them may stand twice. -/
def readDirectives : Nat → Option Version → Parser → Except Error Parser
  | 0, _, p => return p
  | fuel + 1, version, p => do
    let t ← p.peek
    match t.kind with
    | .versionDirective v =>
      if version.isSome then throw (.malformed "found a second version directive" (some t.start))
      if v.major ≠ 1 then throw (.malformed "found an incompatible version" (some t.start))
      readDirectives fuel (some v) { p.advance with version := v }
    | .tagDirective handle expansion =>
      if (p.handles.lookup handle).isSome then
        throw (.malformed "found a second directive for a tag handle" (some t.start))
      readDirectives fuel version
        { p.advance with handles := p.handles ++ [(handle, expansion)] }
    | .otherDirective => readDirectives fuel version p.advance
    | _ => return p

/-- The parser behind the marks of document ends. -/
def skipDocumentEnds : Parser :=
  { p with tokens := p.tokens.dropWhile (·.kind = .documentEnd) }

/-- Reads the start of a document that has a mark, or the end of the text. -/
def readExplicitStart : Step := do
  let p := p.skipDocumentEnds
  let t ← p.peek
  if t.kind = .streamEnd then
    return { p.advance with expected := .nothing }.emit .streamEnd t.start t.stop
  else
    let p ← readDirectives (p.tokens.length + 1) none { p with handles := [] }
    let p := { p with handles := p.handles ++ defaultHandles }
    let t ← p.peek
    if t.kind ≠ .documentStart then fail "expected '<document start>', but found " t
    let p := p.advance
    return { p with expected := .documentContent, pending := .documentEnd :: p.pending }.emit
      .documentStart t.start t.stop

/-- Reads the start of a document that need not have a mark. -/
def readStart : Step := do
  let t ← p.peek
  if t.kind.isDirective || t.kind = .documentStart || t.kind = .streamEnd then
    p.readExplicitStart
  else
    let p := { p with
      handles := defaultHandles
      expected := .node
      pending := .documentEnd :: p.pending }
    return p.emit .documentStart t.start t.start

/-- Reads the end of a document. A document that ends with a mark may be followed by one that
starts without. -/
def readEnd : Step := do
  let t ← p.peek
  if t.kind = .documentEnd then
    let explicitly := p.version = .v1_1
    return { p.advance with expected := .documentStart explicitly }.emit .documentEnd t.start t.stop
  else return { p with expected := .documentStart true }.emit .documentEnd t.start t.start

/-- Reads what stands behind the mark of a document start. -/
def readDocumentContent : Step := do
  let t ← p.peek
  if t.kind.isDirective || [TokenKind.documentStart, .documentEnd, .streamEnd].contains t.kind then
    return p.finish.emit (.scalar none none true [] .plain) t.start t.start
  else p.readNode true false

/-! ## Block collections -/

/-- Reads an entry of a block sequence, or its end. -/
def readBlockSequenceEntry : Step := do
  let t ← p.peek
  if t.kind = .blockEntry then
    let p := p.advance
    if ← p.nextIs [.blockEntry, .blockEnd] then
      return p.emitEmpty t.stop .blockSequenceEntry
    else p.readNodeThen true false .blockSequenceEntry
  else if t.kind = .blockEnd then return p.advance.finish.emit .sequenceEnd t.start t.stop
  else fail "expected <block end>, but found " t

/-- Reads an entry of a sequence whose dashes do not stand further right, or its end. -/
def readIndentlessEntry : Step := do
  let t ← p.peek
  if t.kind = .blockEntry then
    let p := p.advance
    if ← p.nextIs [.blockEntry, .key, .value, .blockEnd] then
      return p.emitEmpty t.stop .indentlessSequenceEntry
    else p.readNodeThen true false .indentlessSequenceEntry
  else return p.finish.emit .sequenceEnd t.start t.start

/-- Reads a key of a block mapping, or its end. From version 1.2 on a key may be missing. -/
def readBlockMappingKey : Step := do
  let t ← p.peek
  if t.kind = .key then
    let p := p.advance
    if ← p.nextIs [.key, .value, .blockEnd] then return p.emitEmpty t.stop .blockMappingValue
    else p.readNodeThen true true .blockMappingValue
  else if t.kind = .value && p.version.after1_1 then
    return p.emitEmpty t.start .blockMappingValue
  else if t.kind = .blockEnd then return p.advance.finish.emit .mappingEnd t.start t.stop
  else fail "expected <block end>, but found " t

/-- Reads a value of a block mapping. -/
def readBlockMappingValue : Step := do
  let t ← p.peek
  if t.kind = .value then
    let p := p.advance
    if ← p.nextIs [.key, .value, .blockEnd] then return p.emitEmpty t.stop .blockMappingKey
    else p.readNodeThen true true .blockMappingKey
  else return p.emitEmpty t.start .blockMappingKey

/-! ## Flow collections -/

/-- The parser behind the comma that must stand before an entry unless it is the first. -/
def afterComma (first : Bool) (closing : String) : Except Error Parser := do
  if first then return p
  let t ← p.peek
  if t.kind ≠ .flowEntry then fail ("expected ',' or '" ++ closing ++ "', but got ") t
  return p.advance

/-- Reads an entry of a flow sequence, or its end. An entry may be a single pair. -/
def readFlowSequenceEntry (first : Bool) : Step := do
  let ended := (← p.peek).kind = .flowSequenceEnd
  let p ← if ended then pure p else p.afterComma first "]"
  let t ← p.peek
  if t.kind = .flowSequenceEnd then return p.advance.finish.emit .sequenceEnd t.start t.stop
  else if t.kind = .key then
    return { p with expected := .flowPairKey }.emit (.mappingStart none) t.start t.stop
  else p.readNodeThen false false (.flowSequenceEntry false)

/-- Reads the key of a pair in a flow sequence, the mark of the key first. -/
def readFlowPairKey : Step := do
  let t ← p.peek
  let p := p.advance
  if ← p.nextIs [.value, .flowEntry, .flowSequenceEnd] then
    return p.emitEmpty t.stop .flowPairValue
  else p.readNodeThen false false .flowPairValue

/-- Reads the value of a pair in a flow sequence. -/
def readFlowPairValue : Step := do
  let t ← p.peek
  if t.kind = .value then
    let p := p.advance
    if ← p.nextIs [.flowEntry, .flowSequenceEnd] then return p.emitEmpty t.stop .flowPairEnd
    else p.readNodeThen false false .flowPairEnd
  else return p.emitEmpty t.start .flowPairEnd

/-- Ends a pair in a flow sequence. -/
def readFlowPairEnd : Step := do
  let t ← p.peek
  return { p with expected := .flowSequenceEntry false }.emit .mappingEnd t.start t.start

/-- Reads a key of a flow mapping, or its end. -/
def readFlowMappingKey (first : Bool) : Step := do
  let ended := (← p.peek).kind = .flowMappingEnd
  let p ← if ended then pure p else p.afterComma first "\x7d"
  let t ← p.peek
  if t.kind = .flowMappingEnd then return p.advance.finish.emit .mappingEnd t.start t.stop
  else if t.kind = .key then
    let p := p.advance
    if ← p.nextIs [.value, .flowEntry, .flowMappingEnd] then
      return p.emitEmpty t.stop .flowMappingValue
    else p.readNodeThen false false .flowMappingValue
  else if t.kind = .value && p.version.after1_1 then return p.emitEmpty t.stop .flowMappingValue
  else p.readNodeThen false false .flowMappingNoValue

/-- Reads a value of a flow mapping. -/
def readFlowMappingValue : Step := do
  let t ← p.peek
  if t.kind = .value then
    let p := p.advance
    if ← p.nextIs [.flowEntry, .flowMappingEnd] then
      return p.emitEmpty t.stop (.flowMappingKey false)
    else p.readNodeThen false false (.flowMappingKey false)
  else return p.emitEmpty t.start (.flowMappingKey false)

/-! ## Streams -/

/-- Reads the next event. -/
def step : Step := do
  match p.expected with
  | .documentStart false => p.readStart
  | .documentStart true => p.readExplicitStart
  | .documentContent => p.readDocumentContent
  | .documentEnd => p.readEnd
  | .node => p.readNode true false
  | .blockSequenceEntry => p.readBlockSequenceEntry
  | .indentlessSequenceEntry => p.readIndentlessEntry
  | .blockMappingKey => p.readBlockMappingKey
  | .blockMappingValue => p.readBlockMappingValue
  | .flowSequenceEntry first => p.readFlowSequenceEntry first
  | .flowPairKey => p.readFlowPairKey
  | .flowPairValue => p.readFlowPairValue
  | .flowPairEnd => p.readFlowPairEnd
  | .flowMappingKey first => p.readFlowMappingKey first
  | .flowMappingValue => p.readFlowMappingValue
  | .flowMappingNoValue =>
    let t ← p.peek
    return p.emitEmpty t.start (.flowMappingKey false)
  | .nothing => throw (.malformed "unexpected end of the text" none)

end Parser

/-- The events of a text, and the fault that ends them if there is one. -/
structure EventStream where
  events : List Event
  fault : Option Error

/-- The events that a parser reads in at most `fuel` steps, behind those already read. -/
def Parser.run : Nat → List Event → Parser → EventStream
  | 0, events, _ => ⟨events.reverse, none⟩
  | fuel + 1, events, p =>
    if p.expected = .nothing then ⟨events.reverse, none⟩
    else
      match p.step with
      | .error e => ⟨events.reverse, some e⟩
      | .ok (event, p) => Parser.run fuel (event :: events) p

/-- The events of a text. No token makes more than four of them. -/
def Event.stream (text : List Char) : EventStream :=
  let tokens := Token.stream text
  Parser.run (4 * tokens.tokens.length + 8) [] { tokens := tokens.tokens, fault := tokens.fault }

end PackLint.Yaml
