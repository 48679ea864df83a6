import PackLint.Yaml.Cursor

/-!
# Tokens

A `Token` is what the characters of a text spell: an indicator, a scalar, or the start or end of a
block that the indentation makes.
-/

namespace PackLint.Yaml

/-- How a scalar is written. -/
inductive ScalarStyle where
  | plain
  | singleQuoted
  | doubleQuoted
  | literal
  | folded
deriving DecidableEq, Inhabited

/-- The kinds of tokens with what they hold. A tag is a handle, if it has one, and a suffix. -/
inductive TokenKind where
  | streamEnd
  | versionDirective (version : Version)
  | tagDirective (handle : String) (expansion : String)
  | otherDirective
  | documentStart
  | documentEnd
  | blockSequenceStart
  | blockMappingStart
  | blockEnd
  | flowSequenceStart
  | flowSequenceEnd
  | flowMappingStart
  | flowMappingEnd
  | blockEntry
  | flowEntry
  | key
  | value
  | aliasOf (name : String)
  | anchor (name : String)
  | tag (handle : Option String) (suffix : String)
  | scalar (text : List Char) (style : ScalarStyle)
deriving DecidableEq, Inhabited

namespace TokenKind

/-- Whether the token is a directive. -/
def isDirective : TokenKind → Bool
  | versionDirective _ | tagDirective _ _ | otherDirective => true
  | _ => false

/-- How a token is called in a message. -/
def name : TokenKind → String
  | streamEnd => "<stream end>"
  | versionDirective _ | tagDirective _ _ | otherDirective => "<directive>"
  | documentStart => "<document start>"
  | documentEnd => "<document end>"
  | blockSequenceStart => "<block sequence start>"
  | blockMappingStart => "<block mapping start>"
  | blockEnd => "<block end>"
  | flowSequenceStart => "["
  | flowSequenceEnd => "]"
  | flowMappingStart => "\x7b"
  | flowMappingEnd => "\x7d"
  | blockEntry => "-"
  | flowEntry => ","
  | key => "?"
  | value => ":"
  | aliasOf _ => "<alias>"
  | anchor _ => "<anchor>"
  | tag _ _ => "<tag>"
  | scalar _ _ => "<scalar>"

end TokenKind

/-- A token and the places where it starts and ends. -/
structure Token where
  kind : TokenKind
  start : Mark
  stop : Mark
deriving DecidableEq, Inhabited

end PackLint.Yaml
