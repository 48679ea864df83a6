import PackLint.Tree.Load

/-!
# Faults

A `Fault` is the reason why no report can be made. Problems of a document are diagnostics; a fault
is a value that cannot be read or computed with, or a request for something that is not there. It is
raised through all callers, none of which catches it.
-/

namespace PackLint

/-- Why there is no answer. -/
inductive Fault where
  /-- A scalar, character or version that is no syntax problem but has no meaning: what
  `MythicDoc.parse` and `DocMetadata.parse` do not catch. -/
  | unreadable (e : Yaml.Error)
  /-- An integer too large for a number of 64 bits, in `SchemaNumber`. -/
  | integerTooLarge
  /-- A division without a remainder of limited length, in `check_tick_aligned`. -/
  | remainderUndefined
  /-- An integer with too many digits to be written. -/
  | integerTooLong
  /-- An id that names no kind of file, in `match_schema_id`. -/
  | unknownFileKind (id : String) (known : List String)
  /-- No document is loaded under the uri, in `Workspace.get` and `Workspace.unload`. -/
  | notLoaded (uri : String)
  /-- There is no file to read. -/
  | noFile
  /-- The bytes of a file are not a text. -/
  | notUtf8
deriving DecidableEq

/-- What is said of a fault, if there is a fixed wording. -/
def Fault.message? : Fault → Option String
  | unreadable (.notABoolean text) => some text
  | unreadable (.unknownVersion v) => some (LoadError.unreadable (.unknownVersion v)).message
  | unknownFileKind id known =>
    some ("Unknown schema id '" ++ id ++ "'. Known ids: " ++ ", ".intercalate known)
  | notLoaded uri => some ("No document loaded with uri '" ++ uri ++ "'")
  | _ => none

end PackLint
