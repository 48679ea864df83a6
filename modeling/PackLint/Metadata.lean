import PackLint.Metadata.Block
import PackLint.Pack.FileKind

/-!
# Metadata

The lines marked `##` at the start of a document are YAML of their own, which may tell the kind of
the file. Offsets into the block are offsets into the document, so its report needs no adjustment.
Model of `DocMetadata.parse`.
-/

namespace PackLint

namespace Metadata

/-- The key that tells the kind of a file. -/
def fileTypeKey : String := "FileType"

/-- The schema of the metadata (`METADATA_SCHEMA`). -/
def schema : Schema :=
  .fixedObject
    [(fileTypeKey, documented
      (.string { highlight := some .enumMember }
        { matcher := fun _ => some (.options (FileKind.ids.map (⟨·, none⟩))) })
      ("The type of file this document represents. " ++
        "Useful when the file type can't be determined from its path."))]

/-- The kind of file that the metadata tell; it must be a string. -/
def fileKind? (tree : Node) : Option FileKind :=
  match tree.get? fileTypeKey with
  | some (.scalar ⟨.str text, _, _, _, _⟩) => FileKind.ofId? text
  | _ => none

/-- The report on metadata that cannot be loaded: a problem of the whole block if they are not YAML,
a problem at the start of the document if they are beyond the limits. -/
def loadFailure (site : Site) (block : List Char) : LoadError → Except Fault Report
  | .unreadable (.malformed problem _) =>
    .ok (.ofDiagnostic {
      range := site.source.range 0 (trimEnd block).length
      message := problem
      code := .syntaxError })
  | .unreadable e => .error (.unreadable e)
  | e => .ok (.ofDiagnostic {
      range := site.source.range 0 0, message := e.message, code := .safetyError })

/-- Reads the metadata of the document at the site: the kind of file that they tell, and the report
on them (`DocMetadata.parse`). -/
def read (site : Site) : Except Fault (Option FileKind × Report) := do
  let block := metadataBlock site.source.toList
  if block.all isBlank then return (none, .empty)
  match Node.load site.settings.toLimits (.ofList block) with
  | .error e => return (none, ← loadFailure site block e)
  | .ok none => return (none, .empty)
  | .ok (some tree) => return (fileKind? tree, ← schema.check site tree)

end Metadata

end PackLint
