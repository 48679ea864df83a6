import PackLint.Metadata

/-!
# Documents

A `Document` is a text under a uri, bound to the schema of its kind of file or to another one. The
metadata of a document may bind it anew. Looking at a document is `examine`: it reads the metadata
and the tree, colours the scalars, and then checks the tree with the schema; a full examination
also resolves references. The report is kept in the document until the next examination.

An examination that ends in a fault keeps the last report, but what was read before the fault stays.

Model of `MythicDoc`: `examine` is `partial_process` at the depth `alone` and `full_process` at the
depth `full`, which both begin with `_begin`. The positions of `MythicDoc` are those of `Source`.
-/

namespace PackLint

/-- The schema that a document is bound to: that of a kind of file, or another one. -/
inductive Binding where
  | kind (k : FileKind)
  | other (s : Schema)

/-- The schema of a binding. -/
def Binding.schema : Binding → Schema
  | kind k => k.schema
  | other s => s

/-- A document (`MythicDoc`); `report` is its `cached_validation_result`. -/
structure Document where
  uri : String
  source : Source
  binding : Option Binding := none
  fileKind : Option FileKind := none
  tree : Option Node := none
  report : Option Report := none

/-- How thoroughly a document is looked at: by itself, or together with the other documents. -/
inductive Depth where
  | alone
  | full
deriving DecidableEq

namespace Document

/-- The document with a text, bound by its uri (`from_text`). -/
def ofText (text uri : String) : Document where
  uri
  source := .ofString text
  binding := (FileKind.ofPath? uri).map .kind

variable (doc : Document)

/-- What is known while the document is looked at. -/
def site (settings : Settings) (data : GameData) (registry : Registry) : Site where
  settings
  data
  registry
  uri := doc.uri
  source := doc.source
  tree := doc.tree

/-- The document after its metadata have been read; a kind of file that they tell binds it
(`update_metadata`). -/
def withFileKind (kind : Option FileKind) : Document :=
  { doc with
    fileKind := kind
    binding := match kind with
      | some k => some (.kind k)
      | none => doc.binding }

/-- The range of a syntax problem: the character at the mark, or the start of the document
(`_error_range`). -/
def problemRange (mark : Option Yaml.Mark) : Range :=
  match mark with
  | none => doc.source.range 0 0
  | some m =>
    let start := doc.source.offset ⟨m.line, m.column⟩
    doc.source.range start (start + 1)

/-- Reads the tree (`MythicDoc.parse`). A text without one has a problem, which is reported, or is a
fault. -/
def parse (limits : Limits) : Except Fault (Option Node × Report) :=
  match Node.load limits doc.source with
  | .ok tree => .ok (tree, .empty)
  | .error (.unreadable (.malformed problem mark)) =>
    .ok (none, .ofDiagnostic {
      range := doc.problemRange mark, message := problem, code := .syntaxError })
  | .error (.unreadable e) => .error (.unreadable e)
  | .error e => .ok (none, .ofDiagnostic {
      range := doc.source.range 0 0, message := e.message, code := .safetyError })

/-- The colours of the scalars of a tree, before a schema adds its own (`highlight_yaml`). -/
def scalarHighlights (tree : Node) : Report :=
  .mergeAll (tree.scalars.map fun (s, isKey) =>
    .ofHighlight {
      range := doc.source.range s.start s.stop
      color := if isKey then .property else .string })

/-- The report of the schema on the tree. -/
def schemaReport (depth : Depth) (site : Site) : Except Fault Report := do
  match doc.binding, doc.tree with
  | some binding, some tree =>
    let report ← binding.schema.check site tree
    match depth with
    | .alone => return report
    | .full => return report ++ (← binding.schema.resolve site tree)
  | _, _ => return .empty

/-- Looks at the document (`partial_process`, `full_process`). -/
def examine (settings : Settings) (data : GameData) (registry : Registry) (depth : Depth) :
    Document × Except Fault Report :=
  match Metadata.read (doc.site settings data registry) with
  | .error fault => (doc, .error fault)
  | .ok (kind, metadata) =>
    let doc := doc.withFileKind kind
    match doc.parse settings.toLimits with
    | .error fault => (doc, .error fault)
    | .ok (tree, problems) =>
      let doc := { doc with tree }
      let colours := (tree.map doc.scalarHighlights).getD .empty
      match doc.schemaReport depth (doc.site settings data registry) with
      | .error fault => (doc, .error fault)
      | .ok checked =>
        let report := metadata ++ problems ++ colours ++ checked
        ({ doc with report := some report }, .ok report)

end Document

end PackLint
