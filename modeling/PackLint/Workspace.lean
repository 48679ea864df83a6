import PackLint.Document

/-!
# Workspaces

A `Workspace` holds the documents of a project in the order in which they were loaded, each uri
once. What the documents declare is nowhere stored but in their reports, so a document that is
replaced or removed takes its declarations along, and a document that is loaded with the report of
an earlier look brings them.

References lead only where all documents have been looked at alone, so a full examination of all
documents begins with that. An operation that ends in a fault keeps what was done before.

Model of `Workspace`: `load`, `unload`, `get`, `merged_validation_result`, `partial_process_all`
(`checkAll`), `full_process_all` (`examineAll`) and `process`. A document that is handed out can
be looked at by itself with `partial_process` or `full_process`, which is `examine`.

Results:
* `Workspace.uris_load`, `Workspace.nodup_uris_load`: loading keeps the order of the uris, and
  every uri stands once.
* `Workspace.registry_withoutReports`: without reports nothing is registered.
-/

namespace PackLint

/-- The documents of a project (`Workspace`). -/
structure Workspace where
  settings : Settings := {}
  data : GameData := {}
  documents : List Document := []

namespace Workspace

variable (ws : Workspace)

/-! ## Documents -/

/-- The uris of the documents in order. -/
def uris : List String := ws.documents.map (·.uri)

/-- The document with a uri. -/
def get? (uri : String) : Option Document :=
  ws.documents.find? (·.uri = uri)

/-- The document with a uri, which must be loaded. -/
def get (uri : String) : Except Fault Document :=
  match ws.get? uri with
  | some doc => .ok doc
  | none => .error (.notLoaded uri)

/-- The workspace with `doc` in place of the document with its uri. -/
def replace (doc : Document) : Workspace :=
  { ws with documents := ws.documents.map fun d => if d.uri = doc.uri then doc else d }

/-- Adds a document; one with the uri of another takes its place. -/
def load (doc : Document) : Workspace :=
  if ws.uris.contains doc.uri then ws.replace doc
  else { ws with documents := ws.documents ++ [doc] }

@[simp] theorem uris_replace (doc : Document) : (ws.replace doc).uris = ws.uris := by
  simp only [uris, replace, List.map_map]
  refine List.map_congr_left fun d _ => ?_
  simp only [Function.comp_apply]
  split <;> simp_all

theorem uris_load (doc : Document) :
    (ws.load doc).uris = if ws.uris.contains doc.uri then ws.uris else ws.uris ++ [doc.uri] := by
  unfold load
  split
  · exact ws.uris_replace doc
  · simp [uris]

theorem nodup_uris_load {ws : Workspace} (h : ws.uris.Nodup) (doc : Document) :
    (ws.load doc).uris.Nodup := by
  rw [uris_load]
  split
  · exact h
  · rename_i hc
    have hm : doc.uri ∉ ws.uris := by simpa using hc
    exact List.nodup_append.2 ⟨h, by simp, by
      intro a ha b hb hab
      exact hm (by simp_all)⟩

/-! ## Reports -/

/-- The components that the documents with a report declare, as `merged_validation_result` lists
them. -/
def registry : Registry :=
  ws.documents.filterMap fun d => d.report.map fun r => (d.uri, r.components)

/-- The reports of all documents but the one with the uri `exclude`, merged in order
(`merged_validation_result`). -/
def mergedReport (exclude : Option String := none) : Report :=
  .mergeAll ((ws.documents.filter fun d => some d.uri ≠ exclude).filterMap (·.report))

/-- The workspace without reports. -/
def withoutReports : Workspace :=
  { ws with documents := ws.documents.map fun d => { d with report := none } }

@[simp] theorem uris_withoutReports : ws.withoutReports.uris = ws.uris := by
  simp [uris, withoutReports]

@[simp] theorem registry_withoutReports : ws.withoutReports.registry = [] := by
  simp [registry, withoutReports]

/-! ## Examination -/

/-- Looks at one document. -/
def examine (depth : Depth) (uri : String) : Workspace × Except Fault Report :=
  match ws.get uri with
  | .error fault => (ws, .error fault)
  | .ok doc =>
    let (doc, answer) := doc.examine ws.settings ws.data ws.registry depth
    (ws.replace doc, answer)

/-- Looks at documents in order, up to the first fault. -/
def examineEach (depth : Depth) : List String → Workspace → Workspace × Except Fault Unit
  | [], ws => (ws, .ok ())
  | uri :: uris, ws =>
    match ws.examine depth uri with
    | (ws, .error fault) => (ws, .error fault)
    | (ws, .ok _) => examineEach depth uris ws

/-- Looks at all documents alone. The reports are dropped first, so that what a later document
declared before cannot stand against an earlier one (`partial_process_all`). -/
def checkAll : Workspace × Except Fault Unit :=
  examineEach .alone ws.uris ws.withoutReports

/-- Looks at all documents alone, and then at all together (`full_process_all`). -/
def examineAll : Workspace × Except Fault Unit :=
  match ws.checkAll with
  | (ws, .error fault) => (ws, .error fault)
  | (ws, .ok _) => examineEach .full ws.uris ws

/-- Looks at all documents alone, and then at one of them together with the others. -/
def process (uri : String) : Workspace × Except Fault Report :=
  match ws.get uri with
  | .error fault => (ws, .error fault)
  | .ok _ =>
    match ws.checkAll with
    | (ws, .error fault) => (ws, .error fault)
    | (ws, .ok _) => ws.examine .full uri

/-- Removes a document and looks at the others alone. -/
def unload (uri : String) : Workspace × Except Fault Document :=
  match ws.get uri with
  | .error fault => (ws, .error fault)
  | .ok doc =>
    let (ws, answer) := checkAll { ws with documents := ws.documents.filter (·.uri ≠ uri) }
    (ws, answer.map fun _ => doc)

end Workspace

end PackLint
