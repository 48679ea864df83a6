import PackLint.Fault
import PackLint.GameData
import PackLint.Report
import PackLint.Text.EditDistance

/-!
# What a schema sees

A `Site` is what is known while a document is looked at: the settings, the game data, the document
itself and the `Registry`, which holds the components that the loaded documents declare. A
`Context` is a site together with a node of the document; fields of a schema may depend on it. A
`Check` is a rule of its own that looks at a node and reports.

Model of `SchemaContext`, `ProcessCallback` and the fields that every `Schema` has. A callback adds
to the result it is given and does not read it, so a `Check` returns what it adds. The registry is
`merged_validation_result`, of which only the components are read.
-/

namespace PackLint

/-- The components that each loaded document declares, the documents in order of loading. -/
abbrev Registry := List (String × ComponentTable)

namespace Registry

/-- The registered components of a kind. -/
def components (r : Registry) (kind : ComponentKind) : List Component :=
  r.flatMap fun entry => entry.2.of kind

/-- The components of a kind that documents other than the one at `uri` register: the merged result
without that document (`exclude`). -/
def elsewhere (r : Registry) (uri : String) (kind : ComponentKind) : List Component :=
  components (r.filter (·.1 ≠ uri)) kind

end Registry

/-- What is known while a document is looked at. -/
structure Site where
  settings : Settings
  data : GameData
  registry : Registry
  uri : String
  source : Source
  tree : Option Node

namespace Site

variable (site : Site)

/-- The range of a node (`node_range`). -/
def nodeRange (n : Node) : Range := site.source.range n.start n.stop

/-- The text of a node as the document has it (`node_source`). -/
def nodeText (n : Node) : String := site.source.sliceText n.start n.stop

/-- A report of a problem with a node. -/
def problem (n : Node) (code : DiagnosticCode) (message : String) : Report :=
  .ofDiagnostic { range := site.nodeRange n, message, code }

/-- The report that highlights a node, if there is a colour (`_add_highlight`). -/
def highlight? (n : Node) : Option TextClass → Report
  | some color => .ofHighlight { range := site.nodeRange n, color }
  | none => .empty

/-- The closest of the candidates to a text, as far as suggestions go. -/
def suggestion? (text : String) (candidates : List String) : Option String :=
  closest? site.settings.suggestionMaxDistance text candidates

end Site

/-- The words that offer a suggestion, if there is one. -/
def suggestionText : Option String → String
  | some s => " Did you mean `" ++ s ++ "`?"
  | none => ""

/-- A site and the node that is looked at, with the pair that holds it if the node is the value of
a property (`SchemaContext`). -/
structure Context where
  site : Site
  node : Option Node
  pair : Option Pair := none

namespace Context

/-- The context of a node that is looked at for itself. -/
def ofNode (site : Site) (n : Node) : Context := { site, node := some n }

/-- The context of the value of a pair. -/
def ofPair (site : Site) (p : Pair) : Context := { site, node := p.value, pair := some p }

/-- The map of the first top-level pair whose offsets enclose the node (`enclosing_entry`). -/
def enclosingMap? (ctx : Context) : Option Node := do
  let n ← ctx.node
  let pairs ← (← ctx.site.tree).pairs?
  pairs.findSome? fun p => do
    let value ← p.value
    if value.isMap ∧ value.start ≤ n.start ∧ n.stop ≤ value.stop then some value else none

end Context

/-- A rule that looks at a node and reports (`ProcessCallback`). -/
abbrev Check := Site → Node → Except Fault Report

/-- The reports of several checks of a node in order (`_run_callbacks`). -/
def runChecks (checks : List Check) (site : Site) (n : Node) : Except Fault Report :=
  checks.foldlM (fun report check => do return report ++ (← check site n)) .empty

/-- What every schema may have: a name that is shown instead of its description, a colour for the
values it accepts, and checks of its own. -/
structure SchemaInfo where
  name : Context → Option String := fun _ => none
  highlight : Option TextClass := none
  localChecks : Context → List Check := fun _ => []
  referenceChecks : Context → List Check := fun _ => []

namespace SchemaInfo

/-- The name, if it is set and not empty, else the description. -/
def display (info : SchemaInfo) (ctx : Context) (description : String) : String :=
  match info.name ctx with
  | some name => if name = "" then description else name
  | none => description

end SchemaInfo

end PackLint
