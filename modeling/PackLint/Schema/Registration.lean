import PackLint.Schema.Context
import PackLint.Documentation
import PackLint.Text.Lines

/-!
# Registration of components

A document declares a component by a top-level key: the id is the key up to its first dot, and the
pairs of one id are declarations of one component. An id that another document has registered is
reported and not registered again, so the document that comes first keeps it.

Model of `component` and of the callback `register` that it returns; the declarations of one id
accumulate on one component per call (`walked`).
-/

namespace PackLint

/-- The id that a key declares. -/
def declaredId (key : String) : String :=
  String.ofList (cutOnce '.' key.toList)

namespace Registration

variable (kind : ComponentKind) (color : TextClass) (site : Site)

/-- The range of the id in a key: the key up to the dot if the document writes it plainly, else the
whole key. -/
def idRange (key : Node) : Range :=
  let id := declaredId key.keyText
  let isPlain := id ≠ key.keyText ∧ site.nodeText key = key.keyText
  site.source.range key.start (if isPlain then key.start + id.length else key.stop)

/-- The report on an id with spaces. -/
def checkSpaces (key : Node) : Report :=
  if key.keyText.toList.contains ' ' then
    site.problem key .invalidComponentId "Whitespace is not allowed in component ids."
  else .empty

/-- The report on an id that another document has registered. -/
def duplicate (range : Range) (id : String) : Report :=
  .ofDiagnostic {
    range
    message := "Duplicate " ++ kind.singular ++ " id `" ++ id ++ "`."
    code := .duplicateComponentId }

/-- What a pair documents. -/
def pairDocumentation (p : Pair) : Option String := do
  let text := documentationText (← p.commentBefore)
  if text = "" then none else some text

/-- The components with one more declaration, which makes a new component if it is the first one of
its id. -/
def declare (components : List Component) (id : String) (d : Declaration)
    (documentation : Option String) : List Component :=
  if components.any (·.id = id) then
    components.map fun c =>
      if c.id = id then { c with declarations := c.declarations ++ [d] } else c
  else components ++ [{ id, declarations := [d], documentation }]

/-- The report and the components after one more pair, when the ids `taken` are registered by other
documents (`elsewhere`). -/
def register (taken : List String) (state : Report × List Component) (p : Pair) :
    Report × List Component :=
  let (report, components) := state
  let report := report ++ checkSpaces site p.key
  let id := declaredId p.keyText
  let range := idRange site p.key
  if taken.contains id then (report ++ duplicate kind range id, components)
  else if p.value.isNone then (report, components)
  else
    let d : Declaration :=
      { uri := site.uri, keyRange := range, pairRange := some (site.source.range p.start p.stop) }
    (report ++ .ofHighlight { range, color }, declare components id d (pairDocumentation p))

end Registration

/-- The check that registers the top-level keys of a map as components (`register`). -/
def registration (kind : ComponentKind) (color : TextClass) : Check := fun site n =>
  match n with
  | .map pairs _ _ =>
    let taken := (site.registry.elsewhere site.uri kind).map (·.id)
    let (report, components) :=
      pairs.foldl (Registration.register kind color site taken) (.empty, [])
    .ok (report ++ { components := .single kind components })
  | _ => .ok .empty

end PackLint
