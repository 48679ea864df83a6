import PackLint.Schema.Check
import PackLint.Schema.Reference
import PackLint.SkillLine.Mechanic

/-!
# References and completions

`Schema.resolve` reports what can only be said once all documents have registered their components:
where references lead. It also proposes the properties and options that a document could use, and
reads the skill lines of skill lists.

Model of `full_process`: `resolveStructure` is `_full_process` of the variants, and the reference
checks are the `full_callbacks`.
-/

namespace PackLint

namespace Schema

/-! ## Completions of properties -/

/-- The proposal of a property under one of its names (`_completion_item`). -/
def propertyProposal (ctx : Context) (label : String) (p : Property) : CompletionItem :=
  { label, kind := .property, detail := p.description ctx }

/-- Adds the proposals of a property below `front` for its names of a single segment, unless the
label is there already. -/
def addProposals (ctx : Context) (front : List Char) (items : List CompletionItem)
    (entry : String × Property) : List CompletionItem :=
  let (key, p) := entry
  (p.names key ctx).foldl (fun items name =>
    let name := name.toList
    let label := name.drop front.length
    if !front.isPrefixOf name || label.contains '.' then items
    else
      let label := String.ofList label
      if items.any (·.label = label) then items else items ++ [propertyProposal ctx label p]) items

/-- Whether the cursor stands outside of the value with only blanks before it on its line
(`_at_blank_line_start`). -/
def atFreeLineStart (site : Site) (value : Option Node) (cursor : Position) : Bool :=
  let inside := value.any fun n => (site.nodeRange n).contains cursor
  let line := (site.source.lineText cursor.line).toList
  let before :=
    if cursor.character < 0 then line.take (line.length + cursor.character).toNat
    else line.take cursor.character.toNat
  !inside && before.all isBlank

/-- The offset behind a node or pair and the blanks after it. -/
def stopAfterBlanks (site : Site) (stop : Nat) : Nat :=
  max stop (site.source.nextNonBlank stop)

mutual

/-- The completions of missing properties in a map whose path is `front`; `names` are the names of
all properties, those that are there included (`_completions`). -/
def mapCompletions (ctx : Context) (names : List (List Char)) (missing : List (String × Property))
    (front : List Char) : Node → List Completion
  | .map pairs start stop =>
    let items := missing.foldl (addProposals ctx front) []
    if pairs.isEmpty then [{ range := ctx.site.source.range start stop, items }]
    else pairCompletions ctx names missing front items pairs
  | _ => []

/-- The completions around pairs whose path is `front`, where `items` are proposed. -/
def pairCompletions (ctx : Context) (names : List (List Char)) (missing : List (String × Property))
    (front : List Char) (items : List CompletionItem) : List (KeyValue Node) → List Completion
  | [] => []
  | ⟨key, value, _⟩ :: ps =>
    let stop := (value.map Node.stop).getD key.stop
    let range := ctx.site.source.range key.start (stopAfterBlanks ctx.site stop)
    let path := front ++ key.keyText.toList
    let inner :=
      match value with
      | some (.map inner start stop) =>
        if names.any (leadsOn path) then
          mapCompletions ctx names missing (path ++ ['.']) (.map inner start stop)
        else []
      | _ => []
    { range, items, condition := some (atFreeLineStart ctx.site value) } :: inner ++
      pairCompletions ctx names missing front items ps

end

/-! ## Variants -/

/-- The references in the pairs that hold a property. -/
def resolveProperty (visit : Visit) (site : Site) (found : List Pair) (p : Property) :
    Except Fault Report := do
  let reports ← found.mapM fun pair =>
    match pair.value with
    | none => .ok .empty
    | some value => visit (p.schema (.ofPair site pair)) value
  return .mergeAll reports

/-- The references in an object or a map, and completions for the properties it lacks. Where there
is no map yet, all properties are proposed. -/
def resolveMap (visit : Visit) (s : Schema) (site : Site) (n : Node) : Except Fault Report := do
  let ctx := Context.ofNode site n
  match n with
  | .map pairs _ _ =>
    let properties := s.flatProperties ctx
    let found := properties.map fun (key, p) => (key, p, propertyPairs ctx key p pairs)
    let reports ← found.mapM fun (_, p, ps) => resolveProperty visit site ps p
    let missing := (found.filter fun (_, _, ps) => ps.isEmpty).map fun (key, p, _) => (key, p)
    let names := (propertyNames ctx properties).map String.toList
    return .mergeAll reports ++ { completions := mapCompletions ctx names missing [] n }
  | _ =>
    let items := (s.properties ctx).map fun (key, p) => propertyProposal ctx key p
    let range := site.source.range n.start (stopAfterBlanks site n.stop)
    return .ofCompletion { range, items }

/-- The references in the items of a list. -/
def resolveItems (visit : Visit) (rule : ItemsOf Schema) : Node → Except Fault Report
  | .seq items _ _ => do
    match rule with
    | .anything => return .empty
    | .each s => return .mergeAll (← items.mapM (visit s))
    | .inOrder ss => return .mergeAll (← (ss.zip items).mapM fun (s, item) => visit s item)
  | _ => .ok .empty

/-- The report on a skill line and on the skill that it refers to. Lines in block style are not
read (`parse_skill`). -/
def skillLine (supportsTriggers : Bool) (site : Site) (s : Scalar) : Report :=
  if s.isBlock then .empty
  else
    let (start, stop) := if s.isQuoted then (s.start + 1, s.stop - 1) else (s.start, s.stop)
    let mechanic := Mechanic.parse site.source (site.source.slice start stop) start supportsTriggers
    let reference := mechanic.skillReference?.map fun token =>
      Reference.skill.report site (.ofString token.value token.start.toNat token.stop.toNat)
    mechanic.report ++ reference.getD .empty

/-- The reports on the skill lines of a skill list. -/
def skillLines (supportsTriggers : Bool) (site : Site) : Node → Report
  | .seq items _ _ =>
    .mergeAll ((items.filterMap Node.scalar?).map (skillLine supportsTriggers site))
  | _ => .empty

/-- The completions of a string. -/
def resolveString (rule : StringRule) (site : Site) (n : Node) : Report :=
  (n.scalar?.map (rule.complete site)).getD .empty

/-- The references in the structure of a node, by the variant of the schema (`_full_process`). -/
def resolveStructure (visit : Visit) (s : Schema) (site : Site) (n : Node) :
    Except Fault Report :=
  match s with
  | anything _ | bool _ | number _ _ => .ok .empty
  | string _ rule => .ok (resolveString rule site n)
  | list _ items _ => resolveItems visit (items (.ofNode site n)) n
  | skillList _ supportsTriggers => .ok (skillLines supportsTriggers site n)
  | object _ _ | map _ _ _ => resolveMap visit s site n

/-- The references of a node of which no more than `levels` levels are looked at. -/
def resolveWithin (site : Site) : Nat → Visit
  | 0, _, _ => .ok .empty
  | levels + 1, s, n => do
    let report ← resolveStructure (resolveWithin site levels) s site n
    return report ++ (← runChecks (s.info.referenceChecks (.ofNode site n)) site n)

/-- The report on the references of a node (`full_process`). -/
def resolve (s : Schema) (site : Site) (n : Node) : Except Fault Report :=
  resolveWithin site (n.height + 1) s n

end Schema

/-- The schema of a reference to a component: a string whose references are resolved
(`component_reference`). -/
def Reference.schema (ref : Reference) : Schema :=
  (Schema.anyString.named fun _ => some ref.name).withReferenceChecks [ref.check]

end PackLint
