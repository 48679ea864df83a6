import PackLint.Yaml.Event
import PackLint.Yaml.Scalar.Decode

/-!
# Node graphs

The nodes of a document, with their children by number. An alias stands for the node itself that
bears the anchor, so a graph may share nodes, and even hold itself: an anchored collection can be
named inside of it. A graph is what `compose` gives `TrackedLoader.load_string`.
-/

namespace PackLint.Yaml

/-- A node, its children given by their numbers. -/
inductive GraphNode where
  | scalar (tag : ScalarTag) (text : List Char) (style : ScalarStyle)
  | sequence (items : List Nat)
  | mapping (pairs : List (Nat × Nat))
deriving Inhabited

/-- A node and the places where its text starts and ends. -/
structure PlacedNode where
  node : GraphNode
  start : Mark
  stop : Mark
deriving Inhabited

/-- The nodes of a document, the number of the outermost, and the version of the document. -/
structure Graph where
  nodes : Array PlacedNode
  root : Nat
  version : Version

/-- A collection of which not all children are known; the latest child comes first. -/
structure OpenNode where
  number : Nat
  isMapping : Bool
  children : List Nat := []

/-- A graph in the making. -/
structure Composer where
  nodes : Array PlacedNode := #[]
  anchors : List (String × Nat) := []
  /-- The collections around the next node, the innermost first. -/
  around : List OpenNode := []
  root : Option Nat := none
  /-- Whether a document has started. -/
  started : Bool := false
  version : Version := .v1_2

namespace Composer

variable (c : Composer)

/-- Makes a node the next child of the innermost open collection, or the root. -/
def attach (number : Nat) : Composer :=
  match c.around with
  | o :: around => { c with around := { o with children := number :: o.children } :: around }
  | [] => { c with root := some number }

/-- Adds a node; its anchor names it from now on. -/
def add (anchor : Option String) (node : PlacedNode) : Composer :=
  let anchors := match anchor with
    | some name => (name, c.nodes.size) :: c.anchors
    | none => c.anchors
  { c with nodes := c.nodes.push node, anchors }

/-- Adds a collection whose children follow. -/
def openNode (anchor : Option String) (isMapping : Bool) (start stop : Mark) : Composer :=
  let number := c.nodes.size
  let c := c.add anchor ⟨.sequence [], start, stop⟩
  { c with around := ⟨number, isMapping, []⟩ :: c.around }

/-- Children in pairs. -/
def pairUp : List Nat → List (Nat × Nat)
  | k :: v :: rest => (k, v) :: pairUp rest
  | _ => []

/-- Ends the innermost open collection at `stop`. -/
def closeNode (stop : Mark) : Composer :=
  match c.around with
  | [] => c
  | o :: around =>
    let children := o.children.reverse
    let node := if o.isMapping then .mapping (pairUp children) else .sequence children
    let nodes := c.nodes.modify o.number fun n => { n with node, stop }
    { c with nodes, around }.attach o.number

/-- What a scalar is by its tag, or by its text. -/
def scalarTag (version : Version) (tag : Option String) (decidedByText : Bool)
    (text : List Char) : Except Error ScalarTag :=
  if decidedByText then
    match ScalarTag.ofText? version text with
    | some t => .ok t
    | none => .error (.unknownVersion version)
  else .ok ((tag.map ScalarTag.ofName).getD .str)

/-- Takes in one event. -/
def step (e : Event) : Except Error Composer := do
  match e.kind with
  | .documentStart =>
    if c.started then throw (.malformed "found another document" (some e.start))
    return { c with started := true, version := e.version }
  | .aliasOf name =>
    match c.anchors.lookup name with
    | some number => return c.attach number
    | none => throw (.malformed ("found undefined alias " ++ name) (some e.start))
  | .scalar anchor tag decidedByText text style =>
    let tag ← scalarTag e.version tag decidedByText text
    let number := c.nodes.size
    return (c.add anchor ⟨.scalar tag text style, e.start, e.stop⟩).attach number
  | .sequenceStart anchor => return c.openNode anchor false e.start e.stop
  | .mappingStart anchor => return c.openNode anchor true e.start e.stop
  | .sequenceEnd | .mappingEnd => return c.closeNode e.stop
  | .documentEnd | .streamEnd => return c

/-- The graph of a document that has been taken in whole. -/
def graph? : Option Graph :=
  c.root.map fun root => ⟨c.nodes, root, c.version⟩

end Composer

/-- The graph of the only document of a text; none if the text holds no document. The fault of the
events counts only when nothing is wrong before it. -/
def Graph.ofText? (text : List Char) : Except Error (Option Graph) := do
  let stream := Event.stream text
  let c ← stream.events.foldlM (fun (c : Composer) e => c.step e) {}
  match stream.fault with
  | some e => throw e
  | none => return c.graph?

end PackLint.Yaml
