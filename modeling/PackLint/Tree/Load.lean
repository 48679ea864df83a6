import PackLint.Tree
import PackLint.Yaml.Graph
import PackLint.Text.Source
import PackLint.Text.Lines
import PackLint.Settings

/-!
# Loading trees

`Node.load` reads a source as a tree. The graph of a document may be shared or even hold itself,
so the tree, in which every alias is a copy, is limited in size and depth; nodes are counted on
the way, and a key without a value has none to count.

Model of `TrackedLoader` (`load_string`, `_convert`, `_convert_value`, `_trim_end`) and of
`_comment_before`. `Yaml.Graph.convert` recurses to whatever depth the limits allow. `_convert` and
the composer before it also stop at the interpreter's own limit on recursion, which no setting is
compared with and which lies far above the default of `maxDepth`; it is left out here.
-/

namespace PackLint

/-- Why a source has no tree. -/
inductive LoadError where
  | tooLarge (size : Nat) (limit : Int)
  | tooManyNodes (limit : Int)
  | tooDeep (limit : Int)
  | unreadable (e : Yaml.Error)
deriving DecidableEq

/-- Digits in groups of three. -/
def groupDigits (digits : List Char) : List Char :=
  let head := digits.length % 3
  let groups := (List.range (digits.length / 3)).map fun i => (digits.drop (head + 3 * i)).take 3
  let groups := if head = 0 then groups else digits.take head :: groups
  [','].intercalate groups

/-- An integer with its digits in groups of three. -/
def groupedText (n : Int) : String :=
  String.ofList ((if n < 0 then ['-'] else []) ++ groupDigits (Nat.toDigits 10 n.natAbs))

/-- What is said of a source that goes beyond the limits. -/
def LoadError.message : LoadError → String
  | tooLarge size limit =>
    "YAML document exceeds maximum size (" ++ groupedText size ++ " chars > " ++
      groupedText limit ++ " limit)"
  | tooManyNodes limit =>
    "YAML document exceeds maximum node count (" ++ groupedText limit ++ ")"
  | tooDeep limit => "YAML document exceeds maximum depth (" ++ toString limit ++ ")"
  | unreadable (.malformed problem _) => problem
  | unreadable (.notABoolean text) => text
  | unreadable (.notANumber text) => text
  | unreadable .emptyNumber => "the number is empty"
  | unreadable .afterLastYear => "the moment is behind the last year"
  | unreadable (.noSuchCharacter n) => toString n
  | unreadable (.unknownVersion v) => "(" ++ toString v.major ++ ", " ++ toString v.minor ++ ")"

/-! ## Comments -/

/-- The comment lines that end right above line `line`, the nearest first: the loop of
`_comment_before`. -/
def Source.commentLines (src : Source) : Nat → List (List Char)
  | 0 => []
  | line + 1 =>
    let text := trim (src.slice (src.lineStart line) (src.lineEnd line))
    if text.head? = some '#' then text :: src.commentLines line else []

/-- The comment lines above the line of `offset`, if there are any and nothing but blanks stands
before `offset` on its own line (`_comment_before`). -/
def Source.commentBefore (src : Source) (offset : Nat) : Option String :=
  let line := src.lineOf offset
  if (trim (src.slice (src.lineStart line) offset)).isEmpty then
    match src.commentLines line with
    | [] => none
    | lines => some (String.ofList (joinWith '\n' lines.reverse))
  else none

/-- The offset `stop` moved back over blanks, but not before `start` (`_trim_end`). -/
def Source.trimStop (src : Source) (start stop : Nat) : Nat :=
  stop - ((src.slice start stop).reverse.takeWhile isBlank).length

/-! ## Conversion -/

/-- Applies a counting function to the members of a list in order. -/
def mapCounted {α β ε : Type} (f : α → Nat → Except ε (β × Nat)) :
    List α → Nat → Except ε (List β × Nat)
  | [], count => .ok ([], count)
  | a :: as, count => do
    let (b, count) ← f a count
    let (bs, count) ← mapCounted f as count
    .ok (b :: bs, count)

namespace Yaml.Graph

/-- Whether a node is written as nothing at all, so that a key has no value (`_convert_value`). -/
def isAbsent (g : Graph) (number : Nat) : Bool :=
  match g.nodes[number]? with
  | some ⟨.scalar .null [] _, _, _⟩ => true
  | _ => false

/-- The tree below a node that may have `levels - 1` levels below it, when `count` nodes have been
counted before; and the number of nodes counted (`_convert`, without the interpreter's own limit on
recursion). -/
def convert (g : Graph) (src : Source) (limits : Limits) :
    Nat → Nat → Nat → Except LoadError (Node × Nat)
  | levels, number, count =>
    let count := count + 1
    if limits.maxNodeCount < count then .error (.tooManyNodes limits.maxNodeCount)
    else
      match levels with
      | 0 => .error (.tooDeep limits.maxDepth)
      | levels + 1 => do
        let child := convert g src limits levels
        let ⟨node, start, stop⟩ := g.nodes.getD number default
        match node with
        | .scalar tag text style =>
          match decodeScalar g.version tag text start with
          | .ok value =>
            .ok (.scalar ⟨value, String.ofList text, start.index, stop.index, style⟩, count)
          | .error e => .error (.unreadable e)
        | .sequence items =>
          let (items, count) ← mapCounted child items count
          .ok (.seq items start.index (src.trimStop start.index stop.index), count)
        | .mapping pairs =>
          let pair (kv : Nat × Nat) (count : Nat) : Except LoadError (Pair × Nat) := do
            let (key, count) ← child kv.1 count
            let comment := src.commentBefore (g.nodes.getD kv.1 default).start.index
            if g.isAbsent kv.2 then .ok (⟨key, none, comment⟩, count)
            else
              let (value, count) ← child kv.2 count
              .ok (⟨key, some value, comment⟩, count)
          let (pairs, count) ← mapCounted pair pairs count
          .ok (.map pairs start.index (src.trimStop start.index stop.index), count)

/-- The tree of a graph. -/
def toNode (g : Graph) (src : Source) (limits : Limits) : Except LoadError Node := do
  let (node, _) ← g.convert src limits (limits.maxDepth + 1).toNat g.root 0
  return node

end Yaml.Graph

/-- Reads a source as a tree; a source without a document has none (`load_string`). -/
def Node.load (limits : Limits) (src : Source) : Except LoadError (Option Node) :=
  if limits.maxDocumentSize < src.size then
    .error (.tooLarge src.size limits.maxDocumentSize)
  else
    match Yaml.Graph.ofText? src.toList with
    | .error e => .error (.unreadable e)
    | .ok none => .ok none
    | .ok (some g) => (g.toNode src limits).map some

end PackLint
