import PackLint.Value
import PackLint.Yaml.Token

/-!
# Trees

A document read as a tree: scalars with their values, sequences, and maps whose pairs keep their
order and may repeat keys. Every node knows the offsets at which its text starts and ends.

Model of `ScalarNode`, `SeqNode`, `Pair` and `MapNode`, with `to_python` (`Node.toValue`) and
`iter_scalars` (`Node.scalars`).
-/

namespace PackLint

/-- A scalar: its value, its text, and the offsets around it, quotes included (`ScalarNode`). -/
structure Scalar where
  value : Value
  text : String
  start : Nat
  stop : Nat
  style : Yaml.ScalarStyle := .plain

/-- A key with its value, if it has one, and the comment lines above the key (`Pair`). -/
structure KeyValue (α : Type) where
  key : α
  value : Option α
  commentBefore : Option String := none

/-- A node of a tree. -/
inductive Node where
  | scalar (s : Scalar)
  | seq (items : List Node) (start stop : Nat)
  | map (pairs : List (KeyValue Node)) (start stop : Nat)
deriving Inhabited

/-- A pair of a map. -/
abbrev Pair := KeyValue Node

namespace Scalar

/-- Whether the scalar is written between quotes. -/
def isQuoted (s : Scalar) : Bool :=
  s.style = .singleQuoted || s.style = .doubleQuoted

/-- Whether the scalar is written as a block of lines. -/
def isBlock (s : Scalar) : Bool :=
  s.style = .literal || s.style = .folded

/-- The value of a scalar that is a string, else its text (`scalar_text`). -/
def string (s : Scalar) : String :=
  match s.value with
  | .str text => text
  | _ => s.text

/-- A string that stands at `start` up to `stop`. -/
def ofString (text : String) (start stop : Nat) : Scalar where
  value := .str text
  text
  start
  stop

end Scalar

namespace Node

/-- Where the text of a node starts. -/
def start : Node → Nat
  | scalar s => s.start
  | seq _ start _ => start
  | map _ start _ => start

/-- Where the text of a node ends. -/
def stop : Node → Nat
  | scalar s => s.stop
  | seq _ _ stop => stop
  | map _ _ stop => stop

/-- The node as a scalar. -/
def scalar? : Node → Option Scalar
  | scalar s => some s
  | _ => none

/-- Whether the node is a scalar. -/
def isScalar (n : Node) : Bool := n.scalar?.isSome

/-- The pairs of a map. -/
def pairs? : Node → Option (List Pair)
  | map pairs _ _ => some pairs
  | _ => none

/-- Whether the node is a map. -/
def isMap (n : Node) : Bool := n.pairs?.isSome

mutual

/-- What a node stands for (`to_python`). -/
def toValue : Node → Value
  | scalar s => s.value
  | seq items _ _ => .list (itemValues items)
  | map pairs _ _ => .dict (pairValues pairs [])

/-- What nodes stand for. -/
def itemValues : List Node → List Value
  | [] => []
  | n :: ns => toValue n :: itemValues ns

/-- What pairs stand for, put behind the entries of the pairs before them. -/
def pairValues : List (KeyValue Node) → List (String × Value) → List (String × Value)
  | [], entries => entries
  | ⟨key, value, _⟩ :: pairs, entries =>
    let name := match key with
      | .scalar s => s.text
      | _ => (toValue key).text
    let value := match value with
      | some n => toValue n
      | none => .null
    pairValues pairs (Entries.insert name value entries)

end

/-- The text of a node as a key (`key_text`). -/
def keyText : Node → String
  | scalar s => s.text
  | n => n.toValue.text

mutual

/-- Whether all keys in a node can be written as text. A collection that is a key cannot if it holds
an integer with too many digits. -/
def hasTextKeys : Node → Bool
  | scalar _ => true
  | seq items _ _ => itemsHaveTextKeys items
  | map pairs _ _ => pairsHaveTextKeys pairs

/-- Whether all keys in nodes can be written as text. -/
def itemsHaveTextKeys : List Node → Bool
  | [] => true
  | n :: ns => hasTextKeys n && itemsHaveTextKeys ns

/-- Whether all keys of pairs and in them can be written as text. -/
def pairsHaveTextKeys : List (KeyValue Node) → Bool
  | [] => true
  | ⟨key, value, _⟩ :: pairs =>
    (key.isScalar || key.toValue.isWritable && hasTextKeys key) &&
    (match value with
      | some n => hasTextKeys n
      | none => true) && pairsHaveTextKeys pairs

end

/-- Whether a key can be written as text. -/
def isTextKey (key : Node) : Bool :=
  key.isScalar || key.toValue.isWritable && key.hasTextKeys

mutual

/-- The number of collections around the innermost node. -/
def height : Node → Nat
  | scalar _ => 0
  | seq items _ _ => itemsHeight items + 1
  | map pairs _ _ => pairsHeight pairs + 1

/-- The greatest height of the nodes. -/
def itemsHeight : List Node → Nat
  | [] => 0
  | n :: ns => max (height n) (itemsHeight ns)

/-- The greatest height of the keys and values. -/
def pairsHeight : List (KeyValue Node) → Nat
  | [] => 0
  | ⟨key, some value, _⟩ :: pairs => max (height key) (max (height value) (pairsHeight pairs))
  | ⟨key, none, _⟩ :: pairs => max (height key) (pairsHeight pairs)

end

mutual

/-- The scalars of a tree in order, and whether each is a key (`iter_scalars`). -/
def scalars : Node → List (Scalar × Bool)
  | scalar s => [(s, false)]
  | seq items _ _ => itemScalars items
  | map pairs _ _ => pairScalars pairs

/-- The scalars of nodes. -/
def itemScalars : List Node → List (Scalar × Bool)
  | [] => []
  | n :: ns => scalars n ++ itemScalars ns

/-- The scalars of pairs. -/
def pairScalars : List (KeyValue Node) → List (Scalar × Bool)
  | [] => []
  | ⟨key, value, _⟩ :: pairs =>
    (match key with
      | .scalar s => [(s, true)]
      | _ => scalars key) ++
    (match value with
      | some n => scalars n
      | none => []) ++ pairScalars pairs

end

end Node

namespace KeyValue

/-- The text of the key. -/
def keyText (p : Pair) : String := p.key.keyText

/-- Where the pair starts. -/
def start (p : Pair) : Nat := p.key.start

/-- Where the pair ends: with its value, or with its key. -/
def stop (p : Pair) : Nat := (p.value.map Node.stop).getD p.key.stop

end KeyValue

namespace Node

/-- The first pair of a map that has the key. -/
def pair? (n : Node) (key : String) : Option Pair :=
  (n.pairs?.getD []).find? (·.keyText = key)

/-- The value of the first pair of a map that has the key (`MapNode.get`). -/
def get? (n : Node) (key : String) : Option Node :=
  (n.pair? key).bind (·.value)

end Node

end PackLint
