import PackLint.Tree
import PackLint.Text.Lines

/-!
# Dotted keys

A key with dots stands for nested maps: `A.B: x` says the same as `A: {B: x}`. `findPairs` finds
all pairs that hold a key, however its dots are spread over nested maps.

The pairs that `findPairs` returns end different chains of pairs, and the keys of a chain determine
how many segments each of its pairs takes, so no pair is found twice. `find_pairs`, of which this is
the model, still drops repetitions at its end; there is nothing for it to drop.
-/

namespace PackLint

/-- The segments of a dotted key. -/
def keySegments (key : String) : List (List Char) :=
  cutAt '.' key.toList

/-- The pairs whose key is a scalar with the text `key`. -/
def pairsNamed (pairs : List Pair) (key : String) : List Pair :=
  pairs.filter fun p => p.key.isScalar && p.keyText = key

/-- The pairs of the maps that stand under `key`, map by map. -/
def mapsUnder (pairs : List Pair) (key : String) : List (List Pair) :=
  pairs.filterMap fun p => if p.keyText = key then p.value.bind Node.pairs? else none

/-- The pairs that hold, in maps below `pairs`, the key of the given segments; the first pair of a
chain has `front` before its first segment. Shorter first keys come first. -/
def pairsBelow (pairs : List Pair) (front : List Char) : List (List Char) → List Pair
  | [] => []
  | s :: rest =>
    if rest.isEmpty then []
    else
      let key := front ++ s
      let name := String.ofList (joinWith '.' rest)
      (mapsUnder pairs (String.ofList key)).flatMap
        (fun inner => pairsNamed inner name ++ pairsBelow inner [] rest) ++
      pairsBelow pairs (key ++ ['.']) rest

/-- The pairs that hold a dotted key: those that have it literally, then those in nested maps
(`find_pairs`). -/
def findPairs (pairs : List Pair) (key : String) : List Pair :=
  pairsNamed pairs key ++ pairsBelow pairs [] (keySegments key)

end PackLint
