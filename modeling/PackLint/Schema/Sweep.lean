import PackLint.Schema.Context
import PackLint.Text.Lines

/-!
# Unexpected keys

`sweep` walks over the keys of a map that belong to no property. A key whose dotted path is a name
of a property belongs to it; one whose path starts a longer name is a step towards a property, so
its value must be a map and is walked over in turn; every other key is unexpected.

Model of `_check_unexpected`. The pairs that were found before (`claimed`) are told by their paths
instead of being passed along: a pair that `find_pairs` finds is one of a scalar key whose path is a
name.
-/

namespace PackLint

/-- Whether a name goes on behind a path and a dot. -/
def leadsOn (path name : List Char) : Bool :=
  (path ++ ['.']).isPrefixOf name

/-- Asks that all keys can be written as text. -/
def requireTextKeys (pairs : List Pair) : Except Fault Unit :=
  if pairs.all (·.key.isTextKey) then .ok () else .error .integerTooLong

namespace Site

variable (site : Site)

/-- The report of a step towards a property that is not a map. -/
def brokenStep (path : List Char) (key : Node) : Option Node → Report
  | none => site.problem key .missingValue ("Expected a value for `" ++ String.ofList path ++ "`.")
  | some value => site.problem value .invalidType
      ("Expected a map of properties for `" ++ String.ofList path ++ "`.")

/-- The report of a key that is no name of a property, below `front`; the candidates are the names
behind `front` (`closest`). -/
def unexpectedKey (names : List (List Char)) (front : List Char) (key : Node) : Report :=
  let candidates := (names.filter front.isPrefixOf).map fun n => String.ofList (n.drop front.length)
  let suggestion := site.suggestion? key.keyText candidates
  site.problem key .unexpectedProperty
    ("Unexpected property `" ++ key.keyText ++ "`." ++ suggestionText suggestion)

mutual

/-- The report on the keys of a map whose path is `front` (`_check_unexpected`). -/
def sweep (names : List (List Char)) (front : List Char) : Node → Except Fault Report
  | .map pairs _ _ => do
    requireTextKeys pairs
    sweepPairs names front pairs
  | _ => .ok .empty

/-- The report on the keys of pairs whose path is `front`. -/
def sweepPairs (names : List (List Char)) (front : List Char) :
    List (KeyValue Node) → Except Fault Report
  | [] => .ok .empty
  | ⟨key, value, _⟩ :: ps => do
    let path := front ++ key.keyText.toList
    let report ←
      if key.isScalar && names.contains path then .ok .empty
      else if names.any (leadsOn path) then
        match value with
        | some (.map inner start stop) => sweep names (path ++ ['.']) (.map inner start stop)
        | value => .ok (site.brokenStep path key value)
      else .ok (site.unexpectedKey names front key)
    return report ++ (← sweepPairs names front ps)

end

end Site

end PackLint
