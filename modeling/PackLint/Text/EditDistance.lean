/-!
# Edit distance and suggestions

`editDistance` is the least number of insertions, deletions and substitutions of single characters
between two texts, computed row by row. `closest?` picks the first of the candidates nearest to a
text, unless all are too far.

Model of `levenshtein` and `closest`. `levenshtein` first exchanges its arguments if the first one
is the shorter, so that its rows are short. `editDistance` leaves that out, which changes nothing:
the number of edits from `a` to `b` is that from `b` to `a`.
-/

namespace PackLint

/-- The rest of the row of `c` over `b`, given the entry to its left and the row above from the
entry above that one on. -/
def distanceRowFrom (c : Char) (left : Nat) : List Char → List Nat → List Nat
  | d :: b, diagonal :: above :: row =>
    let entry := min (min (above + 1) (left + 1)) (diagonal + if c = d then 0 else 1)
    entry :: distanceRowFrom c entry b (above :: row)
  | _, _ => []

/-- The row below `row` when one more character `c` is read against `b`. -/
def distanceRow (b : List Char) (row : List Nat) (c : Char) : List Nat :=
  match row with
  | [] => []
  | first :: _ => (first + 1) :: distanceRowFrom c (first + 1) b row

/-- The least number of edits of single characters that turn `a` into `b` (`levenshtein`, but
without the exchange of its arguments). -/
def editDistance (a b : List Char) : Nat :=
  ((a.foldl (distanceRow b) (List.range (b.length + 1))).getLast?).getD 0

/-- The first candidate at the least distance from `text`, if that is at most `limit`
(`closest`). -/
def closest? (limit : Int) (text : String) (candidates : List String) : Option String :=
  let step (best : Option String × Int) (candidate : String) : Option String × Int :=
    let distance : Int := editDistance text.toList candidate.toList
    if distance < best.2 then (some candidate, distance) else best
  (candidates.foldl step (none, limit + 1)).1

end PackLint
