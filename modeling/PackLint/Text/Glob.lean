import PackLint.Text.Lines

/-!
# Glob patterns

A glob matches a whole text: `*` stands for any characters, line feeds and slashes included, `?`
for one character, `[...]` for one character of a set and `[!...]` for one outside of it; all
other characters stand for themselves. A bracket that is not closed stands for itself.

In a set, `a-c` is a range; a range whose ends are in the wrong order is left out, and with it its
ends. A dash that starts or ends the set, or follows a range, stands for itself. Whether a set is
negated shows only when such ranges are gone, so `[z-a!b]` is `[!b]`.

`globMatches` is the `fnmatchcase` that `PathMapping.matches` calls.
-/

namespace PackLint

/-- One element of a glob. -/
inductive GlobItem where
  | anything
  | oneOf (negated : Bool) (members : List (Char × Char))
  | exactly (c : Char)
deriving DecidableEq

namespace Glob

/-! ## Sets -/

/-- A text cut at the dashes that form ranges: the first dash of a text of which `skip` characters
are passed over forms one, and the two characters behind it cannot. `run` holds the current piece,
backwards. -/
def rangePieces (skip : Nat) (run : List Char) : List Char → List (List Char)
  | [] => [run.reverse]
  | c :: cs =>
    match skip with
    | n + 1 => rangePieces n (c :: run) cs
    | 0 => if c = '-' then run.reverse :: rangePieces 2 [] cs else rangePieces 0 (c :: run) cs

/-- A last piece that is empty makes the dash before it a member of the piece before. -/
def mergeLastDash : List (List Char) → List (List Char)
  | [p, []] => [p ++ ['-']]
  | p :: ps => p :: mergeLastDash ps
  | [] => []

/-- Joins the pieces around every range whose ends are in the wrong order, from the last on, and
leaves out the ends. -/
def dropEmptyRanges : List (List Char) → List (List Char)
  | [] => []
  | p :: ps =>
    match dropEmptyRanges ps with
    | [] => [p]
    | q :: qs =>
      match p.getLast?, q.head? with
      | some a, some b => if b < a then (p.dropLast ++ q.drop 1) :: qs else p :: q :: qs
      | _, _ => p :: q :: qs

/-- The members that pieces stand for: ranges between them, single characters inside. `low` is the
start of a range that the first piece ends. -/
def members (low : Option Char) : List (List Char) → List (Char × Char)
  | [] => []
  | [p] =>
    match low, p with
    | some a, b :: cs => (a, b) :: cs.map fun c => (c, c)
    | _, cs => cs.map fun c => (c, c)
  | p :: q :: ps =>
    let (closing, p) := match low, p with
      | some a, b :: cs => ([(a, b)], cs)
      | _, cs => ([], cs)
    closing ++ p.dropLast.map (fun c => (c, c)) ++ members p.getLast? (q :: ps)

/-- A first piece that is empty makes the dash behind it a member of the piece after. -/
def mergeFirstDash : List (List Char) → List (List Char)
  | [] :: q :: ps => ('-' :: q) :: ps
  | ps => ps

/-- The element for the text between the brackets of a set. The `!` that starts it and the
character behind that, or else its first character alone, are no dashes of ranges. -/
def setItem (body : List Char) : GlobItem :=
  let skip := if body.head? = some '!' then 2 else 1
  match dropEmptyRanges (mergeLastDash (rangePieces skip [] body)) with
  | ('!' :: p) :: ps => .oneOf true (members none (mergeFirstDash (p :: ps)))
  | ps => .oneOf false (members none ps)

/-- The text between the brackets of a set that starts here, and the text behind it. A closing
bracket that comes first, or first behind the `!`, is a member. -/
def setBody? (cs : List Char) : Option (List Char × List Char) :=
  let (front, cs) := match cs with
    | '!' :: ']' :: r => (['!', ']'], r)
    | '!' :: r => (['!'], r)
    | ']' :: r => ([']'], r)
    | r => ([], r)
  let inner := cs.takeWhile (· ≠ ']')
  match cs.dropWhile (· ≠ ']') with
  | [] => none
  | _ :: rest => some (front ++ inner, rest)

/-! ## Patterns -/

/-- The elements of a pattern, the first `skip` characters of which have been read. -/
def itemsFrom (skip : Nat) : List Char → List GlobItem
  | [] => []
  | c :: cs =>
    match skip with
    | n + 1 => itemsFrom n cs
    | 0 =>
      if c = '*' then .anything :: itemsFrom 0 cs
      else if c = '?' then .oneOf true [] :: itemsFrom 0 cs
      else if c = '[' then
        match setBody? cs with
        | some (body, _) => setItem body :: itemsFrom (body.length + 1) cs
        | none => .exactly '[' :: itemsFrom 0 cs
      else .exactly c :: itemsFrom 0 cs

/-- The elements of a pattern. -/
def items (pattern : String) : List GlobItem :=
  itemsFrom 0 pattern.toList

/-- Whether the elements match the whole text. -/
def matchItems : List GlobItem → List Char → Bool
  | [], cs => cs.isEmpty
  | .anything :: ps, cs => (suffixes cs).any (matchItems ps)
  | .oneOf negated members :: ps, c :: cs =>
    (members.any (fun r => decide (r.1 ≤ c ∧ c ≤ r.2)) != negated) && matchItems ps cs
  | .exactly d :: ps, c :: cs => decide (c = d) && matchItems ps cs
  | _ :: _, [] => false

end Glob

/-- Whether a glob matches a text. -/
def globMatches (pattern : String) (text : List Char) : Bool :=
  Glob.matchItems (Glob.items pattern) text

end PackLint
