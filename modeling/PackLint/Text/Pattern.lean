import PackLint.Text.Digit
import PackLint.Text.Lines

/-!
# Patterns

A `Pattern` describes a part of a text: alternatives separated by `|`, each a sequence of characters
and sets, which may repeat. `\d` is a decimal digit of any script, `.` any character but a line
feed, `[a-z_]` a set and `[^a-z_]` what is outside of it; `*`, `+` and `?` repeat what stands before
them; `^` is the start of the text and `$` its end, or the place before a line feed that ends it; a
backslash takes the special meaning from any other character.

`Pattern.search` asks whether some part of a text is described by the pattern: what `SchemaString`
asks of a matcher that is a pattern.
-/

namespace PackLint

/-- A set of characters. -/
inductive CharSet where
  | digit
  | ranges (negated : Bool) (members : List (Char × Char))
deriving DecidableEq

/-- Whether a character is in the set. -/
def CharSet.contains : CharSet → Char → Bool
  | digit, c => isDecimal c
  | ranges negated members, c => members.any (fun r => decide (r.1 ≤ c ∧ c ≤ r.2)) != negated

/-- How often a character may come. -/
inductive Repetition where
  | once
  | optional
  | anyNumber
  | atLeastOnce
deriving DecidableEq

/-- An element of a pattern. -/
inductive PatternItem where
  | textStart
  | textEnd
  | chars (set : CharSet) (times : Repetition)
deriving DecidableEq

/-- A pattern: its text and its alternatives. -/
structure Pattern where
  text : String
  alternatives : List (List PatternItem)
deriving DecidableEq

namespace Pattern

/-! ## Reading a pattern -/

/-- The set of one character. -/
def single (c : Char) : CharSet := .ranges false [(c, c)]

/-- The members of a set that is written between brackets. -/
def members : List Char → List (Char × Char)
  | a :: '-' :: b :: cs => (a, b) :: members cs
  | a :: cs => (a, a) :: members cs
  | [] => []

/-- The set that is written between brackets. -/
def bracketSet : List Char → CharSet
  | '^' :: cs => .ranges true (members cs)
  | cs => .ranges false (members cs)

/-- How often the character before a text may come, as the text's first character says. -/
def repetition? : List Char → Option Repetition
  | '*' :: _ => some .anyNumber
  | '+' :: _ => some .atLeastOnce
  | '?' :: _ => some .optional
  | _ => none

/-- Puts an element in front of the first alternative. -/
def addItem (item : PatternItem) : List (List PatternItem) → List (List PatternItem)
  | items :: rest => (item :: items) :: rest
  | [] => [[item]]

/-- The set that is written at the start of `c :: cs`, and how many characters of `cs` it takes. -/
def setAt (c : Char) (cs : List Char) : CharSet × Nat :=
  match c with
  | '.' => (.ranges true [('\n', '\n')], 0)
  | '\\' => (if cs.head? = some 'd' then .digit else single (cs.headD '\\'), 1)
  | '[' =>
    let body := cs.takeWhile (· ≠ ']')
    (bracketSet body, body.length + 1)
  | c => (single c, 0)

/-- The alternatives of a pattern whose first `skip` characters have been read. -/
def alternativesFrom (skip : Nat) : List Char → List (List PatternItem)
  | [] => [[]]
  | c :: cs =>
    match skip with
    | n + 1 => alternativesFrom n cs
    | 0 =>
      if c = '|' then [] :: alternativesFrom 0 cs
      else if c = '^' then addItem .textStart (alternativesFrom 0 cs)
      else if c = '$' then addItem .textEnd (alternativesFrom 0 cs)
      else
        let (set, taken) := setAt c cs
        match repetition? (cs.drop taken) with
        | some times => addItem (.chars set times) (alternativesFrom (taken + 1) cs)
        | none => addItem (.chars set .once) (alternativesFrom taken cs)

/-- The pattern that a text writes. -/
def ofString (text : String) : Pattern :=
  ⟨text, alternativesFrom 0 text.toList⟩

/-! ## Matching -/

/-- What can be left of a text after characters of the set at its start. -/
def rests (set : CharSet) : List Char → List (List Char)
  | [] => [[]]
  | c :: cs => (c :: cs) :: if set.contains c then rests set cs else []

/-- What can be left of a text after a repetition of characters of the set. -/
def restsAfter (set : CharSet) (times : Repetition) (cs : List Char) : List (List Char) :=
  let tail : List (List Char) := match cs with
    | c :: r => if set.contains c then [r] else []
    | [] => []
  match times with
  | .once => tail
  | .optional => tail ++ [cs]
  | .anyNumber => rests set cs
  | .atLeastOnce => tail.flatMap (rests set)

/-- Whether the elements describe a start of `cs`, which is the end of a text of `size`
characters. -/
def describes (size : Nat) : List PatternItem → List Char → Bool
  | [], _ => true
  | .textStart :: items, cs => decide (cs.length = size) && describes size items cs
  | .textEnd :: items, cs => (cs.isEmpty || cs = ['\n']) && describes size items cs
  | .chars set times :: items, cs => (restsAfter set times cs).any (describes size items)

/-- Whether the pattern describes a part of a text. -/
def search (p : Pattern) (text : List Char) : Bool :=
  (suffixes text).any fun cs => p.alternatives.any fun items => describes text.length items cs

end Pattern

end PackLint
