import PackLint.Value

/-!
# Dates in scalars

A scalar may write a day, `2001-02-03`, or a moment, `2001-02-03 04:05:06.7 +08:00`.
-/

namespace PackLint.Yaml

/-- A written day, with a written time if there is one. -/
structure Timestamp where
  date : Date
  /-- Whether month and day have two digits each. -/
  isPadded : Bool
  time : Option DateTime

namespace Timestamp

/-- Reads between `least` and `most` digits: their number, their value, and the rest. -/
def digits? (least most : Nat) (cs : List Char) : Option (Nat × Nat × List Char) :=
  let ds := (cs.take most).takeWhile Char.isDigit
  if ds.length < least then none
  else
    some (ds.length, ds.foldl (fun n c => 10 * n + (c.toNat - 48)) 0, cs.drop ds.length)

/-- Reads the character `c`. -/
def char? (c : Char) : List Char → Option (List Char)
  | d :: cs => if c = d then some cs else none
  | [] => none

/-- The microseconds that the digits behind the point of a second write, rounded at the sixth. -/
def microseconds (ds : List Char) : Nat :=
  let six := (ds.take 6 ++ List.replicate (6 - ds.length) '0').foldl
    (fun n c => 10 * n + (c.toNat - 48)) 0
  match ds[6]? with
  | some c => if '4' < c then six + 1 else six
  | none => six

/-- A space or a tab. -/
def isSpace (c : Char) : Bool := c = ' ' || c = '\t'

/-- The distance from universal time at the end of a moment, in minutes; none may be given. -/
def zone? (cs : List Char) : Option (Option Int) := do
  match cs with
  | [] => some none
  | _ =>
    match cs.dropWhile isSpace with
    | ['Z'] => some (some 0)
    | c :: cs =>
      if c ≠ '+' ∧ c ≠ '-' then none
      let (_, hours, cs) ← digits? 1 2 cs
      let minutes ← match cs with
        | [] => some 0
        | _ => do
          let (_, minutes, cs) ← digits? 2 2 (← char? ':' cs)
          if cs.isEmpty then some minutes else none
      let n : Int := hours * 60 + minutes
      some (some (if c = '-' then -n else n))
    | [] => none

/-- The part between day and hour: a `T`, or spaces. -/
def gap? : List Char → Option (List Char)
  | [] => none
  | c :: cs =>
    if c = 'T' ∨ c = 't' then some cs
    else if isSpace c then some (cs.dropWhile isSpace)
    else none

/-- Reads the time behind a day. -/
def time? (date : Date) (cs : List Char) : Option DateTime := do
  let (_, hour, cs) ← digits? 1 2 (← gap? cs)
  let (_, minute, cs) ← digits? 2 2 (← char? ':' cs)
  let (_, second, cs) ← digits? 2 2 (← char? ':' cs)
  let (fraction, cs) := match cs with
    | '.' :: cs => (cs.takeWhile Char.isDigit, cs.dropWhile Char.isDigit)
    | cs => ([], cs)
  let offset ← zone? cs
  some { date, hour, minute, second, microsecond := microseconds fraction, offset }

/-- A text without the line feed that it ends with. -/
def dropLineFeed (cs : List Char) : List Char :=
  if cs.getLast? = some '\n' then cs.dropLast else cs

/-- Reads a day, perhaps with a time. A line feed at the end does not count. -/
def parse? (cs : List Char) : Option Timestamp := do
  let (_, year, cs) ← digits? 4 4 (dropLineFeed cs)
  let (monthWidth, month, cs) ← digits? 1 2 (← char? '-' cs)
  let (dayWidth, day, cs) ← digits? 1 2 (← char? '-' cs)
  let date : Date := ⟨year, month, day⟩
  let isPadded := monthWidth = 2 && dayWidth = 2
  match cs with
  | [] => some ⟨date, isPadded, none⟩
  | _ => some ⟨date, isPadded, some (← time? date cs)⟩

/-- Whether a scalar without a tag that writes this is a date: a day alone must be padded. -/
def isImplicit (t : Timestamp) : Bool :=
  t.isPadded || t.time.isSome

/-- The value, unless there is no such day or time. A fraction that rounds up to a whole second
is one. -/
def value? (t : Timestamp) : Option Value :=
  match t.time with
  | none => if t.date.isValid then some (.date t.date) else none
  | some u =>
    let zoned := (u.offset.map fun m => decide (m.natAbs < 1440)).getD true
    if t.date.isValid && decide (u.hour < 24 ∧ u.minute < 60 ∧ u.second < 60) && zoned then
      some (.dateTime (if u.microsecond < 1000000 then u
        else { u with microsecond := 0 }.nextSecond))
    else none

end Timestamp

end PackLint.Yaml
