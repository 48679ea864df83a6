import PackLint.Schema.Context

/-!
# Rules for numbers

A `NumberRule` bounds a number from below and from above and may ask for an integer. The first of
these that is violated is the only one that is reported. Model of the fields of `SchemaNumber`.
-/

namespace PackLint

/-- A bound of a range. -/
structure Bound where
  value : Number
  inclusive : Bool := true

/-- What is asked of a number (`SchemaNumber`). -/
structure NumberRule where
  minimum : Context → Option Number := fun _ => none
  maximum : Context → Option Number := fun _ => none
  minimumInclusive : Context → Bool := fun _ => true
  maximumInclusive : Context → Bool := fun _ => true
  integer : Context → Bool := fun _ => false

namespace Number

/-- A number as messages show it: whole numbers have no fraction (`_fmt`). -/
def shown : Number → String
  | int n => toString n
  | float x => if x.isInteger then toString x.toInt else x.text

/-- A number as messages show it, unless it is an integer with too many digits. -/
def shown? (n : Number) : Except Fault String :=
  if n.isWritable then .ok n.shown else .error .integerTooLong

/-- Whether a number is whole; an integer is asked as the nearest number of 64 bits. -/
def isWhole? : Number → Except Fault Bool
  | int n => if (Binary64.ofInt? n).isSome then .ok true else .error .integerTooLarge
  | float x => .ok x.isInteger

end Number

namespace NumberRule

variable (rule : NumberRule) (ctx : Context)

/-- The lower bound. -/
def lower? : Option Bound :=
  (rule.minimum ctx).map fun n => ⟨n, rule.minimumInclusive ctx⟩

/-- The upper bound. -/
def upper? : Option Bound :=
  (rule.maximum ctx).map fun n => ⟨n, rule.maximumInclusive ctx⟩

/-- The rule as text: a bound that is included has an equals sign at its inner side
(`internal_name`). -/
def description : String :=
  let name := if rule.integer ctx then "integer" else "number"
  match rule.lower? ctx, rule.upper? ctx with
  | none, none => name
  | lower, upper =>
    let low := (lower.map fun b => b.value.shown ++ if b.inclusive then "=" else "").getD ""
    let high := (upper.map fun b => (if b.inclusive then "=" else "") ++ b.value.shown).getD ""
    name ++ "(" ++ low ++ ".." ++ high ++ ")"

/-- What is said of a number beyond a bound. -/
def outOfRange (words : String) (bound n : Number) : Except Fault (DiagnosticCode × String) := do
  let shown ← n.shown?
  return (.numberOutOfRange,
    "Expected value to be " ++ words ++ " " ++ bound.shown ++ ", but got " ++ shown ++ ".")

/-- What is wrong with a number below the lower bound. -/
def belowMinimum? (n : Number) : Option (Except Fault (DiagnosticCode × String)) := do
  let b ← rule.lower? ctx
  if b.inclusive then
    if n.lt b.value then some (outOfRange "at least" b.value n) else none
  else if n.le b.value then some (outOfRange "greater than" b.value n) else none

/-- What is wrong with a number above the upper bound. -/
def aboveMaximum? (n : Number) : Option (Except Fault (DiagnosticCode × String)) := do
  let b ← rule.upper? ctx
  if b.inclusive then
    if b.value.lt n then some (outOfRange "at most" b.value n) else none
  else if b.value.le n then some (outOfRange "less than" b.value n) else none

/-- The first part of the rule that a number violates, with a message. -/
def violation? (n : Number) : Except Fault (Option (DiagnosticCode × String)) := do
  match rule.belowMinimum? ctx n with
  | some problem => return some (← problem)
  | none =>
    match rule.aboveMaximum? ctx n with
    | some problem => return some (← problem)
    | none =>
      if rule.integer ctx then
        if ← n.isWhole? then return none
        return some (.numberNotInteger,
          "Expected value to be an integer, but got " ++ (← n.shown?) ++ ".")
      return none

end NumberRule

end PackLint
