import PackLint.Value
import PackLint.Number.Reading

/-!
# Fields from outside

Settings and game data come from outside as values under names. A reader turns a value into what a
field holds, or tells the `FieldProblem`. Readers are lenient where nothing can be mistaken: a
number may be written as a string, a whole floating point number is an integer, and a truth value
is one or zero. These are the rules by which `Settings` and `MythicData` validate their fields.
-/

namespace PackLint

/-- Why a value does not fit a field. -/
inductive FieldProblem where
  | notAnInteger
  | unreadableInteger
  | integerTooLarge
  | fractional
  | notFinite
  | notANumber
  | unreadableNumber
  | notAString
  | notAList
deriving DecidableEq

/-- The name of a problem. -/
def FieldProblem.name : FieldProblem → String
  | notAnInteger => "int_type"
  | unreadableInteger => "int_parsing"
  | integerTooLarge => "int_parsing_size"
  | fractional => "int_from_float"
  | notFinite => "finite_number"
  | notANumber => "float_type"
  | unreadableNumber => "float_parsing"
  | notAString => "string_type"
  | notAList => "tuple_type"

/-- A problem with the field of the given name. -/
structure FieldError where
  field : String
  problem : FieldProblem
deriving DecidableEq

namespace Field

/-! ## Numbers as texts -/

/-- The text without its underscores, none of which may stand at an end or beside another. -/
def dropLoneUnderscores? (cs : List Char) : Option (List Char) :=
  if cs.head? = some '_' ∨ cs.getLast? = some '_' ∨ (cs.zip (cs.drop 1)).contains ('_', '_') then
    none
  else some (cs.filter (· ≠ '_'))

/-- What follows zeros and underscores, the last of which is `last`: a digit or a dash. Before a
point, and at the end of the text, `last` stays. -/
def behindZeros? (last : Char) : List Char → Option (List Char)
  | [] => some [last]
  | c :: cs =>
    if c = '0' ∨ c = '_' then behindZeros? c cs
    else if isAsciiDigit c ∨ c = '-' then some (c :: cs)
    else if c = '.' then some (last :: c :: cs)
    else none

/-- The text without the zeros at its front and the underscores among them; it must start with a
digit. -/
def dropLeadingZeros? (cs : List Char) : Option (List Char) :=
  match cs with
  | '0' :: r => behindZeros? '0' r
  | c :: _ => if isAsciiDigit c then some cs else none
  | [] => none

/-- The text without a point and the zeros behind it, of which there must be some, if it ends so. -/
def dropZeroFraction (cs : List Char) : List Char :=
  match cs.reverse.dropWhile (· = '0') with
  | '.' :: r => if cs.getLast? = some '0' then r.reverse else cs
  | _ => cs

/-- The sign of an integer, which may stand behind zeros if none stands before them, and its
digits. -/
def integerDigits? (text : String) : Option (Bool × List Char) := do
  let cs := trimWhiteSpace text.toList
  let isSigned := cs.head? = some '-' ∨ cs.head? = some '+'
  let (outer, cs) := splitSign cs
  let cs ← dropLeadingZeros? cs
  let isInner := cs.head? = some '-'
  if isSigned ∧ isInner then none
  let ds ← dropLoneUnderscores? (dropZeroFraction (if isInner then cs.drop 1 else cs))
  if ds.isEmpty || !ds.all isAsciiDigit then none
  some (outer || isInner, ds)

/-- The integer that a text writes, perhaps with white space around it. -/
def readInteger (text : String) : Except FieldProblem Int :=
  match integerDigits? text with
  | none => .error .unreadableInteger
  | some (negative, ds) =>
    if maxDecimalDigits < ds.length then .error .integerTooLarge
    else
      let n : Int := digitsValue 10 ds
      .ok (if negative then -n else n)

/-- The floating point number that a text writes, with white space around it or with underscores. -/
def readNumber? (text : String) : Option Binary64 :=
  (readPlainFloat? (trimWhiteSpace text.toList)).or
    ((dropLoneUnderscores? text.toList).bind readPlainFloat?)

/-! ## Values of fields -/

/-- The bound below which, and above the negative of which, a floating point number must lie to
count as an integer. -/
def wholeNumberBound : Nat := Nat.pow 2 63

/-- The value as an integer. -/
def integer : Value → Except FieldProblem Int
  | .bool b => .ok (if b then 1 else 0)
  | .number (.int n) => .ok n
  | .number (.float (.finite s m e)) =>
    let x := Binary64.finite s m e
    if !x.isInteger then .error .fractional
    else if x.toInt.natAbs < wholeNumberBound then .ok x.toInt
    else .error .integerTooLarge
  | .number (.float _) => .error .notFinite
  | .str text => readInteger text
  | _ => .error .notAnInteger

/-- The value as a floating point number. -/
def number : Value → Except FieldProblem Binary64
  | .bool b => .ok (Binary64.ofRatio false (if b then 1 else 0) 1)
  | .number (.int n) =>
    match Binary64.ofInt? n with
    | some x => .ok x
    | none => .error .notANumber
  | .number (.float x) => .ok x
  | .str text =>
    match readNumber? text with
    | some x => .ok x
    | none => .error .unreadableNumber
  | _ => .error .notANumber

/-- The value as a string. -/
def string : Value → Except FieldProblem String
  | .str text => .ok text
  | _ => .error .notAString

/-! ## Fields of a record -/

/-- What a record of fields is read into, and the errors so far. -/
abbrev Reader := StateM (List FieldError)

/-- Reads a field with a default for when it is missing or does not fit. -/
def read {α : Type} (fields : List (String × Value)) (name : String)
    (reader : Value → Except FieldProblem α) (default : α) : Reader α := do
  match fields.lookup name with
  | none => return default
  | some value =>
    match reader value with
    | .ok a => return a
    | .error problem =>
      modify (· ++ [⟨name, problem⟩])
      return default

/-- Reads a field that holds a list of strings; every item that is no string is an error. -/
def readStrings (fields : List (String × Value)) (name : String) (default : List String) :
    Reader (List String) := do
  match fields.lookup name with
  | none => return default
  | some (.list items) =>
    let strings ← (items.zipIdx).mapM fun (item, i) => do
      match item with
      | .str text => return some text
      | _ =>
        modify (· ++ [⟨name ++ "." ++ toString i, .notAString⟩])
        return none
    return strings.filterMap id
  | some _ =>
    modify (· ++ [⟨name, .notAList⟩])
    return default

/-- What was read, unless there were errors. -/
def Reader.finish {α : Type} (reader : Reader α) : Except (List FieldError) α :=
  match reader.run [] with
  | (a, []) => .ok a
  | (_, errors) => .error errors

end Field

end PackLint
