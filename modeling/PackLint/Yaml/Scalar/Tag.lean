import PackLint.Yaml.Scalar.Timestamp
import PackLint.Yaml.Cursor

/-!
# The tags of scalars

A scalar is what its tag says. A plain scalar without a tag is what its text looks like, which
depends on the version: in 1.1 `yes` is a truth value, a leading zero makes a number octal, and
`1:30` is a number of base sixty.
-/

namespace PackLint.Yaml

/-- What a scalar is. -/
inductive ScalarTag where
  | null
  | bool
  | int
  | float
  | timestamp
  | binary
  | str
  /-- Something that no scalar can be. -/
  | unknown (name : String)
deriving DecidableEq, Inhabited

namespace ScalarTag

/-- The tag that is written out as `name`. -/
def ofName (name : String) : ScalarTag :=
  match name with
  | "tag:yaml.org,2002:null" => null
  | "tag:yaml.org,2002:bool" => bool
  | "tag:yaml.org,2002:int" => int
  | "tag:yaml.org,2002:float" => float
  | "tag:yaml.org,2002:timestamp" => timestamp
  | "tag:yaml.org,2002:binary" => binary
  | "tag:yaml.org,2002:str" => str
  | name => unknown name

/-! ## How scalars look -/

/-- The words for a truth value in version 1.2. -/
def boolWords : List String :=
  ["true", "True", "TRUE", "false", "False", "FALSE"]

/-- The further words for a truth value in version 1.1. -/
def oldBoolWords : List String :=
  ["y", "Y", "yes", "Yes", "YES", "n", "N", "no", "No", "NO", "on", "On", "ON", "off", "Off", "OFF"]

/-- The words for nothing. -/
def nullWords : List String := ["~", "null", "Null", "NULL", ""]

/-- A digit or an underscore. -/
def isDigitChar (c : Char) : Bool := c.isDigit || c = '_'

/-- A text without its sign, and whether it has one. -/
def dropSign : List Char → List Char × Bool
  | c :: cs => if c = '-' ∨ c = '+' then (cs, true) else (c :: cs, false)
  | [] => ([], false)

/-- Whether a text is an exponent; its sign may be missing only if `bare`. -/
def isExponent (bare : Bool) : List Char → Bool
  | [] => false
  | e :: cs =>
    let (ds, signed) := dropSign cs
    (e = 'e' || e = 'E') && (bare || signed) && !ds.isEmpty && ds.all Char.isDigit

/-- Whether a text is parts of base sixty, each behind a colon, and then `ending`. -/
def isSexagesimal (ending : List Char → Bool) : List Char → Bool
  | ':' :: a :: b :: cs =>
    if a.isDigit && b.isDigit then
      a ≤ '5' && (ending cs || isSexagesimal ending cs)
    else a.isDigit && (ending (b :: cs) || isSexagesimal ending (b :: cs))
  | [':', a] => a.isDigit && ending []
  | _ => false

/-- Whether a text is a point and digits. -/
def isPointed : List Char → Bool
  | '.' :: cs => cs.all isDigitChar
  | _ => false

/-- Whether a text behind the sign looks like a floating point number. -/
def looksFloat (version : Version) (signed : Bool) (cs : List Char) : Bool :=
  match cs with
  | '.' :: r =>
    let word := String.ofList r
    let run := r.takeWhile isDigitChar
    let rest := r.dropWhile isDigitChar
    ["inf", "Inf", "INF"].contains word || (!signed && ["nan", "NaN", "NAN"].contains word) ||
      ((version ≠ Version.v1_1 || !signed) && !run.isEmpty &&
        (rest.isEmpty || isExponent false rest))
  | c :: _ =>
    c.isDigit &&
      match cs.dropWhile isDigitChar with
      | '.' :: r =>
        let rest := r.dropWhile isDigitChar
        rest.isEmpty || isExponent true rest
      | rest =>
        isExponent true rest ||
          version = Version.v1_1 && isSexagesimal isPointed rest
  | [] => false

/-- A digit of base 2, or an underscore. -/
def isBinaryChar (c : Char) : Bool := c = '0' || c = '1' || c = '_'

/-- A digit of base 8, or an underscore. -/
def isOctalChar (c : Char) : Bool := '0' ≤ c && c ≤ '7' || c = '_'

/-- A digit of base 16, or an underscore. -/
def isHexChar (c : Char) : Bool := (hexValue? c).isSome || c = '_'

/-- Whether a text behind the sign looks like an integer. -/
def looksInt (version : Version) (cs : List Char) : Bool :=
  let filled (p : Char → Bool) (ds : List Char) : Bool := !ds.isEmpty && ds.all p
  let marked := match cs with
    | '0' :: 'b' :: ds => filled isBinaryChar ds
    | '0' :: 'x' :: ds => filled isHexChar ds
    | '0' :: 'o' :: ds => version ≠ Version.v1_1 && filled isOctalChar ds
    | _ => false
  if marked then true
  else if version = Version.v1_1 then
    filled isOctalChar cs ||
      match cs with
      | c :: r =>
        c.isDigit && c ≠ '0' &&
          (r.all isDigitChar || isSexagesimal List.isEmpty (r.dropWhile isDigitChar))
      | [] => false
  else filled isDigitChar cs

/-- What a plain scalar without a tag is; none if the version has no rules for that. A line feed at
the end of the text does not count. -/
def ofText? (version : Version) (text : List Char) : Option ScalarTag :=
  if version ≠ Version.v1_1 ∧ version ≠ Version.v1_2 then none
  else
    let word := String.ofList text
    let cs := Timestamp.dropLineFeed text
    let trimmed := String.ofList cs
    let (body, signed) := dropSign cs
    let startsNumber := (text.head?.map fun c => c.isDigit || c = '-' || c = '+').getD false
    if boolWords.contains trimmed then some bool
    else if version = Version.v1_1 && oldBoolWords.contains trimmed then some bool
    else if (startsNumber || text.head? = some '.') && looksFloat version signed body then
      some float
    else if startsNumber && looksInt version body then some int
    else if trimmed = "<<" then some (unknown "tag:yaml.org,2002:merge")
    else if word = "" || word ≠ "\n" && nullWords.contains trimmed then some null
    else if ((Timestamp.parse? text).map (·.isImplicit)).getD false then some timestamp
    else if trimmed = "=" then some (unknown "tag:yaml.org,2002:value")
    else if ["!", "&", "*"].contains trimmed then some (unknown "tag:yaml.org,2002:yaml")
    else some str

end ScalarTag

end PackLint.Yaml
