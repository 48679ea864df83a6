import PackLint.Yaml.Scalar.Tag
import PackLint.Number.Reading
import PackLint.Text.Case

/-!
# The values of scalars

`decodeScalar` turns the text of a scalar into the value that its tag calls for: the
`construct_object` that `TrackedLoader._convert` calls on a scalar.
-/

namespace PackLint.Yaml

/-- A text without its underscores. -/
def dropUnderscores (cs : List Char) : List Char := cs.filter (· ≠ '_')

/-- The value of each part of a number of base sixty, the parts being cut at colons. -/
def colonParts (cs : List Char) : List (List Char) :=
  cs.foldr (fun c parts =>
    match parts with
    | [] => [[c]]
    | p :: ps => if c = ':' then [] :: p :: ps else (c :: p) :: ps) [[]]

/-- The integer that a text without underscores writes behind its sign. -/
def decodeMagnitude? (version : Version) (cs : List Char) : Option Int :=
  match cs with
  | ['0'] => some 0
  | '0' :: 'b' :: ds => readInt? 2 ds
  | '0' :: 'x' :: ds => readInt? 16 ds
  | '0' :: 'o' :: ds => readInt? 8 ds
  | _ =>
    if version = .v1_1 ∧ cs.head? = some '0' then readInt? 8 cs
    else if version = .v1_1 ∧ cs.contains ':' then
      (colonParts cs).foldlM (fun n part => (readInt? 10 part).map (60 * n + ·)) 0
    else readInt? 10 cs

/-- The integer that a text writes. -/
def decodeInt? (version : Version) (text : List Char) : Option Int :=
  let (negative, cs) := splitSign (dropUnderscores text)
  (decodeMagnitude? version cs).map fun n => if negative then -n else n

/-- The sum of parts of base sixty, the last part first; `weight` is that of the next one. -/
def sexagesimalSum (total : Binary64) (weight : Nat) : List Binary64 → Binary64
  | [] => total
  | part :: parts =>
    sexagesimalSum (total.add (part.mul (.ofRatio false weight 1))) (60 * weight) parts

/-- The floating point number that a text writes. -/
def decodeFloat? (version : Version) (text : List Char) : Option Binary64 :=
  let (negative, cs) := splitSign (lower (dropUnderscores text))
  let magnitude :=
    if cs = ".inf".toList then some (.infinite false)
    else if cs = ".nan".toList then some .nan
    else if version ≠ .v1_2 ∧ cs.contains ':' then
      ((colonParts cs).mapM readFloat?).map fun parts =>
        sexagesimalSum (Binary64.zero false) 1 parts.reverse
    else readFloat? cs
  magnitude.map fun x => if negative then x.neg else x

/-- Why a text is no number: it is empty but for underscores, and an integer of the older version
also if it is empty behind its sign. -/
def numberError (version : Version) (tag : ScalarTag) (text : List Char) : Error :=
  let cs := dropUnderscores text
  if cs.isEmpty ∨ version = .v1_1 ∧ tag = .int ∧ (splitSign cs).2.isEmpty then .emptyNumber
  else .notANumber (String.ofList text)

/-- The truth value that a word in lower case stands for. -/
def decodeBool? (word : String) : Option Bool :=
  if ["yes", "y", "true", "on"].contains word then some true
  else if ["no", "n", "false", "off"].contains word then some false
  else none

/-! ## Bytes -/

/-- The value of a character of base 64. -/
def base64Value? (c : Char) : Option Nat :=
  if 'A' ≤ c ∧ c ≤ 'Z' then some (c.toNat - 65)
  else if 'a' ≤ c ∧ c ≤ 'z' then some (c.toNat - 71)
  else if c.isDigit then some (c.toNat + 4)
  else if c = '+' then some 62
  else if c = '/' then some 63
  else none

/-- The bytes that a text of base 64 writes. Characters of no value are passed over; `phase` counts
the characters read of a group of four, `pads` the signs of padding since the last of them, and
`carry` holds the bits that no byte has taken yet. -/
def base64From (phase pads carry : Nat) : List Char → Option (List UInt8)
  | [] => if phase = 0 then some [] else none
  | c :: cs =>
    if c = '=' then
      if 2 ≤ phase ∧ 4 ≤ phase + pads + 1 then some []
      else base64From phase (if 2 ≤ phase then pads + 1 else pads) carry cs
    else
      match base64Value? c with
      | none => base64From phase pads carry cs
      | some v =>
        match phase with
        | 0 => base64From 1 0 v cs
        | 1 => (base64From 2 0 (v % 16) cs).map (UInt8.ofNat (carry * 4 + v / 16) :: ·)
        | 2 => (base64From 3 0 (v % 4) cs).map (UInt8.ofNat (carry * 16 + v / 4) :: ·)
        | _ => (base64From 0 0 0 cs).map (UInt8.ofNat (carry * 64 + v) :: ·)

/-- The bytes that a text of base 64 writes; the text must be ASCII. -/
def decodeBytes? (text : List Char) : Option (List UInt8) :=
  if text.all (·.toNat < 128) then base64From 0 0 0 text else none

/-! ## Scalars -/

/-- The value of a scalar whose text starts at `start`. -/
def decodeScalar (version : Version) (tag : ScalarTag) (text : List Char) (start : Mark) :
    Except Error Value :=
  let word := String.ofList text
  match tag with
  | .null => .ok .null
  | .str => .ok (.str word)
  | .bool =>
    match decodeBool? (lowerText word) with
    | some b => .ok (.bool b)
    | none => .error (.notABoolean (lowerText word))
  | .int =>
    match decodeInt? version text with
    | some n => .ok (.number (.int n))
    | none => .error (numberError version tag text)
  | .float =>
    match decodeFloat? version text with
    | some x => .ok (.number (.float x))
    | none => .error (numberError version tag text)
  | .binary =>
    match decodeBytes? text with
    | some bytes => .ok (.bytes bytes)
    | none => .error (.malformed "not a text of base 64" (some start))
  | .timestamp =>
    match Timestamp.parse? text with
    | none => .error (.malformed "not a date" (some start))
    | some t =>
      match t.value? with
      | some (.dateTime u) => if u.date.isValid then .ok (.dateTime u) else .error .afterLastYear
      | some v => .ok v
      | none => .error (.notANumber word)
  | .unknown name => .error (.malformed ("a scalar cannot be tagged " ++ name) (some start))

end PackLint.Yaml
