/-!
# Numbers of 64 bits

A `Binary64` is a binary floating point number of 64 bits, written as sign, mantissa and exponent.
`Binary64.ofRatio` rounds an exact ratio to the nearest of them, a tie to the even mantissa, and
`Binary64.ofDecimal` does the same for a `Decimal`. A `Number` is an integer of any size or a
`Binary64`; numbers are compared exactly.
-/

namespace PackLint

/-- The number `coefficient * 10 ^ exponent`, with a sign. -/
structure Decimal where
  negative : Bool
  coefficient : Nat
  exponent : Int
deriving DecidableEq

/-- The number of decimal digits of `n`. -/
def digitCount (n : Nat) : Nat :=
  (Nat.toDigits 10 n).length

/-- The whole number nearest to `num / den`, the even one of two. -/
def roundRatio (num den : Nat) : Nat :=
  let q := num / den
  let twice := 2 * (num % den)
  if twice < den then q
  else if den < twice then q + 1
  else if q % 2 = 0 then q else q + 1

/-- A floating point number: `mantissa * 2 ^ exponent` with a sign, an infinity, or no number. -/
inductive Binary64 where
  | nan
  | infinite (negative : Bool)
  | finite (negative : Bool) (mantissa : Nat) (exponent : Int)
deriving DecidableEq, Inhabited

namespace Binary64

/-- The least exponent. -/
def minExponent : Int := -1074

/-- The greatest exponent. -/
def maxExponent : Int := 971

/-- Zero. -/
def zero (negative : Bool) : Binary64 := finite negative 0 minExponent

/-- The number nearest to `num / den`; from `2 ^ 1024 - 2 ^ 970` on that is an infinity. -/
def ofRatio (negative : Bool) (num den : Nat) : Binary64 :=
  if num = 0 then zero negative
  else
    let d : Int := (num.log2 : Int) - den.log2
    let below := num <<< (-d).toNat < den <<< d.toNat
    let e := max (if below then d - 53 else d - 52) minExponent
    let m := roundRatio (num <<< (-e).toNat) (den <<< e.toNat)
    let (m, e) := if m = Nat.pow 2 53 then (Nat.pow 2 52, e + 1) else (m, e)
    if maxExponent < e then infinite negative else finite negative m e

/-- The number nearest to a decimal one. Beyond four hundred places it is zero or infinite. -/
def ofDecimal (d : Decimal) : Binary64 :=
  let places := digitCount d.coefficient + d.exponent
  if d.coefficient = 0 then zero d.negative
  else if 400 < places then infinite d.negative
  else if places < -400 then zero d.negative
  else ofRatio d.negative (d.coefficient * Nat.pow 10 d.exponent.toNat)
    (Nat.pow 10 (-d.exponent).toNat)

/-- The number nearest to an integer, unless the integer is too large. -/
def ofInt? (n : Int) : Option Binary64 :=
  match ofRatio (decide (n < 0)) n.natAbs 1 with
  | infinite _ => none
  | x => some x

/-- The number with the other sign. -/
def neg : Binary64 → Binary64
  | nan => nan
  | infinite s => infinite !s
  | finite s m e => finite (!s) m e

/-- Whether the number is a whole one. -/
def isInteger : Binary64 → Bool
  | finite _ m e => decide (0 ≤ e ∨ m % Nat.pow 2 (-e).toNat = 0)
  | _ => false

/-- The whole part, towards zero. -/
def toInt : Binary64 → Int
  | finite s m e =>
    let n : Int := (m <<< e.toNat) >>> (-e).toNat
    if s then -n else n
  | _ => 0

/-- The sign as a factor. -/
def sign (negative : Bool) (n : Nat) : Int :=
  if negative then -n else n

/-- The exact sum or product of two finite numbers, rounded. -/
def ofScaled (n e : Int) : Binary64 :=
  ofRatio (decide (n < 0)) (n.natAbs <<< e.toNat) (1 <<< (-e).toNat)

/-- The sum, rounded. -/
def add : Binary64 → Binary64 → Binary64
  | finite s m e, finite s' m' e' =>
    let low := min e e'
    let n := sign s (m <<< (e - low).toNat) + sign s' (m' <<< (e' - low).toNat)
    if n = 0 then zero (s && s') else ofScaled n low
  | infinite s, infinite s' => if s = s' then infinite s else nan
  | infinite s, finite _ _ _ => infinite s
  | finite _ _ _, infinite s => infinite s
  | _, _ => nan

/-- The product, rounded. -/
def mul : Binary64 → Binary64 → Binary64
  | finite s m e, finite s' m' e' =>
    if m * m' = 0 then zero (s != s') else
      match ofScaled (m * m' : Nat) (e + e') with
      | finite _ m e => finite (s != s') m e
      | _ => infinite (s != s')
  | infinite s, infinite s' => infinite (s != s')
  | infinite s, finite s' m _ => if m = 0 then nan else infinite (s != s')
  | finite s m _, infinite s' => if m = 0 then nan else infinite (s != s')
  | _, _ => nan

end Binary64

/-! ## Numbers -/

/-- An integer of any size or a floating point number. -/
inductive Number where
  | int (n : Int)
  | float (x : Binary64)
deriving DecidableEq, Inhabited

/-- The greatest number of decimal digits that an integer is read from or written with. -/
def maxDecimalDigits : Nat := 4300

namespace Number

/-- Whether the number is not an integer with too many digits to be written. -/
def isWritable : Number → Bool
  | int n => decide (n.natAbs < Nat.pow 10 maxDecimalDigits)
  | float _ => true

/-- Whether `a * 2 ^ e < b * 2 ^ f`. -/
def scaledLt (a e b f : Int) : Bool :=
  let low := min e f
  decide (a * Nat.pow 2 (e - low).toNat < b * Nat.pow 2 (f - low).toNat)

/-- Whether the first number is less than the second; nothing is less than `nan` or greater. -/
def lt : Number → Number → Bool
  | int a, int b => decide (a < b)
  | int a, float (.finite s m e) => scaledLt a 0 (Binary64.sign s m) e
  | float (.finite s m e), int b => scaledLt (Binary64.sign s m) e b 0
  | float (.finite s m e), float (.finite s' m' e') =>
    scaledLt (Binary64.sign s m) e (Binary64.sign s' m') e'
  | float .nan, _ => false
  | _, float .nan => false
  | float (.infinite s), float (.infinite s') => s && !s'
  | float (.infinite s), _ => s
  | _, float (.infinite s) => !s

/-- Whether the number is not `nan`. -/
def isNumber : Number → Bool
  | float .nan => false
  | _ => true

/-- Whether both numbers are the same; `nan` is not the same as itself. -/
def eq (a b : Number) : Bool :=
  a.isNumber && b.isNumber && !lt a b && !lt b a

/-- Whether the first number is at most the second. -/
def le (a b : Number) : Bool :=
  a.isNumber && b.isNumber && !lt b a

end Number

end PackLint
