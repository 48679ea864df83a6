import PackLint.Number.Binary64

/-!
# The text of a number

`Binary64.shortest` finds the decimal number with the fewest digits that reads back as the given
one, the nearest of those. `Binary64.text` writes it positionally while its first digit stands
within sixteen places before the point or four behind it, and with an exponent otherwise. This is
the text of a number in the messages of `SchemaNumber` and `check_tick_aligned`.
-/

namespace PackLint

namespace Binary64

/-- How many places behind the point the first digit of a number is looked for. -/
def placesBehind : Nat := 340

/-- The place of the first digit of `num / den`: the ratio is below `10 ^ place` and not below
`10 ^ (place - 1)`. -/
def decimalPlace (num den : Nat) : Int :=
  (digitCount (num * Nat.pow 10 placesBehind / den) : Int) - placesBehind

/-- The nearest number of `k` digits that lies between `low` and `high`, all over `den`, ends
counted if `closed`; `place` is the place of the first digit of `num`. -/
def nearestOn (num low high den : Nat) (closed : Bool) (place : Int) (k : Nat) : Option Nat :=
  let up := Nat.pow 10 (k - place).toNat
  let down := Nat.pow 10 (place - k).toNat
  let inside (c : Nat) : Bool :=
    let x := c * down * den
    if closed then decide (low * up ≤ x ∧ x ≤ high * up) else decide (low * up < x ∧ x < high * up)
  let c := num * up / (down * den)
  let nearer := 2 * num * up < (2 * c + 1) * (down * den)
    ∨ 2 * num * up = (2 * c + 1) * (down * den) ∧ c % 2 = 0
  match inside c, inside (c + 1) with
  | true, true => some (if nearer then c else c + 1)
  | true, false => some c
  | false, true => some (c + 1)
  | false, false => none

/-- The decimal number of fewest digits that reads back as `mantissa * 2 ^ exponent`. -/
def shortest (negative : Bool) (mantissa : Nat) (exponent : Int) : Decimal :=
  let e := exponent - 2
  let scale (n : Nat) := n <<< e.toNat
  let den := 1 <<< (-e).toNat
  let num := scale (4 * mantissa)
  let gap := if mantissa = Nat.pow 2 52 ∧ minExponent < exponent then 1 else 2
  let low := scale (4 * mantissa - gap)
  let high := scale (4 * mantissa + 2)
  let place := decimalPlace num den
  let found := (List.range 17).findSome? fun i =>
    (nearestOn num low high den (mantissa % 2 = 0) place (i + 1)).map (i + 1, ·)
  match found with
  | some (k, c) => if c = Nat.pow 10 k then ⟨negative, 1, place⟩ else ⟨negative, c, place - k⟩
  | none => ⟨negative, 0, 0⟩

/-- Digits with a point behind the first `place` of them. -/
def positional (digits : List Char) (place : Int) : List Char :=
  let n : Int := digits.length
  if place ≤ 0 then '0' :: '.' :: List.replicate (-place).toNat '0' ++ digits
  else if n ≤ place then digits ++ List.replicate (place - n).toNat '0' ++ ['.', '0']
  else digits.take place.toNat ++ '.' :: digits.drop place.toNat

/-- Digits with a point behind the first and an exponent of at least two digits. -/
def scientific (digits : List Char) (place : Int) : List Char :=
  let e := place - 1
  let ds := Nat.toDigits 10 e.natAbs
  let ds := if ds.length < 2 then '0' :: ds else ds
  let first := digits.take 1
  let rest := digits.drop 1
  (if rest.isEmpty then first else first ++ '.' :: rest) ++
    'e' :: (if e < 0 then '-' else '+') :: ds

/-- The text of a number. -/
def text : Binary64 → String
  | nan => "nan"
  | infinite negative => if negative then "-inf" else "inf"
  | finite negative mantissa exponent =>
    let body :=
      if mantissa = 0 then ['0', '.', '0']
      else
        let d := shortest negative mantissa exponent
        let digits := Nat.toDigits 10 d.coefficient
        let place := digits.length + d.exponent
        if -4 < place ∧ place ≤ 16 then positional digits place else scientific digits place
    String.ofList (if negative then '-' :: body else body)

end Binary64

end PackLint
