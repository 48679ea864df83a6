import PackLint.Number.Binary64
import PackLint.Text.Blank
import PackLint.Text.Digit

/-!
# Reading numbers

`readInt?` and `readFloat?` read a number from a text that may have white space around it and digits
of any script. Between two digits of a floating point number one underscore may stand. They read
what `int` and `float` read, as in `_is_number` and `_parse_number`.
-/

namespace PackLint

/-- The text with its digits written in ASCII. -/
def asciiDigits (cs : List Char) : List Char :=
  cs.map fun c => match digitValue? c with
    | some d => Char.ofNat (48 + d)
    | none => c

/-- Whether a character is one of the ten ASCII digits. -/
def isAsciiDigit (c : Char) : Bool :=
  decide ('0' ≤ c ∧ c ≤ '9')

/-- The text without its underscores, each of which must stand between two digits; `last` is the
character before the text. -/
def dropUnderscores? (last : Char) : List Char → Option (List Char)
  | [] => if last = '_' then none else some []
  | c :: cs =>
    if c = '_' then
      if isAsciiDigit last then dropUnderscores? c cs else none
    else if last = '_' ∧ !isAsciiDigit c then none
    else (dropUnderscores? c cs).map (c :: ·)

/-- A sign and the text behind it. -/
def splitSign : List Char → Bool × List Char
  | '-' :: cs => (true, cs)
  | '+' :: cs => (false, cs)
  | cs => (false, cs)

/-- The value of a text of digits in the given base. -/
def digitsValue (base : Nat) (cs : List Char) : Nat :=
  cs.foldl (fun n c => n * base + (hexValue? c).getD 0) 0

/-- The integer that a text writes in base 2, 8, 10 or 16. In a base other than ten the digits may
follow the mark of the base. -/
def readInt? (base : Nat) (cs : List Char) : Option Int := do
  let (negative, cs) := splitSign (asciiDigits (trimWhiteSpace cs))
  let cs := match base, cs with
    | 2, '0' :: c :: r => if c = 'b' ∨ c = 'B' then r else cs
    | 8, '0' :: c :: r => if c = 'o' ∨ c = 'O' then r else cs
    | 16, '0' :: c :: r => if c = 'x' ∨ c = 'X' then r else cs
    | _, _ => cs
  let isDigit (c : Char) : Bool := (hexValue? c).any (· < base)
  if cs.isEmpty || !cs.all isDigit then none
  if base = 10 ∧ maxDecimalDigits < cs.length then none
  let n : Int := digitsValue base cs
  some (if negative then -n else n)

/-- The exponent part of a decimal number; nothing counts as zero. -/
def readExponent? : List Char → Option Int
  | [] => some 0
  | c :: cs => do
    if c ≠ 'e' ∧ c ≠ 'E' then none
    let (negative, ds) := splitSign cs
    if ds.isEmpty || !ds.all isAsciiDigit then none
    let n : Int := digitsValue 10 ds
    some (if negative then -n else n)

/-- The decimal number that a text of ASCII characters writes, the sign already read. -/
def readDecimal? (negative : Bool) (cs : List Char) : Option Decimal := do
  let whole := cs.takeWhile isAsciiDigit
  let rest := cs.dropWhile isAsciiDigit
  let (fraction, rest) := match rest with
    | '.' :: r => (r.takeWhile isAsciiDigit, r.dropWhile isAsciiDigit)
    | _ => ([], rest)
  if whole.isEmpty && fraction.isEmpty then none
  let exponent ← readExponent? rest
  some ⟨negative, digitsValue 10 (whole ++ fraction), exponent - fraction.length⟩

/-- The floating point number that a text of nothing but ASCII characters writes, with neither
blanks nor underscores. -/
def readPlainFloat? (cs : List Char) : Option Binary64 :=
  let (negative, cs) := splitSign cs
  let word := String.ofList (cs.map Char.toLower)
  if word = "inf" ∨ word = "infinity" then some (.infinite negative)
  else if word = "nan" then some .nan
  else (readDecimal? negative cs).map Binary64.ofDecimal

/-- The floating point number that a text writes. -/
def readFloat? (cs : List Char) : Option Binary64 := do
  readPlainFloat? (← dropUnderscores? ' ' (asciiDigits (trimWhiteSpace cs)))

end PackLint
