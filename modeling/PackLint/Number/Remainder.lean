import PackLint.Number.Shortest

/-!
# Remainders of decimal numbers

Whether a number is a whole multiple of another is asked of the exact decimal numbers that they are
written as, for a quotient with a limited number of digits: the remainder in `check_tick_aligned`.
-/

namespace PackLint

/-- The decimal number that an integer or a floating point number is written as. -/
def Number.decimal? : Number → Option Decimal
  | .int n => some ⟨decide (n < 0), n.natAbs, 0⟩
  | .float (.finite negative 0 _) => some ⟨negative, 0, 0⟩
  | .float (.finite negative m e) => some (Binary64.shortest negative m e)
  | .float _ => none

namespace Decimal

/-- The most digits that the whole part of a quotient may have. -/
def maxQuotientDigits : Nat := 28

/-- The sizes of two decimal numbers as whole numbers of the same unit. -/
def commonUnits (a b : Decimal) : Nat × Nat :=
  let low := min a.exponent b.exponent
  (a.coefficient * Nat.pow 10 (a.exponent - low).toNat,
    b.coefficient * Nat.pow 10 (b.exponent - low).toNat)

/-- Whether `a` is a whole multiple of `b`, if `b` is not zero and the quotient is not too long. -/
def isMultiple? (a b : Decimal) : Option Bool :=
  let (m, n) := commonUnits a b
  if n = 0 ∨ Nat.pow 10 maxQuotientDigits ≤ m / n then none else some (m % n = 0)

end Decimal

/-- Whether `a` is a whole multiple of `b`. A value that is no number is none, of an infinity there
is nothing to say, and of the finite numbers only zero is a multiple of an infinity. -/
def Number.isMultiple? (a b : Number) : Option Bool :=
  match a, b with
  | .float .nan, _ | _, .float .nan => some false
  | .float (.infinite _), _ => none
  | a, .float (.infinite _) => a.decimal?.map fun d => d.coefficient = 0
  | a, b => do Decimal.isMultiple? (← a.decimal?) (← b.decimal?)

end PackLint
