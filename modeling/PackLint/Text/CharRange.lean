/-!
# Ranges of characters

Character classes of the Unicode standard are written as lists of code point ranges.
-/

namespace PackLint

/-- The code points from `first` to `last`, both included. -/
structure CharRange where
  first : Nat
  last : Nat

/-- Whether `c` lies in one of the ranges. -/
def CharRange.anyContains (rs : List CharRange) (c : Char) : Bool :=
  rs.any fun r => decide (r.first ≤ c.toNat ∧ c.toNat ≤ r.last)

end PackLint
