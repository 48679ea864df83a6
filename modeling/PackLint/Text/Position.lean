/-!
# Positions and ranges

A `Position` is a line and a character, both counted from zero; a `Range` is the span between two
of them, its end not included. `Range.contains` asks whether a position lies in a range with both
ends counted, `Position.compare` orders positions by line first. Model of `pos_is_in` and `pos_cmp`.
-/

namespace PackLint

/-- A place in a text: a line and a character on it, both counted from zero. -/
structure Position where
  line : Int
  character : Int
deriving DecidableEq, Inhabited

/-- The span from `start` up to, but not including, `stop`. -/
structure Range where
  start : Position
  stop : Position
deriving DecidableEq, Inhabited

namespace Position

/-- Negative if `a` comes before `b`, zero if they are equal, positive otherwise (`pos_cmp`). -/
def compare (a b : Position) : Int :=
  if a.line = b.line then a.character - b.character else a.line - b.line

theorem compare_self (a : Position) : compare a a = 0 := by simp [compare]

theorem compare_eq_zero_iff {a b : Position} : compare a b = 0 ↔ a = b := by
  cases a; cases b
  simp only [compare, Position.mk.injEq]
  split <;> omega

end Position

namespace Range

/-- Whether `p` lies in `r`, both ends counted (`pos_is_in`). -/
def contains (r : Range) (p : Position) : Bool :=
  if r.start.line < p.line ∧ p.line < r.stop.line then true
  else if p.line = r.start.line ∧ p.line = r.stop.line then
    decide (r.start.character ≤ p.character ∧ p.character ≤ r.stop.character)
  else if p.line = r.start.line then decide (r.start.character ≤ p.character)
  else if p.line = r.stop.line then decide (p.character ≤ r.stop.character)
  else false

end Range

end PackLint
