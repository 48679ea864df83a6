import PackLint.SkillLine.Escape
import PackLint.Text.Source
import PackLint.Report

/-!
# Tokens of a skill line

A `LineToken` is a piece of a skill line with the source offsets it stands at. Model of `LineToken`
and of `LineConfig.token`.
-/

namespace PackLint

/-- A piece of a line from source offset `start` up to `stop`. -/
structure LineToken where
  value : String
  start : Int
  stop : Int
deriving DecidableEq

namespace LineToken

/-- The token over the characters `start` to `stop` of an escaped text at `offset`, unescaped. -/
def covering (escaped : List Char) (offset : Int) (start stop : Nat) : LineToken where
  value := String.ofList (SkillLine.unescape ((escaped.take stop).drop start))
  start := SkillLine.sourceOffset escaped offset start
  stop := SkillLine.sourceOffset escaped offset stop

/-- The highlight of a token; an empty token has none. -/
def highlight (src : Source) (color : TextClass) (t : LineToken) : Report :=
  if t.start < t.stop then .ofHighlight { range := src.range t.start t.stop, color } else .empty

/-- The highlight of a token that may be missing. -/
def highlight? (src : Source) (color : TextClass) : Option LineToken → Report
  | some t => t.highlight src color
  | none => .empty

end LineToken

end PackLint
