import PackLint.SkillLine.Config

/-!
# Targeters, triggers and conditions

The clauses behind the name of a skill line: `@Targeter{options}`, `~onTrigger:argument`, and
`?condition{options}`, where `?~` asks about the trigger and `!` negates. Each is read from its
escaped text, which starts with the mark of the clause, and carries its highlights in its report.

Model of `SkillTargeter`, `SkillTrigger` and `SkillCondition`, each with `parse` and
`add_highlights`.
-/

namespace PackLint

/-! ## Targeters -/

/-- A targeter: the mark `@` and what is configured behind it (`SkillTargeter`). -/
structure Targeter where
  mark : LineToken
  config : LineConfig

namespace Targeter

/-- Reads the escaped text of a targeter that starts at `offset`. -/
def parse (src : Source) (text : List Char) (offset : Int) : Targeter :=
  let start := SkillLine.sourceOffset text offset 1
  { mark := ⟨"@", offset, start⟩, config := .parse src (text.drop 1) start }

/-- The targeter with its highlights in the report. -/
def withHighlights (src : Source) (t : Targeter) : Targeter :=
  let config := t.config.withHighlights src
  let more := .mergeAll
    [t.mark.highlight src .operator, LineToken.highlight? src .typeName config.main]
  { t with config := { config with report := config.report.merge more } }

/-- The report of the targeter. -/
def report (t : Targeter) : Report := t.config.report

end Targeter

/-! ## Triggers -/

/-- A trigger: the mark `~`, its name, and an argument behind a colon (`SkillTrigger`). -/
structure Trigger where
  tilde : LineToken
  name : LineToken
  colon : Option LineToken := none
  argument : Option LineToken := none
  report : Report := .empty

namespace Trigger

/-- Reads the escaped text of a trigger that starts at `offset`. -/
def parse (text : List Char) (offset : Int) : Trigger :=
  let token := LineToken.covering text offset
  match text.findIdx? (· = ':') with
  | none => { tilde := token 0 1, name := token 1 text.length }
  | some i =>
    { tilde := token 0 1
      name := token 1 i
      colon := some (token i (i + 1))
      argument := some (token (i + 1) text.length) }

/-- The trigger with its highlights in the report. -/
def withHighlights (src : Source) (t : Trigger) : Trigger :=
  { t with report := t.report.merge (.mergeAll
      [t.tilde.highlight src .operator, t.name.highlight src .event,
       LineToken.highlight? src .operator t.colon, LineToken.highlight? src .string t.argument]) }

end Trigger

/-! ## Conditions -/

/-- A condition: the mark `?`, the marks `~` and `!` if they are there, and what is configured
behind them (`SkillCondition`). -/
structure Condition where
  question : LineToken
  tilde : Option LineToken := none
  negation : Option LineToken := none
  config : LineConfig

namespace Condition

/-- Whether the condition asks about the trigger. -/
def onTrigger (c : Condition) : Bool := c.tilde.isSome

/-- Whether the condition is negated. -/
def negated (c : Condition) : Bool := c.negation.isSome

/-- The single-character mark at an index of an escaped text, if it stands there. -/
def markAt? (text : List Char) (offset : Int) (idx : Nat) (c : Char) : Option LineToken :=
  if text[idx]? = some c then
    some ⟨String.singleton c, SkillLine.sourceOffset text offset idx,
      SkillLine.sourceOffset text offset (idx + 1)⟩
  else none

/-- Reads the escaped text of a condition that starts at `offset`. -/
def parse (src : Source) (text : List Char) (offset : Int) : Condition :=
  let tilde := markAt? text offset 1 '~'
  let idx := if tilde.isSome then 2 else 1
  let negation := markAt? text offset idx '!'
  let idx := if negation.isSome then idx + 1 else idx
  { question := ⟨"?", offset, SkillLine.sourceOffset text offset 1⟩
    tilde
    negation
    config := .parse src (text.drop idx) (SkillLine.sourceOffset text offset idx) }

/-- The condition with its highlights in the report. -/
def withHighlights (src : Source) (c : Condition) : Condition :=
  let config := c.config.withHighlights src
  let more := .mergeAll
    [c.question.highlight src .operator, LineToken.highlight? src .operator c.tilde,
     LineToken.highlight? src .operator c.negation, LineToken.highlight? src .keyword config.main]
  { c with config := { config with report := config.report.merge more } }

/-- The report of the condition. -/
def report (c : Condition) : Report := c.config.report

end Condition

end PackLint
