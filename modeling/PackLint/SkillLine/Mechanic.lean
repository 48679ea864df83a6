import PackLint.SkillLine.Clause
import PackLint.Number.Shortest

/-!
# Skill lines

A skill line is `mechanic{...} @targeter ~trigger ?condition chance`. `Mechanic.parse` escapes
the line, cuts it at its spaces and reads the parts: the first is the mechanic, the others are told
apart by their first character. How many of each may stand is reported, not enforced. Model of
`SkillMechanic`.
-/

namespace PackLint

/-- A skill line that has been read (`SkillMechanic`). -/
structure Mechanic where
  config : LineConfig
  targeter : Option Targeter := none
  trigger : Option Trigger := none
  conditions : List Condition := []
  chance : Option LineToken := none
  argument : Option LineToken := none
  report : Report := .empty

namespace Mechanic

/-! ## Names of mechanics -/

/-- The mechanics whose first bare number is an argument and not a chance
(`MECHANIC_CAPABILITIES`). -/
def leadingNumberNames : List String := ["delay"]

/-- The mechanics that call another skill (`SKILL_REFERENCE_MECHANICS`). -/
def skillCallNames : List String := ["skill", "metaskill", "meta"]

/-- The keys under which a mechanic that calls a skill has the skill's id. -/
def skillKeys : List String := ["s", "skill"]

variable (src : Source) (m : Mechanic)

/-- The name of the mechanic in lower case. -/
def name? : Option String := m.config.main.map (lowerText ·.value)

/-- Whether the first bare number is an argument of the mechanic. -/
def leadingNumericArgument : Bool :=
  leadingNumberNames.contains (m.name?.getD "")

/-- The id of the skill that a skill-calling mechanic calls (`skill_reference`). -/
def skillReference? : Option LineToken :=
  match m.name? with
  | some name =>
    if skillCallNames.contains name then (m.config.get? skillKeys).map (·.value) else none
  | none => none

/-! ## Parts -/

/-- A part of an escaped line and the index it starts at. -/
structure Part where
  start : Nat
  text : List Char

/-- The runs of characters other than spaces in the text at index `i`; `run` is the current run,
backwards. -/
def partsFrom (i : Nat) (run : List Char) : List Char → List Part
  | [] => if run.isEmpty then [] else [⟨i - run.length, run.reverse⟩]
  | c :: cs =>
    if c = ' ' then
      if run.isEmpty then partsFrom (i + 1) [] cs
      else ⟨i - run.length, run.reverse⟩ :: partsFrom (i + 1) [] cs
    else partsFrom (i + 1) (c :: run) cs

/-- The runs of characters other than spaces (`_split_components`). -/
def parts (escaped : List Char) : List Part :=
  partsFrom 0 [] escaped

/-- Whether a part is a bare number: perhaps a dash, perhaps digits and a point, and digits
(`NUMERIC_PATTERN`). -/
def isBareNumber (text : List Char) : Bool :=
  let digits := if text.head? = some '-' then text.drop 1 else text
  match (digits.dropWhile isDecimal) with
  | [] => !digits.isEmpty
  | '.' :: fraction => !fraction.isEmpty && fraction.all isDecimal
  | _ => false

/-- A problem between two offsets, added to the report. -/
def problem (start stop : Int) (message : String) (code : DiagnosticCode)
    (severity : Severity := .error) : Mechanic :=
  let d : Diagnostic := { range := src.range start stop, message, code, severity }
  { m with report := m.report.merge (.ofDiagnostic d) }

/-- The mechanic with more in its report. -/
def adding (r : Report) : Mechanic :=
  { m with report := m.report.merge r }

/-! ## Reading the parts -/

/-- Adds a targeter; only the first is kept. -/
def addTargeter (text : List Char) (start stop : Int) : Mechanic :=
  let targeter := (Targeter.parse src text start).withHighlights src
  let m := m.adding targeter.report
  if m.targeter.isSome then
    m.problem src start stop "Only one targeter allowed per skill!" .tooManyTargeters
  else { m with targeter := some targeter }

/-- Adds a trigger; only the first is kept. -/
def addTrigger (text : List Char) (start stop : Int) (supportsTriggers : Bool) : Mechanic :=
  let trigger := (Trigger.parse text start).withHighlights src
  let m := m.adding trigger.report
  let m :=
    if supportsTriggers then m
    else m.problem src start stop
      "Triggers are not supported in this environment! (e.g. metaskills)" .triggersNotAllowed
  if m.trigger.isSome then
    m.problem src start stop "Only one trigger allowed per skill!" .tooManyTriggers
  else { m with trigger := some trigger }

/-- Adds a condition. -/
def addCondition (text : List Char) (start : Int) : Mechanic :=
  let condition := (Condition.parse src text start).withHighlights src
  { m.adding condition.report with conditions := m.conditions ++ [condition] }

/-- Whether a bare number lies between zero and one. -/
def isProbability (text : List Char) : Bool :=
  match readFloat? text with
  | some x => Number.le (.int 0) (.float x) && Number.le (.float x) (.int 1)
  | none => false

/-- Adds a bare number: the argument of a mechanic that takes one, else the chance
(`_parse_number`). -/
def addNumber (token : LineToken) : Mechanic :=
  let m := m.adding (token.highlight src .number)
  if m.leadingNumericArgument && m.argument.isNone && m.chance.isNone then
    { m with argument := some token }
  else if m.chance.isSome || m.argument.isSome then
    m.problem src token.start token.stop "Only one chance allowed per skill!" .tooManyChances
  else
    let m := { m with chance := some token }
    if isProbability token.value.toList then m
    else m.problem src token.start token.stop
      ("Chance must be between 0 and 1, but got " ++ token.value ++ ".") .invalidChance

/-- Adds the part `text` that stands between two source offsets (`_parse_component`). -/
def addPart (text : List Char) (start stop : Int) (supportsTriggers : Bool) : Mechanic :=
  match text.head? with
  | some '@' => m.addTargeter src text start stop
  | some '~' => m.addTrigger src text start stop supportsTriggers
  | some '?' => m.addCondition src text start
  | _ =>
    let value := String.ofList (SkillLine.unescape text)
    if isBareNumber text then m.addNumber src ⟨value, start, stop⟩
    else m.problem src start stop ("Unknown skill component `" ++ value ++ "`.")
      .unknownComponent .warning

/-- Reads the part that names the mechanic. -/
def ofFirst (text : List Char) (start : Int) : Mechanic :=
  let config := (LineConfig.parse src text start).withHighlights src
  { config, report := config.report.merge (LineToken.highlight? src .function config.main) }

/-- Reads the skill line `line`, which starts at `offset` of the document `src`
(`SkillMechanic.parse`). -/
def parse (line : List Char) (offset : Int) (supportsTriggers : Bool := true) : Mechanic :=
  let escaped := SkillLine.escape line
  let pos := SkillLine.sourceOffset escaped offset
  match parts escaped with
  | [] => { config := { source := escaped, offset } }
  | first :: others =>
    others.foldl
      (fun m p => m.addPart src p.text (pos p.start) (pos (p.start + p.text.length))
        supportsTriggers)
      (ofFirst src first.text (pos first.start))

end Mechanic

end PackLint
