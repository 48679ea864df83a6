import PackLint.Pack.Property
import PackLint.Number.Remainder
import PackLint.Schema.Registration
import PackLint.Schema.Resolve

/-!
# Skill files

A skill file maps the ids of skills to their configuration: the skill lines to run, conditions, and
a cooldown, which is counted in ticks of the game. Model of `check_tick_aligned`,
`skill_documentation` and `MYTHIC_SKILL_SCHEMA`.
-/

namespace PackLint.Pack

/-- The check that a cooldown is a whole number of ticks (`check_tick_aligned`). -/
def cooldownAligned : Check := fun site n =>
  match n with
  | .scalar ⟨.number x, _, _, _, _⟩ => do
    let tick := site.data.tickDuration
    if !x.isWritable then throw .integerTooLong
    match x.isMultiple? (.float tick) with
    | none => throw .remainderUndefined
    | some true => return .empty
    | some false =>
      let message := "Cooldown should be divisible by " ++ tick.text ++ " (1 tick)."
      return site.problem n .cooldownNotTickAligned message
  | _ => .ok .empty

/-- The documentation of a skill: the comment above it (`skill_documentation`). -/
def skillDocumentation (ctx : Context) : Option String := do
  let comment ← (← ctx.pair).commentBefore
  if comment = "" then none
  else some (documentationText comment ++ seeAlso ["Skills/Metaskills"])

/-- The properties of a skill. -/
def skillProperties : List (String × Property) :=
  [("CancelIfNoTargets", documented (.bool {})
      "Whether to cancel the skill if there are no targets."
      (some "Skills/Metaskills#cancelifnotargets")),
   ("OnCooldownSkill", documented Reference.skill.schema
      "A skill to run instead if the skill is on cooldown."
      (some "Skills/Metaskills#oncooldownskill")),
   ("Cooldown", documented ((Schema.atLeast 0).withLocalChecks [cooldownAligned])
      "The cooldown of this skill in seconds." (some "Skills/Metaskills#cooldown")),
   ("Skills", documented (.skillList {} false) "The skills that this skill will use."
      (some "Skills/Metaskills#skills") true),
   ("Conditions", documentedStrings
      "The conditions that this skill will check on the **caster**."
      "Skills/Metaskills#conditions"),
   ("TargetConditions", documentedStrings
      "The conditions that this skill will check on the **target**."
      "Skills/Metaskills#targetconditions"),
   ("TriggerConditions", documentedStrings
      "The conditions that this skill will check on the **trigger**."
      "Skills/Metaskills#triggerconditions")]

/-- The schema of a skill file (`MYTHIC_SKILL_SCHEMA`). -/
def skillSchema : Schema :=
  (Schema.entries "mythic_skill_config" (fun _ => skillProperties) skillDocumentation)
    |>.withLocalChecks [registration .skills .function]

end PackLint.Pack
