import PackLint.GameData
import PackLint.Field

/-!
# Game data from fields

`GameData.ofFields` reads game data from values under names. What is missing is as in the game
itself; the greatest armor is then a floating point number, as a given one is. Model of how
`MythicData` is made.
-/

namespace PackLint

namespace GameData

/-- The number as a floating point number. -/
def asFloat : Number → Binary64
  | .int n => .ofRatio (decide (n < 0)) n.natAbs 1
  | .float x => x

/-- The game data that fields give. -/
def ofFields (fields : List (String × Value)) : Except (List FieldError) GameData :=
  let d : GameData := {}
  Field.Reader.finish do
    let tickDuration ← Field.read fields "tick_duration" Field.number d.tickDuration
    let maxArmor ← Field.read fields "attribute_max_armor" Field.number (asFloat d.maxArmor)
    let entities ← Field.readStrings fields "entity_ids" d.entities
    let bossBarColors ← Field.readStrings fields "bossbar_colors" d.bossBarColors
    let bossBarStyles ← Field.readStrings fields "bossbar_styles" d.bossBarStyles
    let materials ← Field.readStrings fields "material_ids" d.materials
    let enchantments ← Field.readStrings fields "enchantments" d.enchantments
    let hideFlags ← Field.readStrings fields "hide_flags" d.hideFlags
    return { tickDuration, maxArmor := .float maxArmor, entities, bossBarColors, bossBarStyles,
             materials, enchantments, hideFlags }

end GameData

end PackLint
