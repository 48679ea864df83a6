import PackLint.Number.Binary64

/-!
# Game data

The constants of the game that documents are checked against: how long a tick is, how much armor
there can be, and the names that the game knows. `Vanilla` holds those of the game itself; a server
with other content has other data. Model of `MythicData`.
-/

namespace PackLint

namespace Vanilla

/-- The types of entities. -/
def entities : List String :=
  ["ALLAY", "ARMOR_STAND", "AXOLOTL", "BAT", "BEE", "BLAZE", "BLOCK_DISPLAY", "CAT", "CAVE_SPIDER",
   "CHICKEN", "COW", "CREEPER", "DROWNED", "ELDER_GUARDIAN", "ENDER_DRAGON", "ENDERMAN", "EVOKER",
   "FOX", "GHAST", "GIANT", "GUARDIAN", "HOGLIN", "HORSE", "HUSK", "IRON_GOLEM", "ITEM_DISPLAY",
   "MAGMA_CUBE", "PHANTOM", "PIG", "PIGLIN", "PIGLIN_BRUTE", "PILLAGER", "RAVAGER", "SHEEP",
   "SHULKER", "SILVERFISH", "SKELETON", "SLIME", "SPIDER", "STRAY", "TEXT_DISPLAY", "VEX",
   "VILLAGER", "VINDICATOR", "WARDEN", "WITCH", "WITHER", "WITHER_SKELETON", "WOLF", "ZOGLIN",
   "ZOMBIE", "ZOMBIE_VILLAGER", "ZOMBIFIED_PIGLIN"]

/-- The colours of boss bars. -/
def bossBarColors : List String :=
  ["PINK", "BLUE", "RED", "GREEN", "YELLOW", "PURPLE", "WHITE"]

/-- The styles of boss bars. -/
def bossBarStyles : List String :=
  ["SOLID", "SEGMENTED_6", "SEGMENTED_10", "SEGMENTED_12", "SEGMENTED_20"]

/-- The materials of items. -/
def materials : List String :=
  ["ARROW", "BOW", "DIAMOND", "DIAMOND_SWORD", "EMERALD", "GOLDEN_APPLE", "IRON_INGOT",
   "IRON_SWORD", "LINGERING_POTION", "NETHERITE_SWORD", "PAPER", "PLAYER_HEAD", "POTION", "SHIELD",
   "SPLASH_POTION", "STICK", "STONE", "TIPPED_ARROW", "WHITE_BANNER", "WOODEN_SWORD"]

/-- The enchantments of items. -/
def enchantments : List String :=
  ["FIRE_ASPECT", "KNOCKBACK", "LOOTING", "MENDING", "POWER", "PROTECTION", "SHARPNESS", "SMITE",
   "UNBREAKING"]

/-- The parts of an item's tooltip that can be hidden. -/
def hideFlags : List String :=
  ["ARMOR_TRIM", "ATTRIBUTES", "DESTROYS", "DYE", "ENCHANTS", "PLACED_ON", "POTION_EFFECTS",
   "UNBREAKABLE"]

/-- The length of a tick in seconds: five hundredths. -/
def tick : Binary64 := .ofDecimal ⟨false, 5, -2⟩

/-- The greatest armor value. -/
def maxArmor : Number := .int 30

end Vanilla

/-- The constants of the game (`MythicData`). -/
structure GameData where
  tickDuration : Binary64 := Vanilla.tick
  maxArmor : Number := Vanilla.maxArmor
  entities : List String := Vanilla.entities
  bossBarColors : List String := Vanilla.bossBarColors
  bossBarStyles : List String := Vanilla.bossBarStyles
  materials : List String := Vanilla.materials
  enchantments : List String := Vanilla.enchantments
  hideFlags : List String := Vanilla.hideFlags

/-- The data with more types of entities (`with_entity_ids`). -/
def GameData.withEntities (d : GameData) (names : List String) : GameData :=
  { d with entities := d.entities ++ names }

end PackLint
