import PackLint.Pack.Property
import PackLint.Schema.Registration
import PackLint.Schema.Resolve

/-!
# Mob files

A mob file maps the ids of mobs to their configuration. An id that is the name of a type of entity
changes that entity and takes no type; the options of a display entity depend on its type. Model of
`_display_options`, `mob_properties`, `check_mob_types` and `MYTHIC_MOB_SCHEMA`.
-/

namespace PackLint.Pack

/-! ## Display entities -/

/-- The types of entities that only display something. -/
def displayTypes : List String := ["block_display", "item_display", "text_display"]

/-- The one option of a display entity. -/
def displayOption (key description : String) : List (String × Property) :=
  [(key, documented .anyString description)]

/-- The options of an entity by its type. -/
def optionsOfType (type : String) : List (String × Property) :=
  match type with
  | "block_display" => displayOption "Block" "Sets the block displayed."
  | "item_display" => displayOption "Item" "Sets the item displayed."
  | "text_display" => displayOption "Text" "Sets the text displayed."
  | _ => []

/-- The options of the display entity that the node belongs to (`_display_options`). -/
def displayOptions (ctx : Context) : List (String × Property) :=
  match ctx.enclosingMap?.bind (·.get? "Type") with
  | some (.scalar s) => optionsOfType (lowerText s.value.plainText)
  | _ => []

/-! ## Properties -/

/-- The statistics that change with the level of a mob. -/
def levelStatistics : List String :=
  ["Health", "Damage", "KnockbackResistance", "Power", "Armor", "MovementSpeed"]

/-- The properties of a health bar. -/
def healthBar : List (String × Property) :=
  [("Enabled", documented (.bool {}) "Enables or disables the health bar hologram." none true),
   ("Offset", documented (.number {} {}) "Sets the vertical offset of the health bar hologram.")]

/-- The properties of a boss bar. -/
def bossBar : List (String × Property) :=
  [("Enabled", documented (.bool {}) "Enables or disables the boss bar." none true),
   ("Title", documented .anyString "Sets the title of the boss bar."),
   ("Range", documented (.atLeast 0) "Sets the range of the boss bar. Defaults to 64."),
   ("Color", documented Choice.bossBarColor "Sets the color of the boss bar."),
   ("Style", documented Choice.bossBarStyle "Sets the style of the boss bar."),
   ("CreateFog", documented (.bool {}) "Adds a fog effect while in range of the boss bar."),
   ("DarkenSky", documented (.bool {}) "Darkens the sky while in range of the boss bar."),
   ("PlayMusic", documented (.bool {})
      "Whether to play boss music while in range of the boss bar.")]

/-- The modules of a mob. -/
def mobModules : List (String × Property) :=
  [("ThreatTables", documented (.bool {})
      ("Enables or disables " ++ wikiLink "Mobs/ThreatTables" ++ " for the mob.")
      none false (some ["ThreatTable"])),
   ("ImmunityTables", documented (.bool {})
      ("Enables or disables " ++ wikiLink "Mobs/ImmunityTables" ++ " for the mob."))]

/-- The properties of a nameplate. -/
def nameplate : List (String × Property) :=
  [("Enabled", documented (.bool {}) "Enables or disables the nameplate." none true),
   ("Mounted", documented (.bool {}) "Forces the nameplate to work with modeled entities.")]

/-- The properties of what a mob hears. -/
def hearing : List (String × Property) :=
  [("Enabled", documented (.bool {}) "Enables or disables hearing.")]

/-- What a mob gains with each level. -/
def levelModifiers : List (String × Property) :=
  levelStatistics.map fun s =>
    (s, documented (.atLeast 0) ("Sets the `" ++ s ++ "` the mob gains per level."))

/-- The armor of a mob, up to what the game allows. -/
def armor : Schema :=
  .number {}
    { minimum := fun _ => some (.int 0)
      maximum := fun ctx => some ctx.site.data.maxArmor }

/-- The properties of a mob, of which `excludable` can be left out. -/
def mobPropertiesWith (excludable : StringRule) : List (String × Property) :=
  [("Template", documented Reference.mob.schema
      "The base mythic mob to use as a template, inheriting all of its settings."
      (some "Mobs/Templates")),
   ("Exclude", documented (.listOf (.string {} excludable))
      "Excludes unwanted inherited properties from the template." (some "Mobs/Templates")),
   ("Type", documented Choice.entity "The base entity type of the mythic mob."
      (some "Mobs/Mobs#type")),
   ("Display", documented .anyString "The display name of the mythic mob."
      (some "Mobs/Mobs#display")),
   ("Health", documented (.atLeast 0)
      "Sets the base value of the mob's max health attribute." (some "Mobs/Mobs#health")),
   ("Damage", documented (.atLeast 0)
      "Sets the base value of the mob's melee attack damage attribute."
      (some "Mobs/Mobs#damage")),
   ("Armor", documented armor "Sets the base value of the mob's armor attribute."
      (some "Mobs/Mobs#armor")),
   ("HealthBar", documented (.fixedObject healthBar) "Creates a basic health bar hologram."
      (some "Mobs/Mobs#healthbar")),
   ("BossBar", documented (.fixedObject bossBar) "Defines and controls the boss bar of the mob."
      (some "Mobs/Mobs#bossbar")),
   ("Faction", documented .anyString
      "Sets the mob's faction, used by custom AI and targeter filtering. Case-sensitive."
      (some "Mobs/Mobs#faction")),
   ("Mount", documented Reference.mob.schema
      "Another mythic mob this mob rides when it spawns." (some "Mobs/Mobs#mount")),
   ("DisplayOptions", documented (.object {} displayOptions)
      ("Sets the display entity options of the mob. Requires type `" ++
        "`, `".intercalate displayTypes ++ "`.")
      (some "Mobs/Mobs#displayoptions")),
   ("Options", documented .anyMap
      ("Numerous sub-options, see " ++ wikiLink "Mobs/Options" ++ ".") (some "Mobs/Mobs#options")),
   ("Modules", documented (.fixedObject mobModules) "Enables or disables mob modules."
      (some "Mobs/Mobs#modules")),
   ("AIGoalSelectors", documentedStrings "Customizes the AI goals of the mob."
      "Mobs/Mobs#aigoalselectors"),
   ("AITargetSelectors", documentedStrings "Customizes the AI targets of the mob."
      "Mobs/Mobs#aitargetselectors"),
   ("Drops", documentedStrings "Adds or modifies the loot drops of the mob." "Mobs/Mobs#drops"),
   ("DamageModifiers", documentedStrings
      "Modifies how much damage the mob takes from different damage causes."
      "Mobs/Mobs#damagemodifiers"),
   ("Equipment", documentedStrings "Equips the mob with items when it first spawns."
      "Mobs/Mobs#equipment"),
   ("KillMessages", documentedStrings "Messages shown when the mob kills a player."
      "Mobs/Mobs#killmessages"),
   ("LevelModifiers", documented (.fixedObject levelModifiers)
      "Statistics the mob gains when its level changes." (some "Mobs/Mobs#levelmodifiers")),
   ("Disguise", documented .anyString
      "Changes the appearance of the mob. Requires LibsDisguises." (some "Mobs/Mobs#disguise")),
   ("Skills", documented (.skillList {} true)
      ("The skills of the mob, see " ++ wikiLink "Skills/Skills" ++ ".") (some "Mobs/Mobs#skills")),
   ("Nameplate", documented (.fixedObject nameplate)
      "Forces the usage of Mythic nameplates on the mob." (some "Mobs/Mobs#nameplate")),
   ("Hearing", documented (.fixedObject hearing)
      "Allows the mob to hear sounds like a warden would." (some "Mobs/Mobs#hearing")),
   ("Variables", documented .anyMap "Variables the mob spawns with."
      (some "Mobs/Mobs#variables")),
   ("Trades", documented .anyMap "Customizes the villager trades." (some "Mobs/Mobs#trades"))]

/-- The properties of a mob, each of which can be left out of a template (`mob_properties`). -/
def mobProperties : List (String × Property) :=
  mobPropertiesWith (.amongKeys ((mobPropertiesWith {}).map (·.1)))

/-! ## Types -/

/-- The report on the type and the display options of one mob. -/
def checkMobType (site : Site) (p : Pair) : Except Fault Report := do
  match p.value with
  | some (.map pairs start stop) =>
    let mob := Node.map pairs start stop
    let vanilla := site.data.entities.map lowerText
    let type := mob.pair? "Type"
    let override := match type with
      | some t =>
        if vanilla.contains (lowerText p.keyText) then
          site.problem t.key .vanillaOverrideType
            ("Type is not required for vanilla override of " ++ p.keyText ++ ".")
        else .empty
      | none => .empty
    let typeName ← match type.bind (·.value) with
      | some (.scalar s) => s.plainText?
      | _ => .ok "unknown"
    if displayTypes.contains (lowerText typeName) then return override
    let message :=
      "DisplayOptions is only available for " ++ ", ".intercalate displayTypes ++ ". Got " ++
        typeName ++ "."
    match mob.pair? "DisplayOptions" with
    | some options => return override ++ site.problem options.key .invalidDisplayOptions message
    | none => return override
  | _ => return .empty

/-- The check of the types of mobs: an id that is a type of entity takes no type, and only display
entities take display options (`check_mob_types`). -/
def mobTypes : Check := fun site n => do
  return .mergeAll (← ((n.pairs?).getD []).mapM (checkMobType site))

/-- The schema of a mob file (`MYTHIC_MOB_SCHEMA`). -/
def mobSchema : Schema :=
  (Schema.entries "mythic_mob_config" fun _ => mobProperties)
    |>.withLocalChecks [registration .mobs .typeName, mobTypes]

end PackLint.Pack
