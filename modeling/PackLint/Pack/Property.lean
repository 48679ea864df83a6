import PackLint.Schema.Basic
import PackLint.Documentation

/-!
# Properties of pack files

Short ways to write the properties of mobs, skills and items, and the schemas of values that are one
of the names that the game data lists. Case does not matter in them. Model of `_strings` and
`_conditions`, which are one definition here, and of `_enum` with the schemas made by it.
-/

namespace PackLint

/-- A property with a description, which may link to a page of the wiki. -/
def documented (schema : Schema) (description : String) (page : Option String := none)
    (required : Bool := false) (aliases : Option (List String) := none) : Property where
  schema _ := schema
  required _ := required
  description _ := some (description ++ (page.map fun p => seeAlso [p]).getD "")
  aliases _ := aliases

/-- A property that is a list of strings. -/
def documentedStrings (description page : String) : Property :=
  documented (.listOf .anyString) description (some page)

/-- A number that is at least `minimum`. -/
def Schema.atLeast (minimum : Int) (integer : Bool := false) : Schema :=
  .number {} { minimum := fun _ => some (.int minimum), integer := fun _ => integer }

/-- An object with the same properties everywhere. -/
def Schema.fixedObject (properties : List (String × Property)) : Schema :=
  .object {} fun _ => properties

/-- A map of objects under a name, which are described as `describe` says. -/
def Schema.entries (name : String) (properties : Context → List (String × Property))
    (describe : Context → Option String := fun _ => none) : Schema :=
  .map {} (fun _ => (Schema.object {} properties).named fun _ => some name) describe

/-- The rule that accepts keys, proposed as properties. -/
def StringRule.amongKeys (keys : List String) : StringRule where
  matcher _ := some (.options (keys.map fun k => ⟨k, some { label := k, kind := .property }⟩))

/-- The scalar as text, unless it holds an integer with too many digits. -/
def Scalar.plainText? (s : Scalar) : Except Fault String :=
  if s.value.isWritable then .ok s.value.plainText else .error .integerTooLong

end PackLint

/-! ## Choices among names of the game -/

namespace PackLint.Choice

/-- A choice among names of the game data (`_enum`). -/
def among (name : String) (names : GameData → List String) : Schema :=
  .string { name := fun _ => some name, highlight := some .enumMember }
    { matcher := fun ctx => some (.options ((names ctx.site.data).map fun n =>
        ⟨n, some { label := n, kind := .enumMember }⟩)) }

/-- The type of an entity (`SCHEMA_ENTITY_TYPE`). -/
def entity : Schema := among "entity_type" (·.entities)

/-- The material of an item (`SCHEMA_MATERIAL_TYPE`). -/
def material : Schema := among "material_type" (·.materials)

/-- An enchantment (`SCHEMA_ENCHANTMENT`). -/
def enchantment : Schema := among "enchantment" (·.enchantments)

/-- A part of a tooltip to hide (`SCHEMA_HIDE_FLAG`). -/
def hideFlag : Schema := among "hide_flag" (·.hideFlags)

/-- The colour of a boss bar (`SCHEMA_BOSSBAR_COLOR`). -/
def bossBarColor : Schema := among "bossbar_color" (·.bossBarColors)

/-- The style of a boss bar (`SCHEMA_BOSSBAR_STYLE`). -/
def bossBarStyle : Schema := among "bossbar_style" (·.bossBarStyles)

end PackLint.Choice
