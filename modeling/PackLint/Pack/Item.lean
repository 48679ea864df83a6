import PackLint.Pack.Property
import PackLint.Schema.Registration
import PackLint.Schema.Resolve

/-!
# Item files

An item file maps the ids of items to their configuration. Potion effects fit only some materials,
and an enchantment is written with its level. Model of `check_potion_material`,
`check_enchantment`, `item_properties` and `MYTHIC_ITEM_SCHEMA`.
-/

namespace PackLint.Pack

/-! ## Checks -/

/-- The materials that can have potion effects. -/
def potionMaterials : List String :=
  ["potion", "splash_potion", "lingering_potion", "tipped_arrow"]

/-- The check that the item that has potion effects is of a material for them
(`check_potion_material`). -/
def potionMaterial : Check := fun site n => do
  match (Context.ofNode site n).enclosingMap?.bind (·.get? "Id") with
  | some (.scalar s) =>
    if potionMaterials.contains (lowerText (← s.plainText?)) then return .empty
    return site.problem n .invalidPotionEffects
      ("Potion effects can only be applied to items of type " ++
        ", ".intercalate (potionMaterials.map fun m => "`" ++ m ++ "`") ++ ".")
  | _ => return .empty

/-- The name in an entry of the form `name:level` or `name level`. -/
def enchantmentName (text : String) : String :=
  String.ofList (text.toList.takeWhile fun c => c ≠ ':' && c ≠ ' ')

/-- The check of the name of an enchantment that is written with its level (`check_enchantment`). -/
def enchantmentEntry : Check := fun site n =>
  match n with
  | .scalar s =>
    match s.value with
    | .str text =>
      let name := enchantmentName text
      let start := if s.isQuoted then s.start + 1 else s.start
      Choice.enchantment.check site (.scalar (.ofString name start (start + name.length)))
    | _ => .ok .empty
  | _ => .ok .empty

/-! ## Properties -/

/-- A list of potion effects. -/
def potionEffects : Schema :=
  (Schema.listOf .anyString).withLocalChecks [potionMaterial]

/-- An enchantment with its level. -/
def enchantment : Schema :=
  (Schema.anyString.named fun _ => some "enchantment").withLocalChecks [enchantmentEntry]

/-- The properties of an item, of which `excludable` can be left out. -/
def itemPropertiesWith (excludable : StringRule) : List (String × Property) :=
  [("Template", documented Reference.item.schema
      "The base mythic item to use as a template, inheriting all of its settings."
      (some "Items/Items#template")),
   ("Exclude", documented (.listOf (.string {} excludable))
      "Excludes unwanted inherited properties from the template." (some "Items/Items#template")),
   ("Id", documented Choice.material "The base material to use for your item."
      (some "Items/Items#id")),
   ("Display", documented .anyString "Sets the display name of the item."
      (some "Items/Items#display")),
   ("Lore", documentedStrings
      "Sets the lore of the item. `\x7bmin-max\x7d` and `<random.#to#>` generate random numbers."
      "Items/Items#lore"),
   ("CustomModelData", documented (.number {} { integer := fun _ => true })
      "Sets the CustomModelData tag on the item." (some "Items/Items#custommodeldata") false
      (some ["Model"])),
   ("Durability", documented (.atLeast 0)
      "Sets the amount of durability to take off the item." (some "Items/Items#durability")),
   ("Attributes", documented .anyMap "Item attributes per armor slot."
      (some "Items/Items#attributes")),
   ("Amount", documented (.atLeast 1 true) "Sets the default amount of items to give."
      (some "Items/Items#amount")),
   ("Options", documented .anyMap "A special field that comes with numerous sub-options."
      (some "Items/Items#options")),
   ("Enchantments", documented (.listOf enchantment false)
      "Sets the enchantments on the item, as `ENCHANTMENT:level`."
      (some "Items/Items#enchantments")),
   ("Hide", documented (.listOf Choice.hideFlag false)
      "Hides specific things from the item tooltip." (some "Items/Items#hide")),
   ("PotionEffects", documented potionEffects
      ("Sets the potion effects of the item, see " ++ wikiLink "Items/Potions" ++ ".")
      (some "Items/Items#potioneffects")),
   ("BannerLayers", documentedStrings "Sets the banner layers of a banner or a shield."
      "Items/Items#bannerlayers"),
   ("CanPlaceOn", documentedStrings "Blocks this item can be placed on in adventure mode."
      "Items/Items#canplaceon"),
   ("CanBreak", documentedStrings "Blocks this item can break in adventure mode."
      "Items/Items#canbreak"),
   ("Group", documented .anyString "Sets the group the item is in for `/mm items browse`."
      (some "Items/Items#group")),
   ("NBT", documented .anyMap "Sets the NBT data for the item." (some "Items/Items#nbt"))]

/-- The properties of an item, each of which can be left out of a template (`item_properties`). -/
def itemProperties : List (String × Property) :=
  itemPropertiesWith (.amongKeys ((itemPropertiesWith {}).map (·.1)))

/-- The schema of an item file (`MYTHIC_ITEM_SCHEMA`). -/
def itemSchema : Schema :=
  (Schema.entries "mythic_item_config" fun _ => itemProperties)
    |>.withLocalChecks [registration .items .typeName]

end PackLint.Pack
