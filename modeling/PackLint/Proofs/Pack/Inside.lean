import PackLint.Proofs.Schema.Blind
import PackLint.Pack.FileKind

/-!
# What is inside of the schemas of pack files

The schemas inside of those of mobs, skills and items bring along few checks of their own:
`Pack.Brings` lists them. What is shown of these checks holds wherever a check descends to in a
file. Beside these checks the schemas depend on the game data, on the pair that is looked at and on
the top-level map around the node, but on nothing that other documents declare.

Results:
* `Pack.known_parts`: every schema inside of that of a kind of file brings along listed checks only,
  and sees no more of its place than that.
* `Pack.fields_file`: nor does the schema of a kind of file itself.
* `Pack.blind_file`: so none of them sees what is registered.
-/

namespace PackLint

/-- Two places that schemas of pack files do not tell apart: the game data, the pair and the
top-level map around the node are the same. -/
structure Context.SamePlace (ctx ctx' : Context) : Prop where
  data : ctx.site.data = ctx'.site.data
  pair : ctx.pair = ctx'.pair
  around : ctx.enclosingMap? = ctx'.enclosingMap?

namespace Pack

/-- The local checks and the checks of references that a schema inside of a file's may bring
along. -/
inductive Brings : List Check → List Check → Prop
  | nothing : Brings [] []
  | reference (ref : Reference) (h : ref.name ≠ "") : Brings [] [ref.check]
  | cooldown : Brings [cooldownAligned] []
  | potion : Brings [potionMaterial] []
  | enchantment : Brings [enchantmentEntry] []

/-- The schema brings along listed checks only, and sees nothing of its place but the game data, the
pair and the top-level map around the node. -/
structure Listed (s : Schema) : Prop where
  brings : ∃ checks references, Brings checks references ∧
    s.info.localChecks = (fun _ => checks) ∧ s.info.referenceChecks = fun _ => references
  fields : s.FieldsUnder Context.SamePlace

theorem Listed.localCheck {s : Schema} (h : Listed s) {ctx : Context} {c : Check}
    (hc : c ∈ s.info.localChecks ctx) :
    c = cooldownAligned ∨ c = potionMaterial ∨ c = enchantmentEntry := by
  obtain ⟨checks, references, hb, hchecks, -⟩ := h.brings
  rw [hchecks] at hc
  cases hb with
  | nothing => cases hc
  | reference ref => cases hc
  | cooldown => exact Or.inl (List.mem_singleton.mp hc)
  | potion => exact Or.inr (Or.inl (List.mem_singleton.mp hc))
  | enchantment => exact Or.inr (Or.inr (List.mem_singleton.mp hc))

theorem Listed.referenceCheck {s : Schema} (h : Listed s) {ctx : Context} {c : Check}
    (hc : c ∈ s.info.referenceChecks ctx) : ∃ ref : Reference, ref.name ≠ "" ∧ c = ref.check := by
  obtain ⟨checks, references, hb, -, hreferences⟩ := h.brings
  rw [hreferences] at hc
  cases hb with
  | reference ref href => exact ⟨ref, href, List.mem_singleton.mp hc⟩
  | _ => cases hc

/-- A schema that brings nothing along is listed if it sees nothing else of its place. -/
theorem Listed.of_nothing {s : Schema} (hlocal : s.info.localChecks = fun _ => [])
    (hreferences : s.info.referenceChecks = fun _ => [])
    (h : s.FieldsUnder Context.SamePlace) : Listed s :=
  ⟨⟨_, _, .nothing, hlocal, hreferences⟩, h⟩

/-- The schema and all schemas inside of it are listed. -/
abbrev Known (s : Schema) : Prop := Schema.All Listed s

/-- The field depends on no more of the place than that. -/
abbrev Fixed {α : Type} (f : Context → α) : Prop := SameUnder Context.SamePlace f

/-- The schema of the property is known, and the property depends on no more of the place. -/
structure KnownProperty (p : Property) : Prop where
  steady : p.SteadyUnder Context.SamePlace
  schema (ctx : Context) : Known (p.schema ctx)

/-- All of the properties are known. -/
def KnownProperties (ps : List (String × Property)) : Prop := ∀ e ∈ ps, KnownProperty e.2

theorem fixed_data {α : Type} (f : GameData → α) : Fixed fun ctx => f ctx.site.data :=
  fun _ _ hctx => congrArg f hctx.data

/-! ## Rules -/

/-- The rule for numbers depends on no more of the place. -/
abbrev FixedNumber (rule : NumberRule) : Prop := rule.SteadyUnder Context.SamePlace

/-- The rule for strings depends on no more of the place. -/
abbrev FixedString (rule : StringRule) : Prop := rule.SteadyUnder Context.SamePlace

@[simp] theorem fixed_const {α : Type} (a : α) : Fixed fun _ => a := sameUnder_const a

@[simp] theorem fixedNumber_mk (minimum maximum : Context → Option Number)
    (minimumInclusive maximumInclusive integer : Context → Bool) :
    FixedNumber ⟨minimum, maximum, minimumInclusive, maximumInclusive, integer⟩ ↔
      Fixed minimum ∧ Fixed maximum ∧ Fixed minimumInclusive ∧ Fixed maximumInclusive ∧
        Fixed integer :=
  ⟨fun h => ⟨h.minimum, h.maximum, h.minimumInclusive, h.maximumInclusive, h.integer⟩,
    fun ⟨hmin, hmax, hlow, hhigh, hint⟩ => ⟨hmin, hmax, hlow, hhigh, hint⟩⟩

@[simp] theorem fixedString_mk (matcher : Context → Option StringMatcher)
    (caseSensitive : Context → Bool) :
    FixedString ⟨matcher, caseSensitive⟩ ↔ Fixed matcher ∧ Fixed caseSensitive :=
  ⟨fun h => ⟨h.matcher, h.caseSensitive⟩, fun ⟨hmatcher, hcase⟩ => ⟨hmatcher, hcase⟩⟩

/-! ## Schemas -/

@[simp] theorem known_bool : Known (.bool {}) :=
  .intro (.of_nothing rfl rfl ⟨fixed_const _, trivial⟩) fun _ h => h.elim

@[simp] theorem known_number {rule : NumberRule} (h : FixedNumber rule) :
    Known (.number {} rule) :=
  .intro (.of_nothing rfl rfl ⟨fixed_const _, h⟩) fun _ h => h.elim

@[simp] theorem known_string {rule : StringRule} (h : FixedString rule) :
    Known (.string {} rule) :=
  .intro (.of_nothing rfl rfl ⟨fixed_const _, h⟩) fun _ h => h.elim

@[simp] theorem known_anyString : Known .anyString :=
  known_string (by simp)

@[simp] theorem known_anything : Known (.anything {}) :=
  .intro (.of_nothing rfl rfl ⟨fixed_const _, trivial⟩) fun _ h => h.elim

theorem fixedString_among (names : GameData → List String) :
    FixedString { matcher := fun ctx => some (.options ((names ctx.site.data).map fun n =>
      ⟨n, some { label := n, kind := .enumMember }⟩)) } :=
  ⟨fixed_data fun data => some (StringMatcher.options ((names data).map fun n =>
    ⟨n, some { label := n, kind := .enumMember }⟩)), fixed_const _⟩

@[simp] theorem known_among (name : String) (names : GameData → List String) :
    Known (Choice.among name names) :=
  .intro (.of_nothing rfl rfl ⟨fixed_const _, fixedString_among names⟩)
    fun _ h => h.elim

theorem known_reference (ref : Reference) (h : ref.name ≠ "") : Known ref.schema :=
  .intro ⟨⟨_, _, .reference ref h, rfl, rfl⟩,
    ⟨fixed_const _, fixed_const _, fixed_const _⟩⟩ fun _ h => h.elim

@[simp] theorem known_skillReference : Known Reference.skill.schema :=
  known_reference _ (by decide)

@[simp] theorem known_mobReference : Known Reference.mob.schema :=
  known_reference _ (by decide)

@[simp] theorem known_itemReference : Known Reference.item.schema :=
  known_reference _ (by decide)

@[simp] theorem known_atLeast (minimum : Int) (integer : Bool) :
    Known (Schema.atLeast minimum integer) :=
  known_number (by simp)

@[simp] theorem known_armor : Known armor :=
  known_number ⟨fixed_const _, fixed_data fun data => some data.maxArmor, fixed_const _,
    fixed_const _, fixed_const _⟩

@[simp] theorem known_cooldown : Known ((Schema.atLeast 0).withLocalChecks [cooldownAligned]) :=
  .intro ⟨⟨_, _, .cooldown, rfl, rfl⟩, (known_atLeast 0 false).self.fields⟩ fun _ h => h.elim

@[simp] theorem known_enchantment : Known enchantment :=
  .intro ⟨⟨_, _, .enchantment, rfl, rfl⟩,
    ⟨fixed_const _, fixed_const _, fixed_const _⟩⟩ fun _ h => h.elim

@[simp] theorem known_skillList (triggers : Bool) : Known (.skillList {} triggers) :=
  .intro (.of_nothing rfl rfl ⟨fixed_const _, trivial⟩) fun t h => by
    obtain rfl : t = Schema.anyString := h
    exact known_anyString

@[simp] theorem known_listOf {s : Schema} (h : Known s) (duplicates : Bool) :
    Known (.listOf s duplicates) :=
  .intro (.of_nothing rfl rfl ⟨fixed_const _, fixed_const _, fixed_const _⟩)
    fun t ht => by
      obtain ⟨_, ht⟩ := ht
      rwa [List.mem_singleton.mp ht]

@[simp] theorem known_potionEffects : Known potionEffects :=
  .intro ⟨⟨_, _, .potion, rfl, rfl⟩, (known_listOf known_anyString true).self.fields⟩ fun t ht => by
    obtain ⟨_, ht⟩ := ht
    rw [List.mem_singleton.mp ht]
    exact known_anyString

@[simp] theorem known_anyMap : Known .anyMap :=
  .intro (.of_nothing rfl rfl
      ⟨fixed_const _, fixed_const _, fixed_const _⟩) fun t ht => by
    obtain ⟨_, rfl⟩ := ht
    exact known_anything

theorem known_object {properties : Context → List (String × Property)} (hfixed : Fixed properties)
    (h : ∀ ctx, KnownProperties (properties ctx)) : Known (.object {} properties) :=
  .intro (.of_nothing rfl rfl
      ⟨fixed_const _, hfixed, fun ctx e he => (h ctx e he).steady⟩) fun t ht => by
    obtain ⟨ctx, e, he, ctx', rfl⟩ := ht
    exact (h ctx e he).schema ctx'

@[simp] theorem known_fixedObject {properties : List (String × Property)}
    (h : KnownProperties properties) : Known (.fixedObject properties) :=
  known_object (fixed_const _) fun _ => h

/-! ## Properties -/

@[simp] theorem knownProperties_nil : KnownProperties [] := fun _ h => nomatch h

@[simp] theorem knownProperties_cons (key : String) (p : Property)
    (ps : List (String × Property)) :
    KnownProperties ((key, p) :: ps) ↔ KnownProperty p ∧ KnownProperties ps := by
  unfold KnownProperties
  rw [List.forall_mem_cons]

@[simp] theorem knownProperty_documented (s : Schema) (description : String)
    (page : Option String) (required : Bool) (aliases : Option (List String)) :
    KnownProperty (documented s description page required aliases) ↔ (Context → Known s) :=
  ⟨fun h => h.schema, fun h =>
    ⟨⟨fixed_const _, fixed_const _, fixed_const _, fixed_const _⟩, h⟩⟩

@[simp] theorem knownProperty_documentedStrings (description page : String) :
    KnownProperty (documentedStrings description page) := by
  simp [documentedStrings]

theorem knownProperties_skill : KnownProperties skillProperties := by
  simp [skillProperties]

theorem knownProperties_displayOptions (ctx : Context) : KnownProperties (displayOptions ctx) := by
  unfold displayOptions
  split
  · unfold optionsOfType
    split <;> simp [displayOption]
  · simp

theorem fixed_displayOptions : Fixed displayOptions := by
  intro ctx ctx' hctx
  unfold displayOptions
  rw [hctx.around]

theorem knownProperties_levelModifiers : KnownProperties levelModifiers := by
  intro e he
  obtain ⟨statistic, -, rfl⟩ := List.mem_map.mp he
  simp

@[simp] theorem fixedString_amongKeys (keys : List String) : FixedString (.amongKeys keys) :=
  ⟨fixed_const _, fixed_const _⟩

theorem knownProperties_mob {excludable : StringRule} (h : FixedString excludable) :
    KnownProperties (mobPropertiesWith excludable) := by
  have hd := known_object fixed_displayOptions knownProperties_displayOptions
  have hl := knownProperties_levelModifiers
  simp [mobPropertiesWith, Choice.entity, Choice.bossBarColor, Choice.bossBarStyle, healthBar,
    bossBar, mobModules, nameplate, hearing, hd, hl, h]

theorem knownProperties_item {excludable : StringRule} (h : FixedString excludable) :
    KnownProperties (itemPropertiesWith excludable) := by
  simp [itemPropertiesWith, Choice.material, Choice.hideFlag, h]

/-! ## Files -/

theorem allParts_entries {name : String} {properties : Context → List (String × Property)}
    {describe : Context → Option String} (hfixed : Fixed properties)
    (h : ∀ ctx, KnownProperties (properties ctx)) (checks : List Check) :
    Schema.AllParts Listed ((Schema.entries name properties describe).withLocalChecks checks) := by
  rintro t ⟨ctx, rfl⟩
  have hobject := known_object hfixed h
  refine .intro (.of_nothing rfl rfl ⟨fixed_const _, hobject.self.fields.2⟩) ?_
  exact fun t ht => hobject.part ht

/-- **Every schema inside of that of a kind of file brings along listed checks only, and sees no
more of its place than the game data, the pair and the top-level map around the node.** -/
theorem known_parts (kind : FileKind) : Schema.AllParts Listed kind.schema := by
  cases kind with
  | skill => exact allParts_entries (fixed_const _) (fun _ => knownProperties_skill) _
  | mob =>
    exact allParts_entries (fixed_const _) (fun _ => knownProperties_mob (by simp)) _
  | item =>
    exact allParts_entries (fixed_const _) (fun _ => knownProperties_item (by simp)) _

theorem fixed_skillDocumentation : Fixed skillDocumentation := by
  intro ctx ctx' hctx
  unfold skillDocumentation
  rw [hctx.pair]

/-- **The schema of a kind of file sees no more of its place either, but for its checks.** -/
theorem fields_file (kind : FileKind) : kind.schema.FieldsUnder Context.SamePlace := by
  cases kind with
  | skill => exact ⟨fixed_const _, fixed_const _, fixed_skillDocumentation⟩
  | mob => exact ⟨fixed_const _, fixed_const _, fixed_const _⟩
  | item => exact ⟨fixed_const _, fixed_const _, fixed_const _⟩

/-- What other documents declare belongs to no place. -/
theorem samePlace_of_sameDocument {ctx ctx' : Context}
    (h : ctx.Over Site.SameDocument ctx') : ctx.SamePlace ctx' := by
  obtain ⟨⟨registry, hsite⟩, hnode, hpair⟩ := h
  refine ⟨by rw [hsite], hpair, ?_⟩
  unfold Context.enclosingMap?
  rw [hnode, hsite]

theorem blind_of_fields {s : Schema} (h : s.FieldsUnder Context.SamePlace) :
    s.BlindTo Site.SameDocument :=
  h.blindUnder (fun _ _ => samePlace_of_sameDocument) (fun _ _ hctx => hctx.node)
    fun _ _ hctx _ _ p _ => samePlace_of_sameDocument (Context.over_ofPair hctx.site p)

theorem Listed.blind {s : Schema} (h : Listed s) : s.BlindTo Site.SameDocument :=
  blind_of_fields h.fields

/-- **The schema of a kind of file does not see what is registered, but for its checks.** -/
theorem blind_file (kind : FileKind) : kind.schema.BlindTo Site.SameDocument :=
  blind_of_fields (fields_file kind)

theorem referenceChecks_file (kind : FileKind) (ctx : Context) :
    kind.schema.info.referenceChecks ctx = [] := by
  cases kind <;> rfl

end Pack

end PackLint
