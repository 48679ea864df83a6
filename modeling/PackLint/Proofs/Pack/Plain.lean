import PackLint.Proofs.Pack.Entrywise
import PackLint.Proofs.Schema.Plain

/-!
# Properties of entries that are plain

Nothing about the properties of skills, mobs and items depends on where in a file an entry stands,
but for one property of mobs and one of items. The options of a display entity depend on the type
of the mob, and the potion effects of an item on its id, which are looked up in the map around them.

Results:
* `Pack.plain_entryProperties`: the other properties are plain.
* `Pack.uniformBut_entry`: so an entry is uniform but for the property that looks around.
-/

namespace PackLint

namespace Pack

open Schema

/-- The property of the entries of a file that looks at the map around it. -/
def lookingAround : FileKind → Option String
  | .skill => none
  | .mob => some "DisplayOptions"
  | .item => some "PotionEffects"

/-! ## Checks -/

variable {literal : Prop} {s : Schema}

theorem uniformChecks_one {c : Check} (h : ∀ (site site' : Site) (n n' : Node), site.Alike site' →
    n.Copy literal site.source site'.source n' → site.SameOutcome site' (c site n) (c site' n')) :
    UniformChecks literal fun _ => [c] := by
  intro site site' n n' hsite hn
  rw [runChecks_cons, runChecks_cons]
  exact Site.SameOutcome.append (h site site' n n' hsite hn) (.ok .empty)

theorem uniformChecks_cooldown : UniformChecks True fun _ => [cooldownAligned] := by
  refine uniformChecks_one fun site site' n n' hsite hn => ?_
  cases hn with
  | @scalar s s' h =>
    obtain ⟨value, text, start, stop, style⟩ := s
    obtain ⟨value', text', start', stop', style'⟩ := s'
    obtain rfl : value = value' := h.value
    cases value with
    | number x =>
      simp only [cooldownAligned]
      rw [hsite.data]
      split
      · exact .error _
      · split
        · exact .error _
        · exact .ok .empty
        · exact .ok (alike_problem _ _ _ _)
    | _ => exact .ok .empty
  | _ => exact .ok .empty

theorem steady_data {α : Type} (f : GameData → α) : Steady literal fun ctx => f ctx.site.data :=
  fun _ _ hctx => congrArg f hctx.site.data

theorem uniform_string {info : SchemaInfo} {rule : StringRule} (hinfo : info.Uniform literal)
    (hrule : rule.Uniform literal) : All (Uniform literal) (.string info rule) :=
  .intro ⟨hinfo, hrule⟩ fun _ h => h.elim

theorem uniform_nothing {info : SchemaInfo} (hname : Steady literal info.name)
    (hlocal : info.localChecks = fun _ => []) (hreferences : info.referenceChecks = fun _ => []) :
    info.Uniform literal :=
  ⟨hname, hlocal ▸ uniformChecks_nil, hreferences ▸ uniformChecks_nil⟩

theorem uniform_among (name : String) (names : GameData → List String) :
    All (Uniform literal) (Choice.among name names) := by
  refine uniform_string (uniform_nothing (steady_const _) rfl rfl) ⟨?_, steady_const _⟩
  exact steady_data fun data => some (StringMatcher.options ((names data).map fun n =>
    ⟨n, some { label := n, kind := .enumMember }⟩))

/-- The name of an enchantment is looked up wherever it stands. -/
theorem uniformChecks_enchantment : UniformChecks True fun _ => [enchantmentEntry] := by
  refine uniformChecks_one fun site site' n n' hsite hn => ?_
  cases hn with
  | @scalar s s' h =>
    obtain ⟨value, text, start, stop, style⟩ := s
    obtain ⟨value', text', start', stop', style'⟩ := s'
    obtain rfl : value = value' := h.value
    cases value with
    | str text =>
      have hchoice : All (Uniform False) Choice.enchantment := uniform_among _ _
      exact alike_check hchoice hsite (.scalar ⟨rfl, rfl, False.elim⟩)
    | _ => exact .ok .empty
  | _ => exact .ok .empty

/-! ## Schemas -/

theorem plain_other (hobject : s.isObject = false) (huniform : s.Uniform True)
    (hparts : AllParts PlainSelf s) : Plain s := by
  refine .intro ⟨huniform, ?_⟩ hparts
  cases s with
  | object => cases hobject
  | _ => trivial

theorem uniform_noInfo : SchemaInfo.Uniform True {} := uniform_nothing (steady_const _) rfl rfl

@[simp] theorem plain_bool : Plain (.bool {}) :=
  plain_other rfl ⟨uniform_noInfo, trivial⟩ fun _ h => h.elim

@[simp] theorem plain_anything : Plain (.anything {}) :=
  plain_other rfl ⟨uniform_noInfo, trivial⟩ fun _ h => h.elim

theorem plain_number {info : SchemaInfo} {rule : NumberRule} (hinfo : info.Uniform True)
    (hrule : rule.Uniform True) : Plain (.number info rule) :=
  plain_other rfl ⟨hinfo, hrule⟩ fun _ h => h.elim

@[simp] theorem plain_anyNumber (integer : Bool) :
    Plain (.number {} { integer := fun _ => integer }) :=
  plain_number uniform_noInfo
    ⟨steady_const _, steady_const _, steady_const _, steady_const _, steady_const _⟩

theorem plain_atLeast {info : SchemaInfo} (hinfo : info.Uniform True) (minimum : Int)
    (integer : Bool) : Plain (.number info
      { minimum := fun _ => some (.int minimum), integer := fun _ => integer }) :=
  plain_number hinfo
    ⟨steady_const _, steady_const _, steady_const _, steady_const _, steady_const _⟩

@[simp] theorem plain_atLeast_noInfo (minimum : Int) (integer : Bool) :
    Plain (Schema.atLeast minimum integer) :=
  plain_atLeast uniform_noInfo minimum integer

@[simp] theorem plain_armor : Plain armor :=
  plain_number uniform_noInfo ⟨steady_const _, steady_data fun data => some data.maxArmor,
    steady_const _, steady_const _, steady_const _⟩

@[simp] theorem plain_cooldown : Plain ((Schema.atLeast 0).withLocalChecks [cooldownAligned]) :=
  plain_atLeast ⟨steady_const _, uniformChecks_cooldown, uniformChecks_nil⟩ 0 false

theorem plain_string {info : SchemaInfo} {rule : StringRule} (hinfo : info.Uniform True)
    (hrule : rule.Uniform True) : Plain (.string info rule) :=
  plain_other rfl ⟨hinfo, hrule⟩ fun _ h => h.elim

@[simp] theorem plain_anyString : Plain .anyString :=
  plain_string uniform_noInfo ⟨steady_const _, steady_const _⟩

@[simp] theorem plain_amongKeys (keys : List String) : Plain (.string {} (.amongKeys keys)) :=
  plain_string uniform_noInfo ⟨steady_const _, steady_const _⟩

@[simp] theorem plain_among (name : String) (names : GameData → List String) :
    Plain (Choice.among name names) :=
  plain_other rfl (uniform_among name names).self fun _ h => h.elim

@[simp] theorem plain_reference (ref : Reference) : Plain ref.schema :=
  plain_other rfl ref.uniform_schema.self fun _ h => h.elim

@[simp] theorem plain_enchantment : Plain enchantment :=
  plain_string ⟨steady_const _, uniformChecks_enchantment, uniformChecks_nil⟩
    ⟨steady_const _, steady_const _⟩

@[simp] theorem plain_skillList (triggers : Bool) : Plain (.skillList {} triggers) :=
  plain_other rfl ⟨uniform_noInfo, trivial⟩ fun t ht => by
    obtain rfl : t = Schema.anyString := ht
    exact plain_anyString

@[simp] theorem plain_listOf (h : Plain s) (duplicates : Bool) : Plain (.listOf s duplicates) :=
  plain_other rfl ⟨uniform_noInfo, steady_const _, steady_const _⟩ fun t ht => by
    obtain ⟨_, ht⟩ := ht
    rwa [List.mem_singleton.mp ht]

@[simp] theorem plain_anyMap : Plain .anyMap :=
  plain_other rfl ⟨uniform_noInfo, steady_const _, fun _ _ _ _ _ _ => rfl⟩ fun t ht => by
    obtain ⟨_, rfl⟩ := ht
    exact plain_anything

/-! ## Properties -/

@[simp] theorem static_documented (s : Schema) (description : String) (page : Option String)
    (required : Bool) (aliases : Option (List String)) :
    (documented s description page required aliases).Static :=
  ⟨fun _ _ => rfl, fun _ _ => rfl, fun _ _ => rfl, fun _ _ => rfl⟩

@[simp] theorem schema_documented (s : Schema) (description : String) (page : Option String)
    (required : Bool) (aliases : Option (List String)) (ctx : Context) :
    (documented s description page required aliases).schema ctx = s := rfl

@[simp] theorem plainProperty_documented (s : Schema) (description : String)
    (page : Option String) (required : Bool) (aliases : Option (List String)) :
    PlainProperty (documented s description page required aliases) ↔ (Context → Plain s) :=
  ⟨fun h => h.schema, fun h => ⟨static_documented s description page required aliases, h⟩⟩

@[simp] theorem plainProperty_documentedStrings (description page : String) :
    PlainProperty (documentedStrings description page) := by
  simp [documentedStrings]

/-- Somewhere; the names of the properties of entries are the same everywhere. -/
def somewhere : Context where
  site := { settings := {}, data := {}, registry := [], uri := "", source := .ofString "",
            tree := none }
  node := none
  pair := none

theorem plain_fixedObject {ps : List (String × Property)} (hps : ∀ e ∈ ps, PlainProperty e.2)
    (hnames : NamesTidy somewhere ps) : Plain (.fixedObject ps) :=
  plain_object uniform_noInfo hps hnames

@[simp] theorem plain_healthBar : Plain (.fixedObject healthBar) :=
  plain_fixedObject (by simp [healthBar]) (by decide)

@[simp] theorem plain_bossBar : Plain (.fixedObject bossBar) :=
  plain_fixedObject (by simp [bossBar, Choice.bossBarColor, Choice.bossBarStyle])
    (by decide)

@[simp] theorem plain_mobModules : Plain (.fixedObject mobModules) :=
  plain_fixedObject (by simp [mobModules]) (by decide)

@[simp] theorem plain_nameplate : Plain (.fixedObject nameplate) :=
  plain_fixedObject (by simp [nameplate]) (by decide)

@[simp] theorem plain_hearing : Plain (.fixedObject hearing) :=
  plain_fixedObject (by simp [hearing]) (by decide)

@[simp] theorem plain_levelModifiers : Plain (.fixedObject levelModifiers) :=
  plain_fixedObject (by simp [levelModifiers]) (by decide)

/-! ## Entries -/

theorem static_entryProperties (kind : FileKind) : ∀ e ∈ entryProperties kind, e.2.Static := by
  cases kind <;>
    simp [entryProperties, skillProperties, mobProperties, mobPropertiesWith, itemProperties,
      itemPropertiesWith, documentedStrings]

/-- **The properties that do not look around are plain.** -/
theorem plain_entryProperties (kind : FileKind) : ∀ e ∈ entryProperties kind,
    some e.1 ≠ lookingAround kind → PlainProperty e.2 := by
  cases kind with
  | skill => simp [entryProperties, skillProperties]
  | mob =>
    simp [entryProperties, mobProperties, mobPropertiesWith, Choice.entity, lookingAround]
  | item =>
    simp [entryProperties, itemProperties, itemPropertiesWith, Choice.material, Choice.hideFlag,
      lookingAround]

/-- A display entity has one option at most. -/
theorem displayOptions_eq (ctx : Context) : displayOptions ctx = [] ∨
    ∃ key description, DotFree key ∧ displayOptions ctx = displayOption key description := by
  unfold displayOptions
  split
  · unfold optionsOfType
    split
    · exact .inr ⟨"Block", _, by decide, rfl⟩
    · exact .inr ⟨"Item", _, by decide, rfl⟩
    · exact .inr ⟨"Text", _, by decide, rfl⟩
    · exact .inl rfl
  · exact .inl rfl

theorem tidy_displayOptions (ctx : Context) : Tidy ctx (.object {} displayOptions) := by
  rcases displayOptions_eq ctx with hnone | ⟨key, description, hkey, hone⟩
  · refine .object ?_ ?_ ?_ <;> simp [hnone]
  · refine .object ?_ ?_ ?_ <;> rw [hone]
    · refine List.forall_mem_singleton.mpr fun w hw => ?_
      rcases List.mem_cons.mp (mem_names.mp hw) with rfl | hw
      · exact hkey
      · cases hw
    · exact List.pairwise_singleton _ _
    · exact List.forall_mem_singleton.mpr (.other rfl)

theorem tidy_lookingAround (kind : FileKind) : ∀ e ∈ entryProperties kind,
    some e.1 = lookingAround kind → ∀ ctx, Tidy ctx (e.2.schema ctx) := by
  have hpotion : ∀ ctx, Tidy ctx potionEffects := fun _ => .other rfl
  cases kind <;>
    simp [entryProperties, mobProperties, mobPropertiesWith, itemProperties, itemPropertiesWith,
      lookingAround, tidy_displayOptions, hpotion]

/-- **An entry is uniform but for the property that looks around.** -/
theorem uniformBut_entry (kind : FileKind) {info : SchemaInfo} (hinfo : info.Uniform True) :
    UniformBut (lookingAround kind) info (entryProperties kind) := by
  have hplain := plain_entryProperties kind
  have hnames : NamesTidy somewhere (entryProperties kind) ∧ ∀ e ∈ entryProperties kind,
      ∀ w ∈ e.2.names e.1 somewhere,
        some w = lookingAround kind ↔ some e.1 = lookingAround kind := by
    cases kind <;> decide
  have hfirst : ∃ e ∈ entryProperties kind, some e.1 ≠ lookingAround kind := by
    cases kind <;> exact ⟨_, List.mem_cons_self, by decide⟩
  obtain ⟨e, he, hkey⟩ := hfirst
  exact .of_plain hinfo (static_entryProperties kind) (fun e he hkey => (hplain e he hkey).schema)
    (tidy_lookingAround kind) hnames.1 hnames.2 he hkey

end Pack

end PackLint
