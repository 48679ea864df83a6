import PackLint.Proofs.Schema.Parts
import PackLint.Schema.Check
import Mathlib.Data.List.Basic

/-!
# Schemas that say the same in related contexts

The fields of a schema may depend on the context in which they are asked for. `SameUnder A` says of
a field that it does not tell contexts apart that `A` relates, and `Schema.SteadyUnder A` says so of
all fields that a schema describes itself by. The relation may let a node move in a document, or
change what other documents declare.

Results:
* `Schema.typeName_steady`: a steady schema has the same name in related contexts.
* `Schema.flatProperties_steady`: it has the same flat properties there.
-/

namespace PackLint

variable {A : Context → Context → Prop} {α : Type}

/-- A field that does not tell related contexts apart. -/
def SameUnder (A : Context → Context → Prop) (f : Context → α) : Prop :=
  ∀ ctx ctx' : Context, A ctx ctx' → f ctx = f ctx'

theorem sameUnder_const (a : α) : SameUnder A fun _ => a := fun _ _ _ => rfl

/-- Suggestions depend on nothing but the settings. -/
theorem Site.suggestion?_congr {site site' : Site} (h : site.settings = site'.settings)
    (text : String) (candidates : List String) :
    site.suggestion? text candidates = site'.suggestion? text candidates := by
  rw [Site.suggestion?, Site.suggestion?, h]

/-- A rule that two contexts agree about misses the same of a text in both. -/
theorem mismatch?_congr {rule : StringRule} {info : SchemaInfo} (ctx ctx' : Context)
    (hsettings : ctx.site.settings = ctx'.site.settings)
    (hmatcher : rule.matcher ctx = rule.matcher ctx')
    (hcase : rule.caseSensitive ctx = rule.caseSensitive ctx')
    (hname : info.name ctx = info.name ctx') (text : String) :
    rule.mismatch? info ctx text = rule.mismatch? info ctx' text := by
  have hshown : info.display ctx (rule.description ctx) =
      info.display ctx' (rule.description ctx') := by
    unfold SchemaInfo.display StringRule.description
    rw [hname, hmatcher]
  have hsuggestion : ∀ caseSensitive options,
      StringRule.suggestion? ctx.site caseSensitive options text =
        StringRule.suggestion? ctx'.site caseSensitive options text := by
    intro caseSensitive options
    unfold StringRule.suggestion?
    simp only [Site.suggestion?_congr hsettings]
  unfold StringRule.mismatch?
  simp only [hshown, hsuggestion]
  rw [hmatcher, hcase]

/-- No field of a property tells related contexts apart. -/
structure PropertyOf.SteadyUnder (A : Context → Context → Prop) (p : PropertyOf α) : Prop where
  schema : SameUnder A p.schema
  required : SameUnder A p.required
  description : SameUnder A p.description
  aliases : SameUnder A p.aliases

/-- No field of a rule for numbers tells related contexts apart. -/
structure NumberRule.SteadyUnder (A : Context → Context → Prop) (rule : NumberRule) : Prop where
  minimum : SameUnder A rule.minimum
  maximum : SameUnder A rule.maximum
  minimumInclusive : SameUnder A rule.minimumInclusive
  maximumInclusive : SameUnder A rule.maximumInclusive
  integer : SameUnder A rule.integer

/-- No field of a rule for strings tells related contexts apart. -/
structure StringRule.SteadyUnder (A : Context → Context → Prop) (rule : StringRule) : Prop where
  matcher : SameUnder A rule.matcher
  caseSensitive : SameUnder A rule.caseSensitive

section Mono

variable {B : Context → Context → Prop} (hAB : ∀ ctx ctx', A ctx ctx' → B ctx ctx')

include hAB

theorem SameUnder.mono {f : Context → α} (h : SameUnder B f) : SameUnder A f :=
  fun ctx ctx' hctx => h ctx ctx' (hAB ctx ctx' hctx)

theorem PropertyOf.SteadyUnder.mono {p : PropertyOf α} (h : p.SteadyUnder B) : p.SteadyUnder A :=
  ⟨h.schema.mono hAB, h.required.mono hAB, h.description.mono hAB, h.aliases.mono hAB⟩

theorem NumberRule.SteadyUnder.mono {rule : NumberRule} (h : rule.SteadyUnder B) :
    rule.SteadyUnder A :=
  ⟨h.minimum.mono hAB, h.maximum.mono hAB, h.minimumInclusive.mono hAB,
    h.maximumInclusive.mono hAB, h.integer.mono hAB⟩

theorem StringRule.SteadyUnder.mono {rule : StringRule} (h : rule.SteadyUnder B) :
    rule.SteadyUnder A :=
  ⟨h.matcher.mono hAB, h.caseSensitive.mono hAB⟩

end Mono

namespace Schema

/-- No field by which the schema describes itself tells related contexts apart. The checks that it
brings along may do so. -/
def SteadyUnder (A : Context → Context → Prop) (s : Schema) : Prop :=
  SameUnder A s.info.name ∧
    match s with
    | number _ rule => rule.SteadyUnder A
    | string _ rule => rule.SteadyUnder A
    | list _ items allowDuplicates => SameUnder A items ∧ SameUnder A allowDuplicates
    | object _ properties =>
      SameUnder A properties ∧ ∀ ctx, ∀ e ∈ properties ctx, e.2.SteadyUnder A
    | map info value describe =>
      SameUnder A value ∧ SameUnder A fun ctx => (map info value describe).properties ctx
    | _ => True

/-- No field of an object, or of a property of one, tells related contexts apart. -/
def ObjectSteady (A : Context → Context → Prop) (s : Schema) : Prop :=
  match s with
  | object _ properties => SameUnder A properties ∧ ∀ ctx, ∀ e ∈ properties ctx, e.2.SteadyUnder A
  | _ => True

variable {s : Schema} {ctx ctx' : Context}

theorem SteadyUnder.objectSteady (h : s.SteadyUnder A) : s.ObjectSteady A := by
  cases s with
  | object info properties => exact h.2
  | _ => trivial

theorem SteadyUnder.mono {B : Context → Context → Prop}
    (hAB : ∀ ctx ctx', A ctx ctx' → B ctx ctx') (h : s.SteadyUnder B) : s.SteadyUnder A := by
  obtain ⟨hname, h⟩ := h
  refine ⟨hname.mono hAB, ?_⟩
  cases s with
  | number info rule => exact h.mono hAB
  | string info rule => exact h.mono hAB
  | list info items allowDuplicates => exact ⟨h.1.mono hAB, h.2.mono hAB⟩
  | object info properties => exact ⟨h.1.mono hAB, fun ctx e he => (h.2 ctx e he).mono hAB⟩
  | map info value describe => exact ⟨h.1.mono hAB, h.2.mono hAB⟩
  | _ => trivial

/-! ## Descriptions -/

theorem display_steady {info : SchemaInfo} (hname : SameUnder A info.name) (hctx : A ctx ctx')
    (description : String) : info.display ctx description = info.display ctx' description := by
  unfold SchemaInfo.display
  rw [hname ctx ctx' hctx]

theorem bounds_steady {rule : NumberRule} (hrule : rule.SteadyUnder A) (hctx : A ctx ctx') :
    rule.lower? ctx = rule.lower? ctx' ∧ rule.upper? ctx = rule.upper? ctx' := by
  unfold NumberRule.lower? NumberRule.upper?
  rw [hrule.minimum ctx ctx' hctx, hrule.maximum ctx ctx' hctx,
    hrule.minimumInclusive ctx ctx' hctx, hrule.maximumInclusive ctx ctx' hctx]
  exact ⟨rfl, rfl⟩

theorem numberDescription_steady {rule : NumberRule} (hrule : rule.SteadyUnder A)
    (hctx : A ctx ctx') : rule.description ctx = rule.description ctx' := by
  obtain ⟨hlower, hupper⟩ := bounds_steady hrule hctx
  unfold NumberRule.description
  rw [hlower, hupper, hrule.integer ctx ctx' hctx]

theorem violation?_steady {rule : NumberRule} (hrule : rule.SteadyUnder A) (hctx : A ctx ctx')
    (x : Number) : rule.violation? ctx x = rule.violation? ctx' x := by
  obtain ⟨hlower, hupper⟩ := bounds_steady hrule hctx
  unfold NumberRule.violation? NumberRule.belowMinimum? NumberRule.aboveMaximum?
  rw [hlower, hupper, hrule.integer ctx ctx' hctx]

theorem stringDescription_steady {rule : StringRule} (hrule : rule.SteadyUnder A)
    (hctx : A ctx ctx') : rule.description ctx = rule.description ctx' := by
  unfold StringRule.description
  rw [hrule.matcher ctx ctx' hctx]

theorem itemsDescription_eq {rule : ItemsOf Schema}
    (h : ∀ t ∈ rule.schemas, t.typeName ctx = t.typeName ctx') :
    itemsDescription ctx rule = itemsDescription ctx' rule := by
  have hnames : ∀ ss : List Schema, (∀ t ∈ ss, t.typeName ctx = t.typeName ctx') →
      typeNames ctx ss = typeNames ctx' ss := by
    intro ss
    induction ss with
    | nil => exact fun _ => rfl
    | cons t ss ih =>
      intro h
      simp only [typeNames]
      rw [h t List.mem_cons_self, ih fun u hu => h u (List.mem_cons_of_mem t hu)]
  cases rule with
  | anything => rfl
  | each t =>
    simp only [itemsDescription]
    rw [h t (List.mem_singleton_self t)]
  | inOrder ss =>
    simp only [itemsDescription]
    rw [hnames ss h]

theorem propertyTypeName_eq (ctx : Context) (p : Property) :
    propertyTypeName ctx p = (p.schema ctx).typeName ctx := by
  cases p
  rfl

theorem propertyDescriptions_steady {ps : List (String × Property)} (hctx : A ctx ctx')
    (hps : ∀ e ∈ ps, e.2.SteadyUnder A)
    (h : ∀ e ∈ ps, (e.2.schema ctx).typeName ctx = (e.2.schema ctx).typeName ctx') :
    propertyDescriptions ctx ps = propertyDescriptions ctx' ps := by
  induction ps with
  | nil => rfl
  | cons e ps ih =>
    have hname : propertyTypeName ctx e.2 = propertyTypeName ctx' e.2 := by
      rw [propertyTypeName_eq, propertyTypeName_eq, h e List.mem_cons_self,
        (hps e List.mem_cons_self).schema ctx ctx' hctx]
    simp only [propertyDescriptions]
    rw [hname, ih (fun e he => hps e (List.mem_cons_of_mem _ he))
      fun e he => h e (List.mem_cons_of_mem _ he)]

/-- **A steady schema has the same name in related contexts.** -/
theorem typeName_steady (h : All (SteadyUnder A) s) (hctx : A ctx ctx') :
    s.typeName ctx = s.typeName ctx' := by
  induction h with
  | @intro s self _ ih =>
    obtain ⟨hname, hs⟩ := self
    cases s with
    | anything info => exact display_steady hname hctx _
    | bool info => exact display_steady hname hctx _
    | skillList info triggers => exact display_steady hname hctx _
    | number info rule =>
      simp only [typeName]
      rw [numberDescription_steady hs hctx]
      exact display_steady hname hctx _
    | string info rule =>
      simp only [typeName]
      rw [stringDescription_steady hs hctx]
      exact display_steady hname hctx _
    | list info items allowDuplicates =>
      simp only [typeName]
      rw [hs.1 ctx ctx' hctx, itemsDescription_eq fun t ht => ih t ⟨ctx', ht⟩]
      exact display_steady hname hctx _
    | object info properties =>
      simp only [typeName]
      rw [hs.1 ctx ctx' hctx, propertyDescriptions_steady hctx (hs.2 ctx')
        fun e he => ih _ ⟨ctx', e, he, ctx, rfl⟩]
      exact display_steady hname hctx _
    | map info value describe =>
      simp only [typeName]
      rw [hs.1 ctx ctx' hctx, ih _ ⟨ctx', rfl⟩]
      exact display_steady hname hctx _

/-! ## Properties -/

theorem names_eq {p : Property} (h : p.aliases ctx = p.aliases ctx') (key : String) :
    p.names key ctx = p.names key ctx' := by
  unfold PropertyOf.names PropertyOf.aliasList
  rw [h]

theorem propertyNames_eq {ps : List (String × Property)}
    (h : ∀ e ∈ ps, e.2.aliases ctx = e.2.aliases ctx') :
    propertyNames ctx ps = propertyNames ctx' ps :=
  List.flatMap_congr fun e he => names_eq (h e he) e.1

theorem hoverText_steady {p : Property} (hp : p.SteadyUnder A) (hs : All (SteadyUnder A) s)
    (hctx : A ctx ctx') (key : String) : hoverText key p s ctx = hoverText key p s ctx' := by
  unfold hoverText PropertyOf.aliasList
  rw [hp.description ctx ctx' hctx, hp.aliases ctx ctx' hctx, typeName_steady hs hctx]

theorem propertyNested_eq (ctx : Context) (p : Property) :
    propertyNested ctx p = nestedProperties ctx (p.schema ctx) := by
  cases p
  rfl

/-- Properties that two contexts agree about are flattened alike if their nested ones are. -/
theorem flatten_eq {ps : List (String × Property)}
    (hschema : ∀ e ∈ ps, e.2.schema ctx = e.2.schema ctx')
    (haliases : ∀ e ∈ ps, e.2.aliases ctx = e.2.aliases ctx')
    (hnested : ∀ e ∈ ps,
      nestedProperties ctx (e.2.schema ctx) = nestedProperties ctx' (e.2.schema ctx) ∧
        ∀ c ∈ nestedProperties ctx (e.2.schema ctx), c.2.aliases ctx = c.2.aliases ctx') :
    NestedProperties.flatten ctx (withNested ctx ps) =
      NestedProperties.flatten ctx' (withNested ctx' ps) := by
  have hwith : withNested ctx ps = withNested ctx' ps := by
    clear haliases
    induction ps with
    | nil => rfl
    | cons e ps ih =>
      have hinner : propertyNested ctx e.2 = propertyNested ctx' e.2 := by
        rw [propertyNested_eq, propertyNested_eq, (hnested e List.mem_cons_self).1,
          hschema e List.mem_cons_self]
      simp only [withNested]
      rw [hinner, ih (fun e he => hschema e (List.mem_cons_of_mem _ he))
        fun e he => hnested e (List.mem_cons_of_mem _ he)]
  unfold NestedProperties.flatten NestedProperties.dotted
  rw [← hwith]
  congr 1
  refine List.flatMap_congr fun e he => ?_
  obtain ⟨key, p, children⟩ := e
  obtain ⟨hp, rfl⟩ := mem_withNested he
  simp only [PropertyOf.aliasList]
  rw [haliases (key, p) hp]
  refine List.map_congr_left fun c hc => ?_
  simp only [PropertyOf.below, PropertyOf.aliasList]
  rw [(hnested (key, p) hp).2 c hc]

theorem steady_below {p : Property} (hp : p.SteadyUnder A) (key : String) (ctx : Context)
    (outer : List String) : (p.below key ctx outer).SteadyUnder A :=
  ⟨hp.schema, hp.required, hp.description, sameUnder_const _⟩

/-- What is nested in steady objects is steady. -/
theorem ObjectSteady.of_mem_nestedProperties (h : All (ObjectSteady A) s) {e : String × Property}
    (he : e ∈ nestedProperties ctx s) : e.2.SteadyUnder A := by
  induction h generalizing e with
  | @intro s self _ ih =>
    cases s with
    | object info properties =>
      simp only [nestedProperties] at he
      rcases mem_flatten_withNested he with he | ⟨key, p, hp, c, hc, rfl⟩
      · exact self.2 ctx e he
      · exact steady_below (ih _ ⟨ctx, (key, p), hp, ctx, rfl⟩ hc) _ _ _
    | _ => simp [nestedProperties] at he

/-- Steady objects have the same nested properties in related contexts. -/
theorem ObjectSteady.nestedProperties_eq (h : All (ObjectSteady A) s) (hctx : A ctx ctx') :
    nestedProperties ctx s = nestedProperties ctx' s := by
  induction h with
  | @intro s self parts ih =>
    cases s with
    | object info properties =>
      obtain ⟨hsame, hsteady⟩ := self
      simp only [nestedProperties]
      rw [← hsame ctx ctx' hctx]
      refine flatten_eq (fun e he => (hsteady ctx e he).schema ctx ctx' hctx)
        (fun e he => (hsteady ctx e he).aliases ctx ctx' hctx) fun e he => ⟨?_, fun c hc => ?_⟩
      · exact ih _ ⟨ctx, e, he, ctx, rfl⟩
      · have hpart := parts _ ⟨ctx, e, he, ctx, rfl⟩
        exact (ObjectSteady.of_mem_nestedProperties hpart hc).aliases ctx ctx' hctx
    | _ => simp only [nestedProperties]

theorem steady_of_mem_nestedProperties (h : All (SteadyUnder A) s) {e : String × Property}
    (he : e ∈ nestedProperties ctx s) : e.2.SteadyUnder A :=
  ObjectSteady.of_mem_nestedProperties (h.imp fun _ => SteadyUnder.objectSteady) he

theorem nestedProperties_steady (h : All (SteadyUnder A) s) (hctx : A ctx ctx') :
    nestedProperties ctx s = nestedProperties ctx' s :=
  ObjectSteady.nestedProperties_eq (h.imp fun _ => SteadyUnder.objectSteady) hctx

theorem properties_steady (h : s.SteadyUnder A) (hctx : A ctx ctx') :
    s.properties ctx = s.properties ctx' := by
  cases s with
  | object info properties => exact h.2.1 ctx ctx' hctx
  | map info value describe => exact h.2.2 ctx ctx' hctx
  | _ => rfl

/-- The entries of a map do not depend on the context once they are there. -/
theorem steady_of_mem_entryProperties {value : Schema} {describe : Context → Option String}
    {site : Site} {pairs : List Pair} :
    ∀ e ∈ entryProperties value describe site pairs, e.2.SteadyUnder A := by
  intro e he
  obtain ⟨p, -, rfl⟩ := exists_of_mem_entryProperties e he
  exact ⟨sameUnder_const _, sameUnder_const _, sameUnder_const _, sameUnder_const _⟩

theorem steady_of_mem_properties (h : s.SteadyUnder A) {e : String × Property}
    (he : e ∈ s.properties ctx) : e.2.SteadyUnder A := by
  cases s with
  | object info properties => exact h.2.2 ctx e he
  | map info value describe =>
    simp only [properties] at he
    split at he
    · exact steady_of_mem_entryProperties e he
    · cases he
  | _ => cases he

theorem steady_of_mem_flatProperties (hself : s.SteadyUnder A)
    (hparts : AllParts (SteadyUnder A) s) {e : String × Property}
    (he : e ∈ s.flatProperties ctx) : e.2.SteadyUnder A := by
  rcases mem_flatten_withNested he with he | ⟨key, p, hp, c, hc, rfl⟩
  · exact steady_of_mem_properties hself he
  · have hpart := hparts _ (part_of_mem_properties hp ctx)
    exact steady_below (steady_of_mem_nestedProperties hpart hc) _ _ _

/-- **A steady schema has the same flat properties in related contexts.** -/
theorem flatProperties_steady (hself : s.SteadyUnder A) (hparts : AllParts (SteadyUnder A) s)
    (hctx : A ctx ctx') : s.flatProperties ctx = s.flatProperties ctx' := by
  unfold flatProperties
  rw [← properties_steady hself hctx]
  refine flatten_eq (fun e he => (steady_of_mem_properties hself he).schema ctx ctx' hctx)
    (fun e he => (steady_of_mem_properties hself he).aliases ctx ctx' hctx)
    fun e he => ⟨?_, fun c hc => ?_⟩
  · exact nestedProperties_steady (hparts _ (part_of_mem_properties he ctx)) hctx
  · have hpart := hparts _ (part_of_mem_properties he ctx)
    exact (steady_of_mem_nestedProperties hpart hc).aliases ctx ctx' hctx

end Schema

end PackLint
