import PackLint.Proofs.Schema.Keyed
import PackLint.Proofs.Schema.Uniform

/-!
# Static properties

The properties of an object are static if they are the same in all contexts, and those of the
nested objects likewise. A path of names leads through the nested objects to a property:
`Schema.Leads` says so without flattening anything.

Results:
* `Schema.Static.keyed`: a static object is keyed.
* `Schema.mem_names_iff`: the names of a flattened property are the dotted paths that lead to it.
* `Schema.exists_of_leads`: every path leads to a flattened property.
-/

namespace PackLint

/-- A property that is the same in all contexts. -/
structure PropertyOf.Static {α : Type} (p : PropertyOf α) : Prop where
  schema : ∀ ctx ctx', p.schema ctx = p.schema ctx'
  required : ∀ ctx ctx', p.required ctx = p.required ctx'
  description : ∀ ctx ctx', p.description ctx = p.description ctx'
  aliases : ∀ ctx ctx', p.aliases ctx = p.aliases ctx'

theorem PropertyOf.Static.uniform {α : Type} {literal : Prop} {p : PropertyOf α} (h : p.Static) :
    p.Uniform literal :=
  ⟨fun ctx ctx' _ => h.schema ctx ctx', fun ctx ctx' _ => h.required ctx ctx',
    fun ctx ctx' _ => h.description ctx ctx', fun ctx ctx' _ => h.aliases ctx ctx'⟩

namespace Schema

/-- The properties of an object and of the objects nested in it are static. Their keys differ, and
their names have no dots. -/
inductive Static : Schema → Prop
  | other {s : Schema} (h : s.isObject = false) : Static s
  | object {info : SchemaInfo} {properties : Context → List (String × Property)}
      {ps : List (String × Property)} (hps : ∀ ctx, properties ctx = ps)
      (hkeys : (ps.map Prod.fst).Nodup) (hstatic : ∀ e ∈ ps, e.2.Static)
      (hnames : ∀ e ∈ ps, ∀ ctx, ∀ w ∈ e.1 :: e.2.aliasList ctx, DotFree w)
      (hnested : ∀ e ∈ ps, ∀ ctx, Static (e.2.schema ctx)) : Static (object info properties)

/-- A path of names, each the key of a property or an alias of it, leads through nested objects to a
property that has no nested ones. The keys on the way are the key of the property among the flat
ones. -/
inductive Leads (ctx : Context) : Schema → List String → String → Prop
  | property {s : Schema} {key : String} {p : Property} {w : String}
      (hp : (key, p) ∈ s.ownProperties ctx) (hw : w ∈ key :: p.aliasList ctx)
      (hleaf : (p.schema ctx).ownProperties ctx = []) : Leads ctx s [w] key
  | nested {s : Schema} {key : String} {p : Property} {w : String} {ws : List String}
      {subkey : String} (hp : (key, p) ∈ s.ownProperties ctx) (hw : w ∈ key :: p.aliasList ctx)
      (h : Leads ctx (p.schema ctx) ws subkey) : Leads ctx s (w :: ws) (key ++ "." ++ subkey)

variable {s : Schema} {ctx ctx' : Context}

/-! ## Static objects -/

theorem Static.keyed (h : Static s) (ctx : Context) : Keyed ctx s := by
  induction h with
  | other h => exact .other h
  | object hps hkeys _ hnames _ ih =>
    refine .object ?_ (fun e he => ?_) fun e he => ?_
    · rw [hps]
      exact hkeys
    · exact hnames e (hps ctx ▸ he) ctx e.1 List.mem_cons_self
    · exact ih e (hps ctx ▸ he) ctx

theorem Static.property (h : Static s) {e : String × Property} (he : e ∈ s.ownProperties ctx) :
    e.2.Static := by
  cases h with
  | other h =>
    rw [ownProperties_of_not_isObject h] at he
    cases he
  | object hps _ hstatic _ _ =>
    rw [ownProperties, hps] at he
    exact hstatic e he

theorem Static.dotFree (h : Static s) {e : String × Property} (he : e ∈ s.ownProperties ctx)
    {w : String} (hw : w ∈ e.1 :: e.2.aliasList ctx) : DotFree w := by
  cases h with
  | other h =>
    rw [ownProperties_of_not_isObject h] at he
    cases he
  | object hps _ _ hnames _ =>
    rw [ownProperties, hps] at he
    exact hnames e he ctx w hw

theorem Static.nested (h : Static s) {e : String × Property} (he : e ∈ s.ownProperties ctx) :
    Static (e.2.schema ctx) := by
  cases h with
  | other h =>
    rw [ownProperties_of_not_isObject h] at he
    cases he
  | object hps _ _ _ hnested =>
    rw [ownProperties, hps] at he
    exact hnested e he ctx

/-! ## Paths -/

theorem Leads.ne_nil {ws : List String} {key : String} (h : Leads ctx s ws key) : ws ≠ [] := by
  cases h <;> exact List.cons_ne_nil _ _

theorem Leads.dotFree {ws : List String} {key : String} (hs : Static s) (h : Leads ctx s ws key) :
    ∀ w ∈ ws, DotFree w := by
  induction h with
  | property hp hw _ => exact List.forall_mem_singleton.mpr (hs.dotFree hp hw)
  | nested hp hw _ ih => exact List.forall_mem_cons.mpr ⟨hs.dotFree hp hw, ih (hs.nested hp)⟩

/-- All paths to a property have as many segments as its key has. -/
theorem Leads.length_eq {ws : List String} {key : String} (hs : Static s)
    (h : Leads ctx s ws key) : ws.length = key.toList.count '.' + 1 := by
  induction h with
  | property hp _ _ =>
    rw [List.count_eq_zero.mpr (hs.dotFree hp List.mem_cons_self)]
    rfl
  | nested hp _ _ ih =>
    rw [List.length_cons, ih (hs.nested hp), String.toList_append, String.toList_append,
      List.count_append, List.count_append,
      List.count_eq_zero.mpr (hs.dotFree hp List.mem_cons_self)]
    simp only [Nat.zero_add, show ".".toList = ['.'] from rfl, List.count_singleton_self]
    omega

/-- **The names of a flattened property are the dotted paths that lead to it.** -/
theorem mem_names_iff (hs : Keyed ctx s) {e : String × Property} (he : e ∈ nestedProperties ctx s)
    (n : String) : n ∈ e.2.names e.1 ctx ↔ ∃ ws, Leads ctx s ws e.1 ∧ n = dotted ws := by
  induction hs generalizing e n with
  | @other s h =>
    rw [nestedProperties_eq_flatten, ownProperties_of_not_isObject h] at he
    cases he
  | @object info properties hkeys hfree hnested ih =>
    have hs : Keyed ctx (.object info properties) := .object hkeys hfree hnested
    rcases hs.mem_nestedProperties.mp he with ⟨hown, hleaf⟩ | ⟨key, p, hp, c, hc, rfl⟩
    · rw [mem_names]
      have hnil := nestedProperties_eq_nil.mp hleaf
      constructor
      · exact fun hn => ⟨[n], .property hown hn hnil, rfl⟩
      · rintro ⟨ws, hleads, rfl⟩
        obtain ⟨key, p⟩ := e
        generalize hkey : (key, p).1 = key' at hleads
        cases hleads with
        | property hq hw _ =>
          subst hkey
          rw [hs.property_unique hown hq]
          exact hw
        | @nested _ key' _ _ _ sub hq _ _ =>
          simp only at hkey
          exact absurd (hkey ▸ hs.dotFree hown) (not_dotFree_append _ _)
    · rw [mem_names_below]
      constructor
      · rintro ⟨o, ho, i, hi, rfl⟩
        obtain ⟨ws, hleads, rfl⟩ := (ih (key, p) hp hc i).mp hi
        exact ⟨o :: ws, .nested hp ho hleads, (dotted_cons o hleads.ne_nil).symm⟩
      · rintro ⟨ws, hleads, rfl⟩
        generalize hkey : key ++ "." ++ c.1 = key' at hleads
        cases hleads with
        | property hq _ _ => exact absurd (hkey ▸ hs.dotFree hq) (not_dotFree_append _ _)
        | @nested _ key' q w ws sub hq hw h =>
          obtain ⟨rfl, rfl⟩ := eq_of_append_dot (hs.dotFree hp) (hs.dotFree hq) hkey
          obtain rfl := hs.property_unique hp hq
          refine ⟨w, hw, dotted ws, (ih (key, p) hp hc _).mpr ⟨ws, h, rfl⟩, ?_⟩
          exact dotted_cons w h.ne_nil

/-- **Every path leads to a flattened property.** -/
theorem exists_of_leads (hs : Keyed ctx s) {ws : List String} {key : String}
    (h : Leads ctx s ws key) : ∃ p, (key, p) ∈ nestedProperties ctx s := by
  induction h with
  | @property s key p w hp hw hleaf =>
    exact ⟨p, hs.mem_nestedProperties.mpr (Or.inl ⟨hp, nestedProperties_eq_nil.mpr hleaf⟩)⟩
  | @nested s key p w ws subkey hp hw h ih =>
    obtain ⟨c, hc⟩ := ih (hs.nested hp)
    exact ⟨_, hs.mem_nestedProperties.mpr (Or.inr ⟨key, p, hp, (subkey, c), hc, rfl⟩)⟩

/-! ## Contexts -/

theorem static_below {p : Property} (hp : p.Static) (key : String) (outer : List String) :
    (p.below key ctx outer).Static :=
  ⟨hp.schema, hp.required, hp.description, fun _ _ => rfl⟩

theorem static_of_mem_nestedProperties (hs : Static s) {e : String × Property}
    (he : e ∈ nestedProperties ctx s) : e.2.Static := by
  induction hs generalizing e with
  | @other s h =>
    rw [nestedProperties_eq_flatten, ownProperties_of_not_isObject h] at he
    cases he
  | @object info properties ps hps hkeys hstatic hnames hnested ih =>
    simp only [nestedProperties, hps] at he
    rcases mem_flatten_withNested he with he | ⟨key, p, hp, c, hc, rfl⟩
    · exact hstatic e he
    · exact static_below (ih (key, p) hp ctx hc) _ _

/-- The flat properties of a static object are the same in all contexts. -/
theorem nestedProperties_eq_of_static (hs : Static s) (ctx ctx' : Context) :
    nestedProperties ctx s = nestedProperties ctx' s := by
  induction hs with
  | @other s h =>
    rw [nestedProperties_eq_flatten, nestedProperties_eq_flatten, ownProperties_of_not_isObject h,
      ownProperties_of_not_isObject h]
    rfl
  | @object info properties ps hps hkeys hstatic hnames hnested ih =>
    simp only [nestedProperties, hps]
    refine flatten_eq (fun e he => (hstatic e he).schema ctx ctx')
      (fun e he => (hstatic e he).aliases ctx ctx') fun e he => ⟨ih e he ctx, fun c hc => ?_⟩
    exact (static_of_mem_nestedProperties (hnested e he ctx) hc).aliases ctx ctx'

end Schema

end PackLint
