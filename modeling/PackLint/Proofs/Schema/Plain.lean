import PackLint.Proofs.Schema.Aside

/-!
# Plain schemas

A schema is plain if it is uniform, and if the properties of all objects inside of it are the same
in all contexts and have names of their own. So plain schemas have everything that is asked of the
properties of entries, and it is enough to look at each schema by itself.

Results:
* `Schema.Plain.static`, `Schema.Plain.tidy`: plain schemas are static and tidy.
* `Schema.UniformBut.of_plain`: an object is uniform but for one property if the others are plain.
-/

namespace PackLint

namespace Schema

variable {s : Schema} {ctx ctx' : Context} {ps : List (String × Property)}

/-- The names of the properties have no dots, and no two properties share one. -/
structure NamesTidy (ctx : Context) (ps : List (String × Property)) : Prop where
  dotFree : ∀ e ∈ ps, ∀ w ∈ e.2.names e.1 ctx, DotFree w
  apart : ps.Pairwise fun e e' => ∀ w ∈ e.2.names e.1 ctx, w ∉ e'.2.names e'.1 ctx

instance (ctx : Context) (ps : List (String × Property)) : Decidable (NamesTidy ctx ps) :=
  decidable_of_iff
    ((∀ e ∈ ps, ∀ w ∈ e.2.names e.1 ctx, DotFree w) ∧
      ps.Pairwise fun e e' => ∀ w ∈ e.2.names e.1 ctx, w ∉ e'.2.names e'.1 ctx)
    ⟨fun h => ⟨h.1, h.2⟩, fun h => ⟨h.dotFree, h.apart⟩⟩

theorem names_static {e : String × Property} (h : e.2.Static) (ctx ctx' : Context) :
    e.2.names e.1 ctx = e.2.names e.1 ctx' :=
  names_eq (h.aliases ctx ctx') e.1

theorem NamesTidy.of_static (hstatic : ∀ e ∈ ps, e.2.Static) (h : NamesTidy ctx ps)
    (ctx' : Context) : NamesTidy ctx' ps where
  dotFree e he w hw := h.dotFree e he w (names_static (hstatic e he) ctx' ctx ▸ hw)
  apart := by
    refine h.apart.imp_of_mem fun {e e'} he he' hdisjoint => ?_
    rw [names_static (hstatic e he) ctx' ctx, names_static (hstatic e' he') ctx' ctx]
    exact hdisjoint

theorem NamesTidy.nodup_keys (h : NamesTidy ctx ps) : (ps.map Prod.fst).Nodup := by
  refine List.pairwise_map.mpr (h.apart.imp fun {e e'} hdisjoint heq => ?_)
  exact hdisjoint e.1 (key_mem_names e.1 e.2 ctx) (heq ▸ key_mem_names e'.1 e'.2 ctx)

theorem NamesTidy.filter (h : NamesTidy ctx ps) (P : String × Property → Bool) :
    NamesTidy ctx (ps.filter P) :=
  ⟨fun e he => h.dotFree e (List.mem_of_mem_filter he), h.apart.filter _⟩

/-- Nothing about the schema itself depends on where a node stands, and if it is an object, its
properties are the same in all contexts and have names of their own. -/
def PlainSelf (s : Schema) : Prop :=
  s.Uniform True ∧
    match s with
    | object _ properties => ∃ ps, properties = (fun _ => ps) ∧ (∀ e ∈ ps, e.2.Static) ∧
        ∃ ctx, NamesTidy ctx ps
    | _ => True

/-- The schema and all schemas inside of it are plain. -/
abbrev Plain (s : Schema) : Prop := All PlainSelf s

theorem Plain.uniform (h : Plain s) : All (Uniform True) s := h.imp fun _ h => h.1

/-- **Plain schemas are static.** -/
theorem Plain.static (h : Plain s) : Static s := by
  induction h with
  | @intro s self _ ih =>
    cases s with
    | object info properties =>
      obtain ⟨-, ps, rfl, hstatic, ctx, hnames⟩ := self
      exact .object (fun _ => rfl) hnames.nodup_keys hstatic
        (fun e he ctx' w hw => (hnames.of_static hstatic ctx').dotFree e he w (mem_names.mpr hw))
        fun e he ctx' => ih _ ⟨ctx, e, he, ctx', rfl⟩
    | _ => exact .other rfl

/-- **Plain schemas are tidy.** -/
theorem Plain.tidy (h : Plain s) (ctx : Context) : Tidy ctx s := by
  induction h with
  | @intro s self _ ih =>
    cases s with
    | object info properties =>
      obtain ⟨-, ps, rfl, hstatic, ctx', hnames⟩ := self
      have hnames := hnames.of_static hstatic ctx
      exact .object hnames.dotFree hnames.apart fun e he => ih _ ⟨ctx, e, he, ctx, rfl⟩
    | _ => exact .other rfl

/-! ## Objects -/

/-- The schema of the property is plain, and the same in all contexts. -/
structure PlainProperty (p : Property) : Prop where
  static : p.Static
  schema (ctx : Context) : Plain (p.schema ctx)

theorem plain_object {info : SchemaInfo} (hinfo : info.Uniform True)
    (hps : ∀ e ∈ ps, PlainProperty e.2) (hnames : NamesTidy ctx ps) :
    Plain (.object info fun _ => ps) := by
  refine .intro ⟨⟨hinfo, steady_const _, fun _ e he => (hps e he).static.uniform⟩, ps, rfl,
    fun e he => (hps e he).static, ctx, hnames⟩ ?_
  rintro t ⟨_, e, he, ctx', rfl⟩
  exact (hps e he).schema ctx'

/-- **An object is uniform but for the property that is set aside if the others are plain.** -/
theorem UniformBut.of_plain {key : Option String} {info : SchemaInfo} (hinfo : info.Uniform True)
    (hstatic : ∀ e ∈ ps, e.2.Static)
    (hplain : ∀ e ∈ ps, some e.1 ≠ key → ∀ ctx, Plain (e.2.schema ctx))
    (htidy : ∀ e ∈ ps, some e.1 = key → ∀ ctx, Tidy ctx (e.2.schema ctx))
    (hnames : NamesTidy ctx ps)
    (halone : ∀ e ∈ ps, ∀ w ∈ e.2.names e.1 ctx, some w = key ↔ some e.1 = key)
    {e : String × Property} (he : e ∈ ps) (hkey : some e.1 ≠ key) : UniformBut key info ps := by
  have hrest : Plain (restOf key info ps) := by
    refine plain_object hinfo (fun e he => ?_) (hnames.filter _)
    obtain ⟨he, hkey⟩ := List.mem_filter.mp he
    exact ⟨hstatic e he, hplain e he (of_decide_eq_true hkey)⟩
  refine ⟨fun ctx => ?_, fun e he ctx' w hw => ?_, hrest.static, hrest.uniform, fun ctx => ?_⟩
  · have hnames := hnames.of_static hstatic ctx
    refine .object hnames.dotFree hnames.apart fun e he => ?_
    by_cases hkey : some e.1 = key
    · exact htidy e he hkey ctx
    · exact (hplain e he hkey ctx).tidy ctx
  · exact halone e he w (names_static (hstatic e he) ctx' ctx ▸ hw)
  · exact nestedProperties_ne_nil (List.mem_filter.mpr ⟨he, decide_eq_true hkey⟩)

end Schema

end PackLint
