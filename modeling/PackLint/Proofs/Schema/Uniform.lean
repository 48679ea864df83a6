import PackLint.Proofs.Report.Alike
import PackLint.Proofs.Schema.Steady
import PackLint.Proofs.Tree.Copy

/-!
# Uniform schemas

The fields of a schema may depend on the context, and its checks are arbitrary. A schema is uniform
if none of this depends on where in a document a node stands: copies of a node are looked at in the
same way. A schema whose fields are constant and that brings no checks along is uniform; only skill
lists, which are read as they are written, ask that copies are literal.

Results:
* `Schema.typeName_eq`, `Schema.flatProperties_eq`: what a uniform schema says of itself is the same
  in contexts that are alike.
-/

namespace PackLint

/-! ## Contexts -/

/-- Two contexts in which copies of a node are looked at, perhaps as the values of pairs. -/
structure Context.Alike (literal : Prop) (ctx ctx' : Context) : Prop where
  site : ctx.site.Alike ctx'.site
  node : Option.Rel (Node.Copy literal ctx.site.source ctx'.site.source) ctx.node ctx'.node
  pair : Option.Rel
    (fun p p' => Option.Rel (Node.Copy literal ctx.site.source ctx'.site.source) p.value p'.value)
    ctx.pair ctx'.pair

variable {literal : Prop} {site site' : Site} {n n' : Node} {α : Type}

theorem Context.alike_ofNode (h : site.Alike site')
    (hn : n.Copy literal site.source site'.source n') :
    (Context.ofNode site n).Alike literal (.ofNode site' n') :=
  ⟨h, .some hn, .none⟩

theorem Context.alike_ofPair (h : site.Alike site') {p p' : Pair}
    (hp : Option.Rel (Node.Copy literal site.source site'.source) p.value p'.value) :
    (Context.ofPair site p).Alike literal (.ofPair site' p') :=
  ⟨h, hp, .some hp⟩

/-- A field that does not depend on where the node stands. -/
def Steady (literal : Prop) (f : Context → α) : Prop :=
  ∀ ctx ctx' : Context, ctx.Alike literal ctx' → f ctx = f ctx'

theorem steady_const (a : α) : Steady literal fun _ => a := fun _ _ _ => rfl

/-- Checks that say the same of copies of a node. -/
def UniformChecks (literal : Prop) (checks : Context → List Check) : Prop :=
  ∀ (site site' : Site) (n n' : Node), site.Alike site' →
    n.Copy literal site.source site'.source n' →
      site.SameOutcome site' (runChecks (checks (.ofNode site n)) site n)
        (runChecks (checks (.ofNode site' n')) site' n')

theorem uniformChecks_nil : UniformChecks literal fun _ => [] := fun _ _ _ _ _ _ => .ok .empty

/-! ## Schemas -/

/-- Nothing about the information of a schema depends on where the node stands. -/
structure SchemaInfo.Uniform (literal : Prop) (info : SchemaInfo) : Prop where
  name : Steady literal info.name
  localChecks : UniformChecks literal info.localChecks
  referenceChecks : UniformChecks literal info.referenceChecks

/-- Nothing about a property depends on where the node stands. -/
structure PropertyOf.Uniform (literal : Prop) (p : PropertyOf α) : Prop where
  schema : Steady literal p.schema
  required : Steady literal p.required
  description : Steady literal p.description
  aliases : Steady literal p.aliases

theorem PropertyOf.Uniform.steady {p : PropertyOf α} (h : p.Uniform literal) :
    p.SteadyUnder (Context.Alike literal) :=
  ⟨h.schema, h.required, h.description, h.aliases⟩

theorem PropertyOf.SteadyUnder.uniform {p : PropertyOf α}
    (h : p.SteadyUnder (Context.Alike literal)) : p.Uniform literal :=
  ⟨h.schema, h.required, h.description, h.aliases⟩

/-- Nothing about a rule for numbers depends on where the node stands. -/
structure NumberRule.Uniform (literal : Prop) (rule : NumberRule) : Prop where
  minimum : Steady literal rule.minimum
  maximum : Steady literal rule.maximum
  minimumInclusive : Steady literal rule.minimumInclusive
  maximumInclusive : Steady literal rule.maximumInclusive
  integer : Steady literal rule.integer

theorem NumberRule.Uniform.steady {rule : NumberRule} (h : rule.Uniform literal) :
    rule.SteadyUnder (Context.Alike literal) :=
  ⟨h.minimum, h.maximum, h.minimumInclusive, h.maximumInclusive, h.integer⟩

/-- Nothing about a rule for strings depends on where the node stands. -/
structure StringRule.Uniform (literal : Prop) (rule : StringRule) : Prop where
  matcher : Steady literal rule.matcher
  caseSensitive : Steady literal rule.caseSensitive

/-- The description of the entries of a map depends on nothing but the entry. -/
def UniformEntries (literal : Prop) (describe : Context → Option String) : Prop :=
  ∀ (site site' : Site) (p p' : Pair), site.Alike site' →
    p.Copy literal site.source site'.source p' →
      describe (.ofPair site p) = describe (.ofPair site' p')

namespace Schema

/-- Nothing about the schema itself depends on where the node stands. Skill lists are read as they
are written. -/
def Uniform (literal : Prop) (s : Schema) : Prop :=
  s.info.Uniform literal ∧
    match s with
    | number _ rule => rule.Uniform literal
    | string _ rule => rule.Uniform literal
    | list _ items allowDuplicates => Steady literal items ∧ Steady literal allowDuplicates
    | object _ properties =>
      Steady literal properties ∧ ∀ ctx, ∀ e ∈ properties ctx, e.2.Uniform literal
    | map _ value describe => Steady literal value ∧ UniformEntries literal describe
    | skillList _ _ => literal
    | _ => True

variable {s : Schema} {ctx ctx' : Context}

/-! ## Contexts that are alike -/

/-- The entries of a map have the same descriptions in copies of its pairs. -/
theorem entryProperties_eq {value : Schema} {describe : Context → Option String}
    (hsite : site.Alike site') (hdescribe : UniformEntries literal describe)
    {pairs pairs' : List Pair}
    (h : List.Forall₂ (KeyValue.Copy literal site.source site'.source) pairs pairs') :
    entryProperties value describe site pairs = entryProperties value describe site' pairs' := by
  refine List.rel_foldl (P := Eq) (fun entries _ hentries p p' hp => ?_) rfl h
  subst hentries
  rw [hp.keyText_eq, hdescribe site site' p p' hsite hp]

/-- A uniform schema does not tell contexts apart that are alike. -/
theorem Uniform.steady (h : s.Uniform literal) : s.SteadyUnder (Context.Alike literal) := by
  obtain ⟨hinfo, hs⟩ := h
  refine ⟨hinfo.name, ?_⟩
  cases s with
  | number info rule => exact hs.steady
  | string info rule => exact ⟨hs.matcher, hs.caseSensitive⟩
  | list info items allowDuplicates => exact hs
  | object info properties => exact ⟨hs.1, fun ctx e he => (hs.2 ctx e he).steady⟩
  | map info value describe =>
    refine ⟨hs.1, fun ctx ctx' hctx => ?_⟩
    simp only [properties]
    rw [hs.1 ctx ctx' hctx]
    have hnode := hctx.node
    generalize ctx.node = n, ctx'.node = n' at hnode
    cases hnode with
    | none => rfl
    | some hn =>
      cases hn with
      | map _ _ _ _ hpairs => exact entryProperties_eq hctx.site hs.2 hpairs
      | _ => rfl
  | _ => trivial

theorem uniform_of_mem_flatProperties (h : All (Uniform literal) s) {e : String × Property}
    (he : e ∈ s.flatProperties ctx) : e.2.Uniform literal :=
  have hs := h.imp fun _ => Uniform.steady
  (steady_of_mem_flatProperties hs.self hs.allParts he).uniform

/-- **A uniform schema has the same name in contexts that are alike.** -/
theorem typeName_eq (h : All (Uniform literal) s) (hctx : ctx.Alike literal ctx') :
    s.typeName ctx = s.typeName ctx' :=
  typeName_steady (h.imp fun _ => Uniform.steady) hctx

/-- **A uniform schema has the same flat properties in contexts that are alike.** -/
theorem flatProperties_eq (h : All (Uniform literal) s) (hctx : ctx.Alike literal ctx') :
    s.flatProperties ctx = s.flatProperties ctx' :=
  have hs := h.imp fun _ => Uniform.steady
  flatProperties_steady hs.self hs.allParts hctx

end Schema

end PackLint
