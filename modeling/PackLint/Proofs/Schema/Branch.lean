import PackLint.Proofs.Schema.Spelling

/-!
# Branches

The properties of an object and of the objects nested in it form a tree. A branch of it is a
property of the object, behind it one of the object that this property nests, and so on, down to a
property without nested ones. Flattening (`submapped`) makes one property of each branch:
`Flattened` says which key, names and content it has, in terms of the properties on the branch
alone.

Results:
* `Schema.leads_iff`: a path leads to a property iff it names the properties on a branch.
* `Schema.flatProperties_branches`: the flat properties of a keyed object are its branches, each
  flattened.
-/

namespace PackLint

namespace Schema

/-- A branch of the properties of an object, from its own down to one without nested properties. -/
inductive Branch (ctx : Context) : Schema → List (String × Property) → Prop
  | leaf {s : Schema} {e : String × Property} (he : e ∈ s.ownProperties ctx)
      (hleaf : (e.2.schema ctx).ownProperties ctx = []) : Branch ctx s [e]
  | down {s : Schema} {e : String × Property} {es : List (String × Property)}
      (he : e ∈ s.ownProperties ctx) (h : Branch ctx (e.2.schema ctx) es) : Branch ctx s (e :: es)

/-- The keys on a branch, joined by dots. -/
def branchKey (es : List (String × Property)) : String := dotted (es.map Prod.fst)

/-- The path takes the key or an alias of each property on a branch. -/
def Names (ctx : Context) (ws : List String) (es : List (String × Property)) : Prop :=
  List.Forall₂ (fun w e => w ∈ e.1 :: e.2.aliasList ctx) ws es

/-- The property has the content of the last one on a branch. -/
def EndsIn (es : List (String × Property)) (p : Property) : Prop :=
  ∃ e ∈ es.getLast?, p.schema = e.2.schema ∧ p.required = e.2.required ∧
    p.description = e.2.description

/-- The flat property `e` of a branch has the keys on it as its key, and as its names all ways to
name the properties on it. Its content is that of the last property. -/
structure Flattened (ctx : Context) (es : List (String × Property)) (e : String × Property) :
    Prop where
  key : e.1 = branchKey es
  names : ∀ n, n ∈ e.2.names e.1 ctx ↔ ∃ ws, Names ctx ws es ∧ n = dotted ws
  content : EndsIn es e.2

variable {ctx : Context} {s : Schema} {es es' : List (String × Property)}

namespace Branch

theorem ne_nil (h : Branch ctx s es) : es ≠ [] := by
  cases h <;> exact List.cons_ne_nil _ _

theorem key_cons (e : String × Property) (h : Branch ctx s es) :
    branchKey (e :: es) = e.1 ++ "." ++ branchKey es :=
  dotted_cons e.1 fun hnil => h.ne_nil (List.map_eq_nil_iff.mp hnil)

theorem dotFree (hs : Keyed ctx s) (h : Branch ctx s es) :
    ∀ key ∈ es.map Prod.fst, DotFree key := by
  induction h with
  | leaf he _ => exact List.forall_mem_singleton.mpr (hs.dotFree he)
  | down he _ ih => exact List.forall_mem_cons.mpr ⟨hs.dotFree he, ih (hs.nested he)⟩

/-- The keys on a branch determine it, wherever it ends: a property with nested ones ends none. -/
theorem eq_of_keys (hs : Keyed ctx s) (h : Branch ctx s es) (h' : Branch ctx s es')
    (heq : es.map Prod.fst = es'.map Prod.fst) : es = es' := by
  induction h generalizing es' with
  | @leaf s e he _ =>
    cases h' with
    | @leaf _ e' he' _ =>
      exact congrArg (· :: []) (List.inj_on_of_nodup_map hs.nodup_keys he he' (List.cons.inj heq).1)
    | @down _ e' rest he' hrest =>
      exact absurd (List.map_eq_nil_iff.mp (List.cons.inj heq).2.symm) hrest.ne_nil
  | @down s e rest he hrest ih =>
    cases h' with
    | leaf he' _ => exact absurd (List.map_eq_nil_iff.mp (List.cons.inj heq).2) hrest.ne_nil
    | @down _ e' rest' he' hrest' =>
      obtain rfl := List.inj_on_of_nodup_map hs.nodup_keys he he' (List.cons.inj heq).1
      exact congrArg (e :: ·) (ih (hs.nested he) hrest' (List.cons.inj heq).2)

/-- No two branches have the same key. -/
theorem eq_of_branchKey (hs : Keyed ctx s) (h : Branch ctx s es) (h' : Branch ctx s es')
    (heq : branchKey es = branchKey es') : es = es' :=
  h.eq_of_keys hs h' (dotted_injective (h.dotFree hs) (h'.dotFree hs)
    (fun hnil => h.ne_nil (List.map_eq_nil_iff.mp hnil))
    (fun hnil => h'.ne_nil (List.map_eq_nil_iff.mp hnil)) heq)

theorem names_keys (es : List (String × Property)) : Names ctx (es.map Prod.fst) es :=
  List.forall₂_map_left_iff.mpr (List.forall₂_same.mpr fun _ _ => List.mem_cons_self)

end Branch

/-! ## Paths -/

/-- **A path leads to a property iff it names the properties on a branch.** -/
theorem leads_iff {ws : List String} {key : String} :
    Leads ctx s ws key ↔ ∃ es, Branch ctx s es ∧ Names ctx ws es ∧ key = branchKey es := by
  constructor
  · intro h
    induction h with
    | @property s key p w hp hw hleaf =>
      exact ⟨[(key, p)], .leaf hp hleaf, .cons hw .nil, rfl⟩
    | @nested s key p w ws subkey hp hw h ih =>
      obtain ⟨es, hbranch, hnames, rfl⟩ := ih
      exact ⟨(key, p) :: es, .down hp hbranch, .cons hw hnames, (hbranch.key_cons (key, p)).symm⟩
  · rintro ⟨es, hbranch, hnames, rfl⟩
    induction hbranch generalizing ws with
    | leaf he hleaf =>
      obtain ⟨w, rest, hw, hrest, rfl⟩ := List.forall₂_cons_right_iff.mp hnames
      rw [List.forall₂_nil_right_iff.mp hrest]
      exact .property he hw hleaf
    | @down s e es he h ih =>
      obtain ⟨w, rest, hw, hrest, rfl⟩ := List.forall₂_cons_right_iff.mp hnames
      rw [h.key_cons e]
      exact .nested he hw (ih hrest)

/-! ## Flat properties -/

/-- A flat property comes from a branch, and its content from the last property on it. -/
theorem exists_branch (hs : Keyed ctx s) {e : String × Property} (he : e ∈ nestedProperties ctx s) :
    ∃ es, Branch ctx s es ∧ e.1 = branchKey es ∧ EndsIn es e.2 := by
  induction hs generalizing e with
  | other h =>
    rw [nestedProperties_eq_flatten, ownProperties_of_not_isObject h] at he
    cases he
  | @object info properties hkeys hfree hnested ih =>
    have hs : Keyed ctx (.object info properties) := .object hkeys hfree hnested
    rcases hs.mem_nestedProperties.mp he with ⟨hown, hleaf⟩ | ⟨key, p, hp, c, hc, rfl⟩
    · exact ⟨[e], .leaf hown (nestedProperties_eq_nil.mp hleaf), rfl, e, rfl, rfl, rfl, rfl⟩
    · obtain ⟨es, hbranch, hkey, leaf, hlast, hcontent⟩ := ih (key, p) hp hc
      refine ⟨(key, p) :: es, .down hp hbranch, ?_, leaf, ?_, hcontent⟩
      · rw [hbranch.key_cons (key, p), ← hkey]
      · rw [List.getLast?_cons_of_ne_nil hbranch.ne_nil]
        exact hlast

/-- **A flat property is a branch, flattened.** -/
theorem exists_flattened (hs : Keyed ctx s) {e : String × Property}
    (he : e ∈ nestedProperties ctx s) : ∃ es, Branch ctx s es ∧ Flattened ctx es e := by
  obtain ⟨es, hbranch, hkey, hcontent⟩ := exists_branch hs he
  refine ⟨es, hbranch, hkey, fun n => ?_, hcontent⟩
  rw [mem_names_iff hs he]
  constructor
  · rintro ⟨ws, hleads, rfl⟩
    obtain ⟨es', hbranch', hnames, hkey'⟩ := leads_iff.mp hleads
    obtain rfl := hbranch'.eq_of_branchKey hs hbranch (hkey'.symm.trans hkey)
    exact ⟨ws, hnames, rfl⟩
  · rintro ⟨ws, hnames, rfl⟩
    exact ⟨ws, leads_iff.mpr ⟨es, hbranch, hnames, hkey⟩, rfl⟩

/-- No branch is lost. -/
theorem Branch.exists_flat (hs : Keyed ctx s) (h : Branch ctx s es) :
    ∃ e ∈ nestedProperties ctx s, Flattened ctx es e := by
  obtain ⟨p, hp⟩ := exists_of_leads hs (leads_iff.mpr ⟨es, h, Branch.names_keys es, rfl⟩)
  obtain ⟨es', hbranch, hflat⟩ := exists_flattened hs hp
  obtain rfl := h.eq_of_branchKey hs hbranch hflat.key
  exact ⟨_, hp, hflat⟩

/-- **The flat properties of a keyed object are its branches, each flattened once.** -/
theorem flatProperties_branches (hs : Keyed ctx s) (hobject : s.isObject) :
    ((s.flatProperties ctx).map Prod.fst).Nodup ∧
      (∀ e ∈ s.flatProperties ctx, ∃! es, Branch ctx s es ∧ Flattened ctx es e) ∧
      ∀ es, Branch ctx s es → ∃! e, e ∈ s.flatProperties ctx ∧ Flattened ctx es e := by
  rw [flatProperties_of_isObject hobject]
  have hnodup := hs.nodup_keys_nestedProperties
  refine ⟨hnodup, fun e he => ?_, fun es hbranch => ?_⟩
  · obtain ⟨es, hbranch, hflat⟩ := exists_flattened hs he
    refine ⟨es, ⟨hbranch, hflat⟩, fun es' h' => ?_⟩
    exact h'.1.eq_of_branchKey hs hbranch (h'.2.key.symm.trans hflat.key)
  · obtain ⟨e, he, hflat⟩ := hbranch.exists_flat hs
    refine ⟨e, ⟨he, hflat⟩, fun e' h' => ?_⟩
    exact List.inj_on_of_nodup_map hnodup h'.1 he (h'.2.key.trans hflat.key.symm)

/-- `A`, or `X`, with `B`, or `Y`, which nests `C`, or `old.C`, and the object `D` without
properties; and beside `A` a number `E`. -/
def deepSample : Schema :=
  .object {} fun _ =>
    [("A", {
        schema := fun _ => .object {} fun _ =>
          [("B", {
            schema := fun _ => .object {} fun _ =>
              [("C", {
                  schema := fun _ => anyString
                  required := fun _ => true
                  description := fun _ => some "The innermost one."
                  aliases := fun _ => some ["old.C"] }),
                ("D", { schema := fun _ => .object {} fun _ => [] })]
            aliases := fun _ => some ["Y"] })]
        aliases := fun _ => some ["X"] }),
      ("E", { schema := fun _ => .number {} {} })]

/-- A place in an empty document. -/
def sampleContext : Context := ⟨sampleSite "", none, none⟩

theorem keyed_deepSample (ctx : Context) : Keyed ctx deepSample := by
  refine .object (by decide) (by decide) (List.forall_mem_cons.mpr ⟨?_, ?_⟩)
  · refine .object (by decide) (by decide) (List.forall_mem_singleton.mpr ?_)
    refine .object (by decide) (by decide) (List.forall_mem_cons.mpr ⟨.other rfl, ?_⟩)
    exact List.forall_mem_singleton.mpr (.object .nil nofun nofun)
  · exact List.forall_mem_singleton.mpr (.other rfl)

/-- The branches to `E`, `C` and `D`, with all ways to name them. -/
theorem branches_deepSample :
    Keyed sampleContext deepSample ∧ deepSample.isObject ∧
      (deepSample.flatProperties sampleContext).map (fun e => (e.1, e.2.names e.1 sampleContext)) =
        [("E", ["E"]),
          ("A.B.C", ["A.B.C", "A.B.old.C", "A.Y.old.C", "A.Y.C", "X.B.old.C", "X.B.C", "X.Y.old.C",
            "X.Y.C"]),
          ("A.B.D", ["A.B.D", "A.Y.D", "X.B.D", "X.Y.D"])] ∧
      (∀ e ∈ deepSample.flatProperties sampleContext,
        ∃! es, Branch sampleContext deepSample es ∧ Flattened sampleContext es e) ∧
      ∀ es, Branch sampleContext deepSample es →
        ∃! e, e ∈ deepSample.flatProperties sampleContext ∧ Flattened sampleContext es e := by
  have hbranches := flatProperties_branches (keyed_deepSample sampleContext) rfl
  exact ⟨keyed_deepSample sampleContext, rfl, by decide, hbranches.2⟩

end Schema

end PackLint
