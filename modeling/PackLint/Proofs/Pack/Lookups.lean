import PackLint.Proofs.Pack.Blind

/-!
# What a file is looked up in

The options of a display entity and the check of potion effects look for the top-level map around a
node by its offsets in the whole document. Nothing else in the schemas of files looks at the
document beside the node itself. So a node is checked alike in two documents if each node within it
is found in the same top-level map.

Results:
* `Pack.check_of_lookups`: the local check of a file depends on the document by these lookups only.
-/

namespace PackLint

/-- The node is found in the same top-level map in both trees. -/
def Node.FoundAlike (tree tree' : Option Node) (n : Node) : Prop :=
  ∀ site : Site, (Context.ofNode { site with tree } n).enclosingMap? =
    (Context.ofNode { site with tree := tree' } n).enclosingMap?

namespace Pack

variable {kind : FileKind} {site : Site} {tree tree' : Option Node} {V : Node → Prop} {s : Schema}
  (hfound : ∀ n, V n → n.FoundAlike tree tree')

theorem check_among (name : String) (names : GameData → List String) (site : Site)
    (tree tree' : Option Node) (n : Node) :
    (Choice.among name names).check { site with tree } n =
      (Choice.among name names).check { site with tree := tree' } n := by
  refine Schema.check_alike ⟨rfl, rfl⟩ Node.downClosed_true (.intro ⟨⟨⟨sameUnder_const _, ?_,
    sameUnder_const _⟩, trivial⟩, fun _ _ => rfl⟩ fun _ h => h.elim) trivial
  intro ctx ctx' hctx
  simp only
  rw [hctx.left, hctx.right]

theorem enchantmentEntry_tree (site : Site) (tree tree' : Option Node) (n : Node) :
    enchantmentEntry { site with tree } n = enchantmentEntry { site with tree := tree' } n := by
  unfold enchantmentEntry
  split
  · split
    · exact check_among _ _ _ _ _ _
    · rfl
  · rfl

include hfound

theorem samePlace_of_found {ctx ctx' : Context}
    (h : Context.AtSites V { site with tree } { site with tree := tree' } ctx ctx') :
    ctx.SamePlace ctx' := by
  obtain ⟨hleft, hright, hnode, hpair, hmem⟩ := h
  refine ⟨by rw [hleft, hright], hpair, ?_⟩
  cases hn : ctx.node with
  | none =>
    unfold Context.enclosingMap?
    rw [← hnode, hn]
    rfl
  | some n =>
    have := hfound n (hmem n hn) site
    unfold Context.enclosingMap? at this ⊢
    rw [← hnode, hn, hleft, hright]
    exact this

theorem potionMaterial_found {n : Node} (hn : V n) :
    potionMaterial { site with tree } n = potionMaterial { site with tree := tree' } n := by
  unfold potionMaterial
  rw [hfound n hn site]
  rfl

variable (hV : Node.DownClosed V)

include hV

theorem blindUnder_of_fields (h : s.FieldsUnder Context.SamePlace) :
    s.BlindUnder (Context.AtSites V { site with tree } { site with tree := tree' }) := by
  refine h.blindUnder (fun _ _ => samePlace_of_found hfound) (fun _ _ hctx => hctx.node) ?_
  intro ctx ctx' hctx pairs hpairs p hp
  have hvalue : ∀ n ∈ p.value, V n := by
    obtain ⟨n, hn, hpairs⟩ := Option.bind_eq_some_iff.mp hpairs
    cases n with
    | map ps start stop =>
      cases hpairs
      exact hV.value (hctx.mem _ hn) p hp
    | _ => cases hpairs
  rw [hctx.left, hctx.right]
  exact samePlace_of_found hfound (Context.atSites_ofPair hvalue)

theorem Listed.looksAlike (h : Listed s) :
    s.LooksAlike V { site with tree } { site with tree := tree' } := by
  refine ⟨blindUnder_of_fields hfound hV h.fields, fun n hn => ?_⟩
  obtain ⟨checks, references, hb, hchecks, -⟩ := h.brings
  rw [hchecks]
  cases hb with
  | potion =>
    rw [runChecks_cons, runChecks_cons, potionMaterial_found hfound hn]
    rfl
  | enchantment =>
    rw [runChecks_cons, runChecks_cons, enchantmentEntry_tree site tree tree']
    rfl
  | _ => rfl

/-- **The local check of a file depends on the document by these lookups only.** -/
theorem check_of_lookups {n : Node} (hn : V n) :
    kind.schema.check { site with tree } n = kind.schema.check { site with tree := tree' } n := by
  refine Schema.check_of_parts ⟨rfl, rfl⟩ hV (blindUnder_of_fields hfound hV (fields_file kind))
    (fun t ht => (known_parts kind t ht).imp fun _ ht => ht.looksAlike hfound hV) hn ?_
  rw [localChecks_file, localChecks_file]
  cases kind <;> rfl

end Pack

end PackLint
