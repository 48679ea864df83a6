import PackLint.Proofs.Schema.Leaves
import PackLint.Proofs.Schema.Recognition

/-!
# What a map says, leaf by leaf

The structure of a map is checked leaf by leaf: a property is told of its repetition and of the
values at the leaves that hold it, and a leaf that holds none is a stray. So what is found depends
on the leaves alone, in any order, and on what their values are told.

Results:
* `Schema.codes_checkMap`: the codes found in a map are found at its leaves.
* `Schema.leafCodes_filter`: leaves can be looked at in two parts that share no property.
-/

namespace PackLint

open Node

namespace Schema

variable {visit : Visit} {site : Site}

/-! ## Codes of a property -/

/-- The codes for a property that some pairs hold. -/
def propertyCodes (visit : Visit) (site : Site) (e : String × Property) (held : List Pair) :
    Codes :=
  (if 1 < held.length then
    held.length • ((({.duplicateProperty} : Multiset DiagnosticCode)) : Codes) else 0) +
  (held.map fun pair => codes (findings (checkPair visit site e.1 e.2 pair))).sum

@[simp] theorem propertyCodes_nil (e : String × Property) : propertyCodes visit site e [] = 0 := rfl

theorem propertyCodes_perm (e : String × Property) {held held' : List Pair} (h : held.Perm held') :
    propertyCodes visit site e held = propertyCodes visit site e held' := by
  unfold propertyCodes
  rw [h.length_eq, (h.map _).sum_eq]

/-- A property with a dotted key is told of no absence. -/
theorem codes_checkProperty {e : String × Property} (hdot : e.1.toList.contains '.') (n : Node) :
    codes (findings (checkProperty visit site n (n.pairs?.getD []) e.1 e.2)) =
      propertyCodes visit site e (heldIn site n e) := by
  have hmissing : (missingProperty site n e.1 e.2).findings = 0 := by
    unfold missingProperty
    rw [hdot]
    rfl
  have hone : ∀ pair : Pair, codes (site.problem pair.key .duplicateProperty
      ("Duplicate property `" ++ e.1 ++ "`.")).findings =
        (({.duplicateProperty} : Multiset DiagnosticCode) : Codes) := fun _ => rfl
  rw [findings_checkProperty]
  simp only [hmissing, ite_self, zero_add]
  unfold propertyCodes heldIn
  rw [map_add, map_list_sum, List.map_map, apply_ite codes, map_zero, map_list_sum, List.map_map]
  simp only [Function.comp_def, hone]
  rw [List.map_const', List.sum_replicate]

/-! ## Leaves -/

/-- The pairs at those leaves that hold a property. -/
def heldAt (ctx : Context) (os : List Occurrence) (e : String × Property) : List Pair :=
  pairsUnder (e.2.names e.1 ctx) os

/-- The names of properties, letter by letter. -/
def nameLists (ctx : Context) (flat : List (String × Property)) : List (List Char) :=
  (propertyNames ctx flat).map String.toList

/-- The pairs of a map that hold a property are at its leaves. -/
theorem heldIn_perm_heldAt {n : Node} {ctx : Context} (hctx : ctx = .ofNode site n)
    {flat : List (String × Property)}
    (hsep : ∀ name ∈ nameLists ctx flat, ∀ other ∈ nameLists ctx flat, leadsOn name other = false)
    {e : String × Property} (he : e ∈ flat) :
    (heldIn site n e).Perm (heldAt ctx (n.leaves (nameLists ctx flat) []) e) := by
  subst hctx
  have hnames : ∀ name ∈ e.2.names e.1 (.ofNode site n),
      name.toList ∈ nameLists (.ofNode site n) flat := fun name hname =>
    List.mem_map_of_mem (List.mem_flatMap.mpr ⟨e, he, hname⟩)
  have hleaves := @placesNamed_leaves _ [] _ hnames hsep n
  rw [Occurrence.under_nil, List.map_id] at hleaves
  refine (heldIn_perm site n e).trans ?_
  unfold heldAt pairsUnder
  rw [hleaves]

/-- What is found at some leaves of a map whose flat properties are `flat`. -/
def leafCodes (visit : Visit) (site : Site) (ctx : Context) (flat : List (String × Property))
    (os : List Occurrence) : Codes :=
  (flat.map fun e => propertyCodes visit site e (heldAt ctx os e)).sum +
    (((os.map (strayCodes (nameLists ctx flat))).sum : Multiset DiagnosticCode) : Codes)

/-- **The codes found in a map are found at its leaves.** -/
theorem codes_checkMap {s : Schema} {pairs : List Pair} {start stop : Nat} {ctx : Context}
    (hctx : ctx = .ofNode site (.map pairs start stop))
    (hdot : ∀ e ∈ s.flatProperties ctx, e.1.toList.contains '.')
    (hsep : ∀ name ∈ nameLists ctx (s.flatProperties ctx),
      ∀ other ∈ nameLists ctx (s.flatProperties ctx), leadsOn name other = false) {r : Report}
    (h : s.checkMap visit site (.map pairs start stop) = .ok r) :
    (r.codes : Codes) = leafCodes visit site ctx (s.flatProperties ctx)
      ((Node.map pairs start stop).leaves (nameLists ctx (s.flatProperties ctx)) []) := by
  subst hctx
  have hcodes := congrArg codes (congrArg findings h)
  have hfound := hcodes
  rw [findings_checkMap] at hcodes
  simp only at hcodes
  rw [map_add, map_list_sum, List.map_map] at hcodes
  cases hsweep : site.sweep (nameLists (.ofNode site (.map pairs start stop))
      (s.flatProperties (.ofNode site (.map pairs start stop)))) [] (.map pairs start stop) with
  | error fault =>
    unfold nameLists at hsweep
    rw [hsweep] at hcodes
    have htop : (⊤ : Codes) = (r.codes : Codes) := (WithTop.add_top _).symm.trans hcodes
    cases htop
  | ok strays =>
    unfold leafCodes
    rw [← Site.codes_sweep hsweep]
    unfold nameLists at hsweep
    rw [hsweep] at hcodes
    refine hcodes.symm.trans (congrArg₂ _ (congrArg List.sum ?_) rfl)
    refine List.map_congr_left fun e he => ?_
    rw [Function.comp_apply]
    refine (codes_checkProperty (hdot e he) (.map pairs start stop)).trans (propertyCodes_perm e ?_)
    exact heldIn_perm_heldAt rfl hsep he

/-! ## Parts of the leaves -/

section Parts

variable {ctx : Context} {flat : List (String × Property)} {os : List Occurrence}
  {P : String → Bool}

theorem pairsUnder_filter_of_forall {names : List String} (h : ∀ name ∈ names, P name) :
    pairsUnder names (os.filter (P ·.path)) = pairsUnder names os := by
  unfold pairsUnder placesNamed
  rw [List.filter_filter]
  refine congrArg _ (List.filter_congr fun o _ => ?_)
  rw [Bool.and_eq_left_iff_imp, decide_eq_true_eq]
  exact fun hnamed => h _ hnamed.2

theorem pairsUnder_eq_nil {names : List String} (h : ∀ o ∈ os, o.path ∉ names) :
    pairsUnder names os = [] := by
  unfold pairsUnder placesNamed
  rw [List.map_eq_nil_iff, List.filter_eq_nil_iff]
  exact fun o ho hnamed => h o ho (of_decide_eq_true hnamed).2

theorem pairsUnder_filter_eq_nil {names : List String} (h : ∀ name ∈ names, P name = false) :
    pairsUnder names (os.filter (P ·.path)) = [] := by
  refine pairsUnder_eq_nil fun o ho hname => ?_
  have hpath := (List.mem_filter.mp ho).2
  rw [h _ hname] at hpath
  cases hpath

theorem sum_map_filter {α M : Type} [AddCommMonoid M] (f : α → M) (l : List α) (P : α → Bool) :
    (l.map f).sum = ((l.filter (!P ·)).map f).sum + ((l.filter P).map f).sum := by
  rw [add_comm, ← List.sum_append, ← List.map_append]
  exact ((List.filter_append_perm P l).symm.map f).sum_eq

/-- What is said of the properties can be said in two parts if each property has names of one part
only. -/
theorem sum_heldAt_filter {f : String × Property → List Pair → Codes} (hnil : ∀ e, f e [] = 0)
    (h : ∀ e ∈ flat, (∀ name ∈ e.2.names e.1 ctx, P name) ∨
      ∀ name ∈ e.2.names e.1 ctx, P name = false) :
    (flat.map fun e => f e (heldAt ctx os e)).sum =
      (flat.map fun e => f e (heldAt ctx (os.filter (!P ·.path)) e)).sum +
        (flat.map fun e => f e (heldAt ctx (os.filter (P ·.path)) e)).sum := by
  rw [← List.sum_map_add]
  refine congrArg _ (List.map_congr_left fun e he => ?_)
  unfold heldAt
  rcases h e he with hall | hnone
  · rw [pairsUnder_filter_of_forall hall,
      @pairsUnder_filter_eq_nil os (!P ·) _ fun name hname => by rw [hall name hname]; rfl,
      hnil, zero_add]
  · rw [pairsUnder_filter_eq_nil hnone,
      @pairsUnder_filter_of_forall os (!P ·) _ fun name hname => by rw [hnone name hname]; rfl,
      hnil, add_zero]

/-- **Leaves can be looked at in two parts** if each property has names of one part only. -/
theorem leafCodes_filter (h : ∀ e ∈ flat, (∀ name ∈ e.2.names e.1 ctx, P name) ∨
      ∀ name ∈ e.2.names e.1 ctx, P name = false) :
    leafCodes visit site ctx flat os =
      leafCodes visit site ctx flat (os.filter (!P ·.path)) +
        leafCodes visit site ctx flat (os.filter (P ·.path)) := by
  unfold leafCodes
  rw [sum_heldAt_filter propertyCodes_nil h, sum_map_filter _ os (P ·.path), WithTop.coe_add,
    add_add_add_comm]

end Parts

end Schema

end PackLint
