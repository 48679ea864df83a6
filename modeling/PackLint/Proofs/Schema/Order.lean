import PackLint.Proofs.Schema.Blind
import Mathlib.Data.List.Find
import Mathlib.Data.List.Nodup

/-!
# Registered components in another order

A reference looks a component up by its id, which is registered once. So the order in which the
components have been registered matters to two things only: among options that are equally close the
suggestion is one of the first, and the proposals come in the order of the components.

Results:
* `Report.congruence_sameUpToOrder`: merging keeps reports the same up to order.
* `Reference.sameUpToOrder_report`: so are the reports on a reference, whatever the order of the
  components.
-/

namespace PackLint

/-! ## Reports -/

/-- The same problem at the same place. The messages may end in different suggestions. -/
structure Diagnostic.SameButSuggestion (d d' : Diagnostic) : Prop where
  range : d.range = d'.range
  code : d.code = d'.code
  severity : d.severity = d'.severity
  message : ∃ text suggestion suggestion', d.message = text ++ suggestionText suggestion ∧
    d'.message = text ++ suggestionText suggestion'

/-- The same proposals at the same place in some order. -/
structure Completion.SameItems (c c' : Completion) : Prop where
  range : c.range = c'.range
  condition : c.condition = c'.condition
  items : c.items.Perm c'.items

theorem Diagnostic.SameButSuggestion.refl (d : Diagnostic) : d.SameButSuggestion d :=
  ⟨rfl, rfl, rfl, d.message, none, none, (String.append_empty).symm, (String.append_empty).symm⟩

theorem Completion.SameItems.refl (c : Completion) : c.SameItems c := ⟨rfl, rfl, .refl _⟩

namespace Report

/-- The reports are the same but for suggestions and the order of proposals. -/
structure SameUpToOrder (r r' : Report) : Prop where
  diagnostics : List.Forall₂ Diagnostic.SameButSuggestion r.diagnostics r'.diagnostics
  hovers : r.hovers = r'.hovers
  links : r.links = r'.links
  highlights : r.highlights = r'.highlights
  completions : List.Forall₂ Completion.SameItems r.completions r'.completions
  components : r.components = r'.components

/-- **Merging keeps reports the same up to order.** -/
theorem congruence_sameUpToOrder : Congruence SameUpToOrder where
  refl _ :=
    ⟨List.forall₂_same.mpr fun d _ => .refl d, rfl, rfl, rfl,
      List.forall₂_same.mpr fun c _ => .refl c, rfl⟩
  merge hr hs :=
    { diagnostics := List.rel_append hr.diagnostics hs.diagnostics
      hovers := congrArg₂ (· ++ ·) hr.hovers hs.hovers
      links := congrArg₂ (· ++ ·) hr.links hs.links
      highlights := congrArg₂ (· ++ ·) hs.highlights hr.highlights
      completions := List.rel_append hr.completions hs.completions
      components := congrArg₂ ComponentTable.append hr.components hs.components }

end Report

/-! ## References -/

namespace Reference

variable {ref : Reference} {site site' : Site} {components components' : List Component}

section Rule

variable (hperm : components.Perm components')

include hperm

/-- A text is an id in whatever order the components stand, and if it is none, the same is said of
it but for the suggestion. -/
theorem mismatch?_perm (hname : ref.name ≠ "") (ctx ctx' : Context) (text : String) :
    (ref.rule components).mismatch? ref.info ctx text = none ∧
        (ref.rule components').mismatch? ref.info ctx' text = none ∨
      ∃ front suggestion suggestion',
        (ref.rule components).mismatch? ref.info ctx text =
            some (front ++ suggestionText suggestion) ∧
          (ref.rule components').mismatch? ref.info ctx' text =
            some (front ++ suggestionText suggestion') := by
  have hdisplay : ∀ ctx description, ref.info.display ctx description = ref.name :=
    fun _ _ => if_neg hname
  unfold StringRule.mismatch?
  simp only [rule, hdisplay, List.map_map]
  rw [((hperm.map _).any_eq :
    (components.map _).any _ = (components'.map _).any _)]
  split
  · exact Or.inl ⟨rfl, rfl⟩
  · exact Or.inr ⟨_, _, _, rfl, rfl⟩

/-- The check of a reference says the same in whatever order the components stand, but for the
suggestion. -/
theorem sameUpToOrder_check (hname : ref.name ≠ "") (h : site.SameText site') (s : Scalar) :
    Report.SameUpToOrder ((ref.rule components).check ref.info site s)
      ((ref.rule components').check ref.info site' s) := by
  unfold StringRule.check
  simp only
  rcases mismatch?_perm hperm hname (.ofNode site (.scalar s)) (.ofNode site' (.scalar s))
    s.string with ⟨hnone, hnone'⟩ | ⟨front, suggestion, suggestion', hsome, hsome'⟩
  · rw [hnone, hnone']
    simp only
    rw [h.highlight?_eq]
    exact Report.congruence_sameUpToOrder.refl _
  · rw [hsome, hsome']
    simp only
    refine ⟨.cons ⟨h.nodeRange_eq _, rfl, rfl, front, suggestion, suggestion', rfl, rfl⟩ .nil,
      rfl, rfl, rfl, .nil, rfl⟩

/-- The same components are proposed in whatever order they stand. -/
theorem sameUpToOrder_complete (h : site.SameText site') (s : Scalar) :
    Report.SameUpToOrder ((ref.rule components).complete site s)
      ((ref.rule components').complete site' s) := by
  refine ⟨.nil, rfl, rfl, rfl, .cons ⟨h.nodeRange_eq _, rfl, ?_⟩ .nil, rfl⟩
  exact (hperm.map _).map _

end Rule

/-- **Reports on a reference are the same up to order in whatever order the components have been
registered**, if each id is registered once. -/
theorem sameUpToOrder_report (hname : ref.name ≠ "") (h : site.SameDocument site')
    (hperm : (site.registry.components ref.kind).Perm (site'.registry.components ref.kind))
    (hids : ((site.registry.components ref.kind).map (·.id)).Nodup) (s : Scalar) :
    Report.SameUpToOrder (ref.report site s) (ref.report site' s) := by
  have hfound : (site.registry.components ref.kind).find? (·.id = s.string) =
      (site'.registry.components ref.kind).find? (·.id = s.string) := by
    refine List.find?_eq_find?_of_perm hperm fun c hc c' hc' => ?_
    refine List.inj_on_of_nodup_map hids hc.1 hc'.1 ?_
    exact (of_decide_eq_true hc.2).trans (of_decide_eq_true hc'.2).symm
  have htarget : ref.target site s = ref.target site' s := by
    obtain ⟨registry, rfl⟩ := h
    rfl
  unfold report
  simp only
  rw [hfound, htarget]
  have hQ := Report.congruence_sameUpToOrder
  exact hQ.merge (hQ.merge (sameUpToOrder_check hperm hname h.sameText s)
    (sameUpToOrder_complete hperm h.sameText s)) (hQ.refl _)

end Reference

end PackLint
