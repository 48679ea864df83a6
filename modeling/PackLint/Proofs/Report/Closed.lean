import PackLint.Report

/-!
# Properties that reports are built with

Reports are merged from single diagnostics, hovers, highlights, completions and links. A property of
reports is closed if merging keeps it and all parts have it that a schema finds in a node itself. A
report that declares components, or disputes an id that another document has registered, need not
have it. What is shown of the closed properties once holds of each of them.

Results:
* `Report.closed_silent`: declaring no component is closed.
* `Report.closed_undisputed`: reporting no duplicate id is closed.
* `Report.closed_linkless`: having no link is closed, but for links themselves.
-/

namespace PackLint

namespace Report

/-- Merging keeps the property, and single diagnostics, hovers and highlights have it, except for
the diagnostics of duplicate ids. -/
structure Closed (P : Report → Prop) : Prop where
  empty : P .empty
  merge {r s : Report} (hr : P r) (hs : P s) : P (r.merge s)
  diagnostic (d : Diagnostic) (h : d.code ≠ .duplicateComponentId) : P (.ofDiagnostic d)
  hover (h : Hover) : P (.ofHover h)
  highlight (h : Highlight) : P (.ofHighlight h)

/-- Completions and links have the property as well. -/
structure ClosedUnderLinks (P : Report → Prop) : Prop extends Closed P where
  completions (cs : List Completion) : P { completions := cs }
  links (hs : List Hover) (ls : List Link) : P { hovers := hs, links := ls }

variable {P : Report → Prop} {r s : Report}

namespace Closed

variable (hP : Closed P)

include hP

theorem append (hr : P r) (hs : P s) : P (r ++ s) := hP.merge hr hs

theorem mergeAll {rs : List Report} (h : ∀ r ∈ rs, P r) : P (.mergeAll rs) := by
  induction rs with
  | nil => exact hP.empty
  | cons r rs ih =>
    rw [mergeAll_cons]
    exact hP.merge (h r List.mem_cons_self) (ih fun s hs => h s (List.mem_cons_of_mem r hs))

theorem mergeAll_map {α : Type} {l : List α} {f : α → Report} (h : ∀ a ∈ l, P (f a)) :
    P (.mergeAll (l.map f)) := by
  refine hP.mergeAll fun r hr => ?_
  obtain ⟨a, ha, rfl⟩ := List.mem_map.mp hr
  exact h a ha

end Closed

/-! ## Reports without components -/

/-- The report declares no component. -/
abbrev Silent (r : Report) : Prop := r.components = {}

theorem closed_silent : ClosedUnderLinks Silent where
  empty := rfl
  merge {r s} hr hs := by
    change r.components.append s.components = {}
    rw [hr, hs]
    rfl
  diagnostic _ _ := rfl
  hover _ := rfl
  highlight _ := rfl
  completions _ := rfl
  links _ _ := rfl

theorem components_of_silent_left (hr : r.Silent) : (r ++ s).components = s.components := by
  change r.components.append s.components = s.components
  rw [hr]
  rfl

theorem components_of_silent_right (hs : s.Silent) : (r ++ s).components = r.components := by
  change r.components.append s.components = r.components
  rw [hs]
  simp [ComponentTable.append]

/-! ## Reports without duplicate ids -/

/-- The diagnostics of ids that another document has registered. -/
def disputes (r : Report) : List Diagnostic :=
  r.diagnostics.filter (·.code = .duplicateComponentId)

/-- The report disputes no id. -/
abbrev Undisputed (r : Report) : Prop := r.disputes = []

theorem disputes_merge (r s : Report) : (r.merge s).disputes = r.disputes ++ s.disputes :=
  List.filter_append ..

theorem disputes_append (r s : Report) : (r ++ s).disputes = r.disputes ++ s.disputes :=
  disputes_merge r s

theorem closed_undisputed : ClosedUnderLinks Undisputed where
  empty := rfl
  merge {r s} hr hs := by
    change (r.merge s).disputes = []
    rw [disputes_merge, hr, hs]
    rfl
  diagnostic d h := List.filter_eq_nil_iff.mpr fun e he => by
    rw [List.mem_singleton.mp he]
    simpa using h
  hover _ := rfl
  highlight _ := rfl
  completions _ := rfl
  links _ _ := rfl

/-! ## Reports without links -/

/-- The report has no link. -/
abbrev Linkless (r : Report) : Prop := r.links = []

theorem closed_linkless : Closed Linkless where
  empty := rfl
  merge hr hs := List.append_eq_nil_iff.mpr ⟨hr, hs⟩
  diagnostic _ _ := rfl
  hover _ := rfl
  highlight _ := rfl

end Report

end PackLint
