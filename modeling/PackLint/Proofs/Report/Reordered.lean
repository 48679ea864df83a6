import PackLint.Report
import Mathlib.Data.List.Forall2

/-!
# Related reports

Reports are merged from parts, so a relation between reports that merging keeps holds of two reports
if it holds part by part. One such relation is to say the same in another order. Merging does not
commute, but the order of the parts is all that depends on the order of merging.

Results:
* `Report.congruence_reordered`: merging keeps reports the same but for their order.
* `Report.merge_comm`: merging in the other direction changes the order only.
-/

namespace PackLint

namespace Report

/-- A relation that merging keeps. -/
structure Congruence (Q : Report → Report → Prop) : Prop where
  refl (r : Report) : Q r r
  merge {r r' s s' : Report} (hr : Q r r') (hs : Q s s') : Q (r.merge s) (r'.merge s')

theorem congruence_eq : Congruence (· = ·) where
  refl _ := rfl
  merge hr hs := congrArg₂ merge hr hs

theorem Congruence.mergeAll {Q : Report → Report → Prop} (hQ : Congruence Q)
    {rs rs' : List Report} (h : List.Forall₂ Q rs rs') : Q (.mergeAll rs) (.mergeAll rs') := by
  induction h with
  | nil => exact hQ.refl _
  | cons hr _ ih =>
    rw [mergeAll_cons, mergeAll_cons]
    exact hQ.merge hr ih

/-- The reports say the same in another order. -/
structure Reordered (r s : Report) : Prop where
  diagnostics : r.diagnostics.Perm s.diagnostics
  hovers : r.hovers.Perm s.hovers
  links : r.links.Perm s.links
  highlights : r.highlights.Perm s.highlights
  completions : r.completions.Perm s.completions
  components (kind : ComponentKind) : (r.components.of kind).Perm (s.components.of kind)

variable {r s t u : Report}

/-- **Merging keeps reports the same but for their order.** -/
theorem congruence_reordered : Congruence Reordered where
  refl _ := ⟨.refl _, .refl _, .refl _, .refl _, .refl _, fun _ => .refl _⟩
  merge hr hs :=
    { diagnostics := hr.diagnostics.append hs.diagnostics
      hovers := hr.hovers.append hs.hovers
      links := hr.links.append hs.links
      highlights := hs.highlights.append hr.highlights
      completions := hr.completions.append hs.completions
      components := fun kind => by
        simp only [Report.merge, ComponentTable.of_append]
        exact (hr.components kind).append (hs.components kind) }

/-- **Merging in the other direction changes the order only.** -/
theorem merge_comm (r s : Report) : Reordered (r.merge s) (s.merge r) where
  diagnostics := List.perm_append_comm
  hovers := List.perm_append_comm
  links := List.perm_append_comm
  highlights := List.perm_append_comm
  completions := List.perm_append_comm
  components kind := by
    simp only [Report.merge, ComponentTable.of_append]
    exact List.perm_append_comm

namespace Reordered

theorem refl (r : Report) : Reordered r r := congruence_reordered.refl r

theorem symm (h : Reordered r s) : Reordered s r :=
  ⟨h.diagnostics.symm, h.hovers.symm, h.links.symm, h.highlights.symm, h.completions.symm,
    fun kind => (h.components kind).symm⟩

theorem trans (h : Reordered r s) (h' : Reordered s t) : Reordered r t :=
  ⟨h.diagnostics.trans h'.diagnostics, h.hovers.trans h'.hovers, h.links.trans h'.links,
    h.highlights.trans h'.highlights, h.completions.trans h'.completions,
    fun kind => (h.components kind).trans (h'.components kind)⟩

theorem merge (hr : Reordered r s) (ht : Reordered t u) : Reordered (r.merge t) (s.merge u) :=
  congruence_reordered.merge hr ht

/-- Four reports can be merged two by two in either way. -/
theorem merge_merge_comm (r s t u : Report) :
    Reordered ((r.merge s).merge (t.merge u)) ((r.merge t).merge (s.merge u)) := by
  rw [merge_assoc, merge_assoc, ← merge_assoc s t u, ← merge_assoc t s u]
  exact (refl r).merge ((merge_comm s t).merge (refl u))

/-- A list of reports can be merged in any order. -/
theorem mergeAll {rs ss : List Report} (h : rs.Perm ss) :
    Reordered (.mergeAll rs) (.mergeAll ss) := by
  induction h with
  | nil => exact refl _
  | cons r _ ih =>
    rw [mergeAll_cons, mergeAll_cons]
    exact (refl r).merge ih
  | swap r s rs =>
    simp only [mergeAll_cons, ← merge_assoc]
    exact (merge_comm s r).merge (refl _)
  | trans _ _ ih ih' => exact ih.trans ih'

end Reordered

end Report

end PackLint
