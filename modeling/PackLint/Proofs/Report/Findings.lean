import PackLint.Proofs.Schema.Outcome
import Mathlib.Algebra.BigOperators.Group.List.Lemmas
import Mathlib.Algebra.Order.Group.Multiset
import Mathlib.Algebra.Order.Monoid.Unbundled.WithTop

/-!
# What a check finds

The findings of a check are its diagnostics, each as often as it is reported, in no order; a check
that ends in a fault finds `⊤`, which absorbs all else. A check that merges the reports of others
finds what these find together, so findings can be added up and compared part by part.

Results:
* `findings_bind_append`: two checks one after the other find the sum of what each finds.
* `findings_mergeAll_mapM`: so do the checks of a list.
-/

namespace PackLint

/-- What a check finds. -/
abbrev Findings := WithTop (Multiset Diagnostic)

/-- The diagnostics of a report without their order. -/
def Report.findings (r : Report) : Findings := ((r.diagnostics : Multiset Diagnostic) : Findings)

/-- What a check finds that has the given outcome. -/
def findings (x : Except Fault Report) : Findings :=
  match x with
  | .ok r => r.findings
  | .error _ => ⊤

namespace Report

@[simp] theorem findings_append (r s : Report) : (r ++ s).findings = r.findings + s.findings := by
  unfold findings
  rw [← WithTop.coe_add, Multiset.coe_add]
  rfl

theorem findings_mergeAll (rs : List Report) :
    (mergeAll rs).findings = (rs.map Report.findings).sum := by
  induction rs with
  | nil => rfl
  | cons r rs ih => rw [mergeAll_cons, ← append_eq_merge, findings_append, ih, List.map_cons,
      List.sum_cons]

/-- Reports without diagnostics find nothing. -/
theorem findings_eq_zero {r : Report} (h : r.diagnostics = []) : r.findings = 0 := by
  rw [findings, h]
  rfl

end Report

@[simp] theorem findings_ok (r : Report) : findings (.ok r) = r.findings := rfl

/-- **Two checks one after the other find the sum of what each finds.** -/
theorem findings_bind_append (x y : Except Fault Report) :
    findings (x >>= fun r => y >>= fun s => .ok (r ++ s)) = findings x + findings y := by
  cases x with
  | error fault => exact (WithTop.top_add _).symm
  | ok r =>
    cases y with
    | error fault => exact (WithTop.add_top _).symm
    | ok s => exact Report.findings_append r s

/-- **The checks of a list find the sum of what each finds.** -/
theorem findings_mergeAll_mapM {α : Type} (f : α → Except Fault Report) (l : List α) :
    findings ((l.mapM f).map .mergeAll) = (l.map fun a => findings (f a)).sum := by
  induction l with
  | nil => rfl
  | cons a l ih =>
    rw [List.mapM_cons, List.map_cons, List.sum_cons, ← ih]
    cases f a with
    | error fault => exact (WithTop.top_add _).symm
    | ok r =>
      cases l.mapM f with
      | error fault => exact (WithTop.add_top _).symm
      | ok rs =>
        change Report.findings (.mergeAll (r :: rs)) = _
        rw [Report.mergeAll_cons, ← Report.append_eq_merge, Report.findings_append]
        rfl

/-- The checks of a node find the sum of what each finds. -/
theorem findings_runChecks (checks : List Check) (site : Site) (n : Node) :
    findings (runChecks checks site n) =
      (checks.map fun (check : Check) => findings (check site n)).sum := by
  rw [runChecks_eq, findings_mergeAll_mapM]

end PackLint
