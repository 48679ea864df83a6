import PackLint.Proofs.Report.Findings
import PackLint.Proofs.Schema.Levels
import PackLint.Proofs.Schema.Sweep

/-!
# What the check of a map finds

The check of a map finds what its properties find, one by one, and what the sweep finds. A property
finds whether it is missing or repeated, and what is found in the pairs that hold it.

Results:
* `Schema.findings_checkMap`: the findings in a map, property by property.
* `Schema.findings_checkProperty`: the findings in a property, pair by pair.
* `Site.findings_sweep`: the findings of a sweep, pair by pair.
-/

namespace PackLint

variable {site : Site} {pairs : List Pair} {start stop : Nat}

/-- The sweep over keys that can be written finds what it finds at each of them. -/
theorem Site.findings_sweep {names : List (List Char)} {front : List Char}
    (hkeys : ∀ p ∈ pairs, p.key.isTextKey) :
    findings (site.sweep names front (.map pairs start stop)) =
      (pairs.map fun p => findings (site.sweepPair names front p)).sum := by
  have htext : requireTextKeys pairs = .ok () := if_pos (List.all_eq_true.mpr hkeys)
  rw [sweep_map, htext, ← findings_mergeAll_mapM]
  rfl

namespace Schema

variable {visit : Visit} {n : Node}

theorem findings_entryHovers (s : Schema) (site : Site) (n : Node) (pairs : List Pair) :
    (s.entryHovers site n pairs).findings = 0 := by
  unfold entryHovers
  split
  · simp only
    split
    · rw [Report.findings_mergeAll, List.map_map]
      exact List.sum_eq_zero fun m hm => by
        obtain ⟨p, -, rfl⟩ := List.mem_map.mp hm
        rfl
    · rfl
  · rfl

/-- **The check of a property finds whether it is missing or repeated, and what is found in the
pairs that hold it.** -/
theorem findings_checkProperty {key : String} {p : Property} :
    findings (checkProperty visit site n pairs key p) =
      let found := propertyPairs (.ofNode site n) key p pairs
      (if found.isEmpty then (missingProperty site n key p).findings else 0) +
      (if 1 < found.length then
        (found.map fun pair => (site.problem pair.key .duplicateProperty
          ("Duplicate property `" ++ key ++ "`.")).findings).sum
      else 0) + (found.map fun pair => findings (checkPair visit site key p pair)).sum := by
  unfold checkProperty
  generalize propertyPairs (.ofNode site n) key p pairs = found
  cases found with
  | nil => exact ((add_zero _).trans (add_zero _)).symm
  | cons pair found =>
    simp only [List.isEmpty_cons, Bool.false_eq_true, if_false, zero_add]
    rw [← findings_mergeAll_mapM]
    cases (pair :: found).mapM (checkPair visit site key p) with
    | error fault => exact (WithTop.add_top _).symm
    | ok rs =>
      change (Report.mergeAll (_ ++ rs)).findings = _ + (Report.mergeAll rs).findings
      rw [Report.mergeAll_append, ← Report.append_eq_merge, Report.findings_append]
      congr 1
      split
      · rw [Report.findings_mergeAll, List.map_map]
        rfl
      · rfl

/-- **The check of a map finds what its properties find and what the sweep finds.** -/
theorem findings_checkMap (s : Schema) :
    findings (s.checkMap visit site (.map pairs start stop)) =
      let flat := s.flatProperties (.ofNode site (.map pairs start stop))
      let names := (propertyNames (.ofNode site (.map pairs start stop)) flat).map String.toList
      (flat.map fun e =>
        findings (checkProperty visit site (.map pairs start stop) pairs e.1 e.2)).sum +
      findings (site.sweep names [] (.map pairs start stop)) := by
  have hhovers := findings_entryHovers s site (.map pairs start stop) pairs
  unfold checkMap
  simp only
  rw [← findings_mergeAll_mapM, Site.sweep_map]
  generalize s.flatProperties _ = flat
  cases requireTextKeys pairs with
  | error fault => exact (WithTop.add_top _).symm
  | ok _ =>
    cases flat.mapM fun e : String × Property =>
        checkProperty visit site (.map pairs start stop) pairs e.1 e.2 with
    | error fault => exact (WithTop.top_add _).symm
    | ok rs =>
      cases pairs.mapM (site.sweepPair _ []) with
      | error fault => exact (WithTop.add_top _).symm
      | ok strays =>
        change (Report.mergeAll rs ++ Report.mergeAll strays ++
          s.entryHovers site (.map pairs start stop) pairs).findings = _
        rw [Report.findings_append, Report.findings_append, hhovers, add_zero]
        rfl

end Schema

end PackLint
