import PackLint.Proofs.Pack.Inside
import PackLint.Proofs.Pack.Mob
import PackLint.Proofs.Schema.Registration

/-!
# What the files of a pack register

The schema of a file registers the top-level keys of its tree and nothing else: whatever else it
checks has every closed property, so it declares no component, disputes no id and makes no link.

Results:
* `Pack.check_file`: the local check of a file is its registering check with closed reports around.
* `Pack.check_registers`: the local check of a file registers components of the document only.
* `Pack.resolve_closed`: what is resolved in a file has every property that is closed under links.
-/

namespace PackLint

/-- The kind of components that files of a kind declare. -/
def FileKind.declares : FileKind → ComponentKind
  | skill => .skills
  | mob => .mobs
  | item => .items

/-- The colour of the ids that files of a kind declare. -/
def FileKind.idColor : FileKind → TextClass
  | skill => .function
  | mob | item => .typeName

namespace Pack

variable {P : Report → Prop} {kind : FileKind} {site : Site} {n : Node} {r : Report}

/-! ## Single checks -/

section Checks

variable (hP : Report.Closed P)

include hP

theorem closed_cooldownAligned : Check.Reports P cooldownAligned := by
  intro site n r h
  unfold cooldownAligned at h
  split at h
  · simp only at h
    split at h
    · cases h
    · split at h
      · cases h
      · cases h; exact hP.empty
      · cases h; exact Schema.closed_problem hP _ _ _
  · cases h; exact hP.empty

theorem closed_potionMaterial : Check.Reports P potionMaterial := by
  intro site n r h
  unfold potionMaterial at h
  split at h
  · obtain ⟨text, -, h⟩ := Except.bind_eq_ok.mp h
    split at h
    · cases h; exact hP.empty
    · cases h; exact Schema.closed_problem hP _ _ _
  · cases h; exact hP.empty

omit hP in
theorem checksReport_among (name : String) (names : GameData → List String) :
    Schema.ChecksReport P (Choice.among name names) :=
  .intro (fun _ _ h => nomatch h) fun _ h => h.elim

theorem closed_enchantmentEntry : Check.Reports P enchantmentEntry := by
  intro site n r h
  unfold enchantmentEntry at h
  split at h
  · split at h
    · exact Schema.check_closed hP (checksReport_among _ _) h
    · cases h; exact hP.empty
  · cases h; exact hP.empty

/-- Listed checks report with every closed property. -/
theorem Listed.checksReport {s : Schema} (h : Listed s) : s.info.ChecksReport P := by
  intro ctx c hc
  rcases h.localCheck hc with rfl | rfl | rfl
  · exact closed_cooldownAligned hP
  · exact closed_potionMaterial hP
  · exact closed_enchantmentEntry hP

theorem closed_overrideReport (id : String) (type : Option Pair) :
    P (overrideReport site id type) := by
  unfold overrideReport
  split
  · split
    · exact Schema.closed_problem hP _ _ _
    · exact hP.empty
  · exact hP.empty

theorem closed_displayReport (typeName : String) (options : Option Pair) :
    P (displayReport site typeName options) := by
  unfold displayReport
  split
  · exact hP.empty
  · split
    · exact Schema.closed_problem hP _ _ _
    · exact hP.empty

theorem closed_checkMobType {p : Pair} (h : checkMobType site p = .ok r) : P r := by
  by_cases hm : ∃ mob, p.value = some mob ∧ mob.isMap
  · obtain ⟨mob, hv, hm⟩ := hm
    rw [checkMobType_map site hv hm] at h
    cases ht : typeName? (mob.pair? "Type") with
    | error fault => rw [ht] at h; cases h
    | ok typeName =>
      rw [ht] at h
      cases h
      exact hP.merge (closed_overrideReport hP _ _) (closed_displayReport hP _ _)
  · rw [checkMobType_of_not_map site fun mob hv => by
      simpa using fun hmap => hm ⟨mob, hv, hmap⟩] at h
    cases h
    exact hP.empty

theorem closed_mobTypes : Check.Reports P mobTypes := by
  intro site n r h
  unfold mobTypes at h
  obtain ⟨rs, hrs, h⟩ := Except.bind_eq_ok.mp h
  cases h
  exact hP.mapM hrs fun p _ r => closed_checkMobType hP

end Checks

/-! ## Files -/

/-- The local checks of a file beside the one that registers its components. -/
def otherChecks : FileKind → List Check
  | .skill | .item => []
  | .mob => [mobTypes]

theorem localChecks_file (kind : FileKind) (ctx : Context) :
    kind.schema.info.localChecks ctx =
      registration kind.declares kind.idColor :: otherChecks kind := by
  cases kind <;> rfl

theorem closed_otherChecks (hP : Report.Closed P) (kind : FileKind) :
    ∀ c ∈ otherChecks kind, Check.Reports P c := by
  cases kind with
  | mob => exact fun c h => List.mem_singleton.mp h ▸ closed_mobTypes hP
  | _ => exact fun _ h => nomatch h

/-- **The local check of a file is its registering check, with closed reports around.** -/
theorem check_file (h : kind.schema.check site n = .ok r) : ∃ front registering back,
    registration kind.declares kind.idColor site n = .ok registering ∧
      r = front ++ (registering ++ back) ∧ ∀ P, Report.Closed P → P front ∧ P back := by
  obtain ⟨front, hfront, h⟩ := Except.bind_eq_ok.mp h
  obtain ⟨brought, hbrought, h⟩ := Except.bind_eq_ok.mp h
  cases h
  rw [localChecks_file, runChecks_cons] at hbrought
  obtain ⟨registering, hregistering, hbrought⟩ := Except.bind_eq_ok.mp hbrought
  obtain ⟨back, hback, hbrought⟩ := Except.bind_eq_ok.mp hbrought
  cases hbrought
  refine ⟨front, registering, back, hregistering, rfl, fun P hP => ⟨?_, ?_⟩⟩
  · refine Schema.checkStructure_closed hP (Schema.closedVisit_checkWithin hP site _) ?_ hfront
    exact fun t ht => (known_parts kind t ht).imp fun _ => Listed.checksReport hP
  · exact hP.runChecks (closed_otherChecks hP kind) hback

/-- A file declares and disputes what its registering check does. -/
theorem check_registration (h : kind.schema.check site n = .ok r) : ∃ registering,
    registration kind.declares kind.idColor site n = .ok registering ∧
      r.components = registering.components ∧ r.disputes = registering.disputes := by
  obtain ⟨front, registering, back, hregistering, rfl, hclosed⟩ := check_file h
  have hsilent := hclosed _ Report.closed_silent.toClosed
  obtain ⟨hfront, hback⟩ := hclosed _ Report.closed_undisputed.toClosed
  refine ⟨registering, hregistering, ?_, ?_⟩
  · rw [Report.components_of_silent_left hsilent.1, Report.components_of_silent_right hsilent.2]
  · rw [Report.disputes_append, Report.disputes_append, hfront, hback, List.nil_append,
      List.append_nil]

/-- **The local check of a file registers components of its document only.** -/
theorem check_registers (h : kind.schema.check site n = .ok r) :
    r.components.RegisteredAt site.registry site.uri := by
  obtain ⟨registering, hregistering, hcomponents, -⟩ := check_registration h
  rw [hcomponents]
  exact registration_registers hregistering

/-- **What is resolved in a file has every property that is closed under links.** -/
theorem resolve_closed (hP : Report.ClosedUnderLinks P) (h : kind.schema.resolve site n = .ok r) :
    P r := by
  refine Schema.resolve_closed hP (.intro (fun ctx c hc => ?_) fun t ht => ?_) h
  · rw [referenceChecks_file] at hc
    cases hc
  · refine (known_parts kind t ht).imp fun s hs ctx c hc => ?_
    obtain ⟨ref, -, rfl⟩ := hs.referenceCheck hc
    intro site n r h
    cases h
    cases n.scalar? with
    | none => exact hP.empty
    | some scalar => exact Schema.closed_reference hP ref site scalar

end Pack

end PackLint
