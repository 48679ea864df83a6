import PackLint.Proofs.Report.Closed
import PackLint.Proofs.Schema.Answers
import PackLint.Proofs.SkillLine.Closed
import PackLint.Schema.Resolve

/-!
# What schemas report

What the structure of a schema reports is made of diagnostics, hovers and highlights, and where
references are resolved, of completions and links. So a report on a node has a closed property if
the reports of all checks have it that the schemas inside of the schema bring along.

Results:
* `Schema.check_closed`, `Schema.resolve_closed`: a report has the property if all checks that the
  schema and its parts bring along report so.
* `Schema.checkStructure_closed`, `Schema.resolveStructure_closed`: so has the report on the
  structure, whatever the checks that the schema brings along itself.
-/

namespace PackLint

variable {P : Report → Prop}

theorem Report.Closed.mapM (hP : Report.Closed P) {α : Type} {l : List α}
    {f : α → Except Fault Report} {rs : List Report} (h : l.mapM f = .ok rs)
    (hf : ∀ a ∈ l, ∀ r, f a = .ok r → P r) : P (.mergeAll rs) :=
  hP.mergeAll (Except.forall_mem_of_mapM h hf)

/-- All reports of the check have the property. -/
def Check.Reports (P : Report → Prop) (c : Check) : Prop := ∀ site n r, c site n = .ok r → P r

theorem Report.Closed.runChecks (hP : Report.Closed P) {checks : List Check}
    (h : ∀ c ∈ checks, Check.Reports P c) {site : Site} {n : Node} {r : Report}
    (hr : runChecks checks site n = .ok r) : P r := by
  rw [runChecks_eq] at hr
  cases hm : checks.mapM fun (check : Check) => check site n with
  | error fault => rw [hm] at hr; cases hr
  | ok rs =>
    rw [hm] at hr
    cases hr
    exact hP.mapM hm fun c hc r hr => h c hc site n r hr

/-- The reports of the local checks that a schema brings along have the property. -/
def SchemaInfo.ChecksReport (P : Report → Prop) (info : SchemaInfo) : Prop :=
  ∀ ctx, ∀ c ∈ info.localChecks ctx, Check.Reports P c

/-- The reports of the checks of references that a schema brings along have the property. -/
def SchemaInfo.ReferencesReport (P : Report → Prop) (info : SchemaInfo) : Prop :=
  ∀ ctx, ∀ c ∈ info.referenceChecks ctx, Check.Reports P c

namespace Schema

/-- The reports of all local checks that the schema and its parts bring along have the property. -/
abbrev ChecksReport (P : Report → Prop) (s : Schema) : Prop :=
  All (fun t => t.info.ChecksReport P) s

/-- The reports of all checks of references that the schema and its parts bring along have the
property. -/
abbrev ReferencesReport (P : Report → Prop) (s : Schema) : Prop :=
  All (fun t => t.info.ReferencesReport P) s

variable {visit : Visit} {s : Schema} {site : Site} {n : Node} {r : Report}

section Checks

variable (hP : Report.Closed P)

include hP

/-! ## Single reports -/

theorem closed_problem (n : Node) (code : DiagnosticCode) (message : String)
    (hcode : code ≠ .duplicateComponentId := by decide) : P (site.problem n code message) :=
  hP.diagnostic _ hcode

theorem closed_highlight? (n : Node) (color : Option TextClass) :
    P (site.highlight? n color) := by
  cases color with
  | none => exact hP.empty
  | some color => exact hP.highlight _

theorem closed_stringRule (rule : StringRule) (info : SchemaInfo) (scalar : Scalar) :
    P (rule.check info site scalar) := by
  unfold StringRule.check
  simp only
  split
  · exact closed_problem hP _ _ _
  · exact closed_highlight? hP _ _

theorem closed_wrongType : P (s.wrongType site n) := closed_problem hP _ _ _

/-! ## The local check -/

theorem closed_checkBool : P (s.checkBool site n) := by
  unfold checkBool
  split
  · exact closed_highlight? hP _ _
  · exact closed_problem hP _ _ _
  · exact closed_wrongType hP

theorem closed_checkString (rule : StringRule) : P (s.checkString rule site n) := by
  unfold checkString
  split
  · exact closed_stringRule hP _ _ _
  · exact closed_wrongType hP

omit hP in
/-- What a rule for numbers finds is no duplicate id. -/
theorem code_of_violation? {rule : NumberRule} {ctx : Context} {x : Number} {code : DiagnosticCode}
    {message : String} (h : rule.violation? ctx x = .ok (some (code, message))) :
    code ≠ .duplicateComponentId := by
  have hrange : ∀ words bound,
      (do return some (← NumberRule.outOfRange words bound x)) =
        (.ok (some (code, message)) : Except Fault (Option (DiagnosticCode × String))) →
      code = .numberOutOfRange := by
    intro words bound h
    obtain ⟨found, hfound, h⟩ := Except.bind_eq_ok.mp h
    obtain ⟨shown, -, hfound⟩ := Except.bind_eq_ok.mp hfound
    cases hfound
    cases h
    rfl
  unfold NumberRule.violation? at h
  split at h
  · rename_i hlow
    obtain ⟨words, bound, rfl⟩ := NumberRule.outOfRange_of_belowMinimum? hlow
    rw [hrange words bound h]
    decide
  · split at h
    · rename_i hhigh
      obtain ⟨words, bound, rfl⟩ := NumberRule.outOfRange_of_aboveMaximum? hhigh
      rw [hrange words bound h]
      decide
    · split at h
      · obtain ⟨whole, -, h⟩ := Except.bind_eq_ok.mp h
        split at h
        · cases h
        · obtain ⟨shown, -, h⟩ := Except.bind_eq_ok.mp h
          cases h
          decide
      · cases h

theorem closed_checkNumber {rule : NumberRule} (h : s.checkNumber rule site n = .ok r) : P r := by
  unfold checkNumber at h
  split at h
  · obtain ⟨v, hv, h⟩ := Except.bind_eq_ok.mp h
    split at h
    · cases h
      exact closed_problem hP _ _ _ (code_of_violation? hv)
    · cases h
      exact closed_highlight? hP _ _
  · cases h
    exact closed_wrongType hP

theorem closed_repeated (earlier : List Value) (items : List Node) :
    ∀ r ∈ repeated site earlier items, P r := by
  induction items generalizing earlier with
  | nil => simp [repeated]
  | cons item items ih =>
    intro r hr
    simp only [repeated] at hr
    rcases List.mem_cons.mp hr with rfl | hr
    · split_ifs
      · exact closed_problem hP _ _ _
      · exact hP.empty
    · exact ih _ r hr

theorem closed_checkRepeated {items : List Node} (h : checkRepeated site items = .ok r) : P r := by
  unfold checkRepeated at h
  split at h
  · cases h
    exact hP.mergeAll (closed_repeated hP [] items)
  · cases h

theorem closed_checkLength (expected actual : Nat) : P (checkLength site n expected actual) := by
  unfold checkLength
  split
  · exact hP.empty
  · exact closed_problem hP _ _ _

/-- The visit reports with the property wherever the schema and its parts do so. -/
def ClosedVisit (P : Report → Prop) (visit : Visit) : Prop :=
  ∀ s n r, ChecksReport P s → visit s n = .ok r → P r

theorem closed_checkItems (hv : ClosedVisit P visit) {items : List Node} {rule : ItemsOf Schema}
    (hs : ∀ t ∈ rule.schemas, ChecksReport P t) (h : checkItems visit site n items rule = .ok r) :
    P r := by
  cases rule with
  | anything => cases h; exact hP.empty
  | each t =>
    obtain ⟨rs, hrs, h⟩ := Except.bind_eq_ok.mp h
    cases h
    exact hP.mapM hrs fun item _ r => hv t item r (hs t (by simp [ItemsOf.schemas]))
  | inOrder ts =>
    obtain ⟨rs, hrs, h⟩ := Except.bind_eq_ok.mp h
    cases h
    refine hP.merge (closed_checkLength hP _ _) (hP.mapM hrs fun e he r => ?_)
    exact hv e.1 e.2 r (hs e.1 (List.of_mem_zip he).1)

theorem closed_checkList (hv : ClosedVisit P visit) {rule : ItemsOf Schema} {duplicates : Bool}
    (hs : ∀ t ∈ rule.schemas, ChecksReport P t)
    (h : checkList visit s rule duplicates site n = .ok r) : P r := by
  cases n with
  | seq items start stop =>
    obtain ⟨r', hr', h⟩ := Except.bind_eq_ok.mp h
    have hr := closed_checkItems hP hv hs hr'
    split at h
    · cases h
      exact hr
    · obtain ⟨r'', hr'', h⟩ := Except.bind_eq_ok.mp h
      cases h
      exact hP.merge hr (closed_checkRepeated hP hr'')
  | _ => cases h; exact closed_wrongType hP

theorem closed_checkPair (hv : ClosedVisit P visit) {key : String} {p : Property} {pair : Pair}
    (hp : ∀ ctx, ChecksReport P (p.schema ctx)) (h : checkPair visit site key p pair = .ok r) :
    P r := by
  unfold checkPair at h
  split at h
  · cases h
    exact closed_problem hP _ _ _
  · obtain ⟨r', hr', h⟩ := Except.bind_eq_ok.mp h
    cases h
    exact hP.merge (hP.hover _) (hv _ _ r' (hp _) hr')

theorem closed_checkProperty (hv : ClosedVisit P visit) {pairs : List Pair} {key : String}
    {p : Property} (hp : ∀ ctx, ChecksReport P (p.schema ctx))
    (h : checkProperty visit site n pairs key p = .ok r) : P r := by
  unfold checkProperty at h
  simp only at h
  split at h
  · cases h
    unfold missingProperty
    split
    · exact closed_problem hP _ _ _
    · exact hP.empty
  · obtain ⟨rs, hrs, h⟩ := Except.bind_eq_ok.mp h
    cases h
    rw [Report.mergeAll_append]
    refine hP.merge ?_ (hP.mapM hrs fun pair _ r => closed_checkPair hP hv hp)
    split
    · exact hP.mergeAll_map fun _ _ => closed_problem hP _ _ _
    · exact hP.empty

theorem closed_sweepPair {names : List (List Char)} {front : List Char} {p : Pair}
    (ih : ∀ names front r, ∀ v ∈ p.value, site.sweep names front v = .ok r → P r)
    (h : site.sweepPair names front p = .ok r) : P r := by
  unfold Site.sweepPair at h
  simp only at h
  split_ifs at h
  · cases h
    exact hP.empty
  · split at h
    · rename_i hv
      exact ih _ _ _ _ hv h
    · cases h
      unfold Site.brokenStep
      split <;> exact closed_problem hP _ _ _
  · cases h
    exact closed_problem hP _ _ _

theorem closed_sweep {names : List (List Char)} {front : List Char}
    (h : site.sweep names front n = .ok r) : P r := by
  induction n using Node.height_induction generalizing names front r with
  | step n ih =>
    cases n with
    | map pairs start stop =>
      rw [Site.sweep_map] at h
      obtain ⟨_, -, h⟩ := Except.bind_eq_ok.mp h
      cases hm : pairs.mapM (site.sweepPair names front) with
      | error fault => rw [hm] at h; cases h
      | ok rs =>
        rw [hm] at h
        cases h
        refine hP.mapM hm fun p hp r => closed_sweepPair hP fun names front r v hv h => ?_
        exact ih v (Node.height_value_lt hp hv start stop) h
    | scalar scalar => rw [Site.sweep_scalar] at h; cases h; exact hP.empty
    | seq items start stop => rw [Site.sweep_seq] at h; cases h; exact hP.empty

theorem closed_entryHovers (pairs : List Pair) : P (s.entryHovers site n pairs) := by
  unfold entryHovers
  split
  · simp only
    split
    · exact hP.mergeAll_map fun _ _ => hP.hover _
    · exact hP.empty
  · exact hP.empty

theorem closed_checkMap (hv : ClosedVisit P visit)
    (hs : AllParts (fun t => t.info.ChecksReport P) s) (h : s.checkMap visit site n = .ok r) :
    P r := by
  cases n with
  | map pairs start stop =>
    unfold checkMap at h
    obtain ⟨_, -, h⟩ := Except.bind_eq_ok.mp h
    obtain ⟨rs, hrs, h⟩ := Except.bind_eq_ok.mp h
    obtain ⟨unexpected, hu, h⟩ := Except.bind_eq_ok.mp h
    cases h
    refine hP.merge (hP.merge ?_ (closed_sweep hP hu)) (closed_entryHovers hP pairs)
    refine hP.mapM hrs fun e he r => ?_
    exact closed_checkProperty hP hv (all_of_mem_flatProperties hs he)
  | _ => cases h; exact closed_wrongType hP

/-- The report on the structure of a schema has the property if the schemas inside of it report
so. -/
theorem checkStructure_closed (hv : ClosedVisit P visit)
    (hs : AllParts (fun t => t.info.ChecksReport P) s)
    (h : checkStructure visit s site n = .ok r) : P r := by
  cases s with
  | anything info => cases h; exact hP.empty
  | bool info => cases h; exact closed_checkBool hP
  | number info rule => exact closed_checkNumber hP h
  | string info rule => cases h; exact closed_checkString hP rule
  | list info items duplicates => exact closed_checkList hP hv (fun t ht => hs t ⟨_, ht⟩) h
  | skillList info triggers =>
    refine closed_checkList hP hv (fun t ht => hs t ?_) h
    exact List.mem_singleton.mp ht
  | object info properties => exact closed_checkMap hP hv hs h
  | map info value describe => exact closed_checkMap hP hv hs h

theorem closedVisit_checkWithin (site : Site) (levels : Nat) :
    ClosedVisit P (checkWithin site levels) := by
  induction levels with
  | zero =>
    intro s n r _ h
    cases h
    exact hP.empty
  | succ levels ih =>
    intro s n r hs h
    obtain ⟨r₁, h₁, h⟩ := Except.bind_eq_ok.mp h
    obtain ⟨r₂, h₂, h⟩ := Except.bind_eq_ok.mp h
    cases h
    exact hP.merge (checkStructure_closed hP ih hs.allParts h₁) (hP.runChecks (hs.self _) h₂)

/-- **The local report on a node has the property if all checks that it runs report so.** -/
theorem check_closed (hs : ChecksReport P s) (h : s.check site n = .ok r) : P r :=
  closedVisit_checkWithin hP site _ s n r hs h

end Checks

/-! ## References -/

section References

variable (hP : Report.ClosedUnderLinks P)

include hP

theorem closed_complete (rule : StringRule) (scalar : Scalar) : P (rule.complete site scalar) := by
  unfold StringRule.complete
  simp only
  split
  · exact hP.completions _
  · exact hP.empty

theorem closed_reference (ref : Reference) (site : Site) (scalar : Scalar) :
    P (ref.report site scalar) := by
  unfold Reference.report
  simp only
  refine hP.merge (hP.merge (closed_stringRule hP.toClosed _ _ _) (closed_complete hP _ _)) ?_
  cases (site.registry.components ref.kind).find? (·.id = scalar.string) with
  | none => exact hP.empty
  | some c => exact hP.links _ _

/-- The visit reports with the property wherever references are resolved so. -/
def ClosedResolution (P : Report → Prop) (visit : Visit) : Prop :=
  ∀ s n r, ReferencesReport P s → visit s n = .ok r → P r

theorem closed_resolveItems (hv : ClosedResolution P visit) {rule : ItemsOf Schema}
    (hs : ∀ t ∈ rule.schemas, ReferencesReport P t) (h : resolveItems visit rule n = .ok r) :
    P r := by
  cases n with
  | seq items start stop =>
    cases rule with
    | anything => cases h; exact hP.empty
    | each t =>
      obtain ⟨rs, hrs, h⟩ := Except.bind_eq_ok.mp h
      cases h
      exact hP.mapM hrs fun item _ r => hv t item r (hs t (by simp [ItemsOf.schemas]))
    | inOrder ts =>
      obtain ⟨rs, hrs, h⟩ := Except.bind_eq_ok.mp h
      cases h
      exact hP.mapM hrs fun e he r => hv e.1 e.2 r (hs e.1 (List.of_mem_zip he).1)
  | _ => cases h; exact hP.empty

theorem closed_resolveProperty (hv : ClosedResolution P visit) {found : List Pair} {p : Property}
    (hp : ∀ ctx, ReferencesReport P (p.schema ctx))
    (h : resolveProperty visit site found p = .ok r) : P r := by
  obtain ⟨rs, hrs, h⟩ := Except.bind_eq_ok.mp h
  cases h
  refine hP.mapM hrs fun pair _ r hr => ?_
  split at hr
  · cases hr
    exact hP.empty
  · exact hv _ _ r (hp _) hr

theorem closed_resolveMap (hv : ClosedResolution P visit)
    (hs : AllParts (fun t => t.info.ReferencesReport P) s)
    (h : s.resolveMap visit site n = .ok r) : P r := by
  cases n with
  | map pairs start stop =>
    obtain ⟨rs, hrs, h⟩ := Except.bind_eq_ok.mp h
    cases h
    refine hP.merge (hP.mapM hrs fun e he r => ?_) (hP.completions _)
    obtain ⟨⟨key, p⟩, hm, rfl⟩ := List.mem_map.mp he
    exact closed_resolveProperty hP hv (all_of_mem_flatProperties hs hm)
  | _ => cases h; exact hP.completions _

theorem closed_skillLine (triggers : Bool) (scalar : Scalar) :
    P (skillLine triggers site scalar) := by
  unfold skillLine
  split
  · exact hP.empty
  · rcases (if scalar.isQuoted then _ else _ : Nat × Nat) with ⟨start, stop⟩
    refine hP.merge (Mechanic.closed_parse hP.toClosed _ _ _) ?_
    cases (Mechanic.parse site.source (site.source.slice start stop) start
      triggers).skillReference? with
    | none => exact hP.empty
    | some token => exact closed_reference hP _ _ _

theorem closed_skillLines (triggers : Bool) : P (skillLines triggers site n) := by
  cases n with
  | seq items start stop => exact hP.mergeAll_map fun s _ => closed_skillLine hP triggers s
  | _ => exact hP.empty

/-- What is resolved in the structure of a schema has the property if the schemas inside of it
resolve so. -/
theorem resolveStructure_closed (hv : ClosedResolution P visit)
    (hs : AllParts (fun t => t.info.ReferencesReport P) s)
    (h : resolveStructure visit s site n = .ok r) : P r := by
  cases s with
  | anything info => cases h; exact hP.empty
  | bool info => cases h; exact hP.empty
  | number info rule => cases h; exact hP.empty
  | string info rule =>
    cases h
    unfold resolveString
    cases n.scalar? with
    | none => exact hP.empty
    | some scalar => exact closed_complete hP rule scalar
  | list info items duplicates => exact closed_resolveItems hP hv (fun t ht => hs t ⟨_, ht⟩) h
  | skillList info triggers => cases h; exact closed_skillLines hP triggers
  | object info properties => exact closed_resolveMap hP hv hs h
  | map info value describe => exact closed_resolveMap hP hv hs h

theorem closedResolution_resolveWithin (site : Site) (levels : Nat) :
    ClosedResolution P (resolveWithin site levels) := by
  induction levels with
  | zero =>
    intro s n r _ h
    cases h
    exact hP.empty
  | succ levels ih =>
    intro s n r hs h
    obtain ⟨r₁, h₁, h⟩ := Except.bind_eq_ok.mp h
    obtain ⟨r₂, h₂, h⟩ := Except.bind_eq_ok.mp h
    cases h
    exact hP.merge (resolveStructure_closed hP ih hs.allParts h₁) (hP.runChecks (hs.self _) h₂)

/-- **What is resolved has the property if all checks of references report so.** -/
theorem resolve_closed (hs : ReferencesReport P s) (h : s.resolve site n = .ok r) : P r :=
  closedResolution_resolveWithin hP site _ s n r hs h

end References

end Schema

end PackLint
