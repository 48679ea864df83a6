import PackLint.Proofs.Entries
import PackLint.Schema.Resolve

/-!
# What a reference reports

Whether a reference is right is decided by the options of a string, and where it leads by a search
among the components (both in `resolve_reference`). Both look for the same id, so a reference is
either right and leads to the first component that has the id, or it is wrong and leads nowhere. The
components are proposed one by one, so an id is proposed as often as it is registered.

Results:
* `Reference.resolve_schema`: the references of a scalar are what `Reference.report` says.
* `Reference.reaches_report`: a known id is described and linked.
* `Reference.misses_report`: an unknown id is a problem, and nothing else.
* `Reference.proposesOnce_iff`: when every known id is proposed once.
-/

namespace PackLint.Reference

variable (ref : Reference) (site : Site) (s : Scalar)

/-- The report on a scalar that refers to a component: it is coloured, described, and linked to each
declaration of the component in order. -/
structure Reaches (c : Component) (r : Report) : Prop where
  diagnostics : r.diagnostics = []
  highlights : r.highlights = [{ range := site.nodeRange (.scalar s), color := ref.color }]
  hovers : r.hovers = [{ range := site.nodeRange (.scalar s), contents := ref.describe c }]
  links : r.links = c.declarations.map fun d =>
    { fromUri := site.uri, fromRange := site.nodeRange (.scalar s), toUri := d.uri,
      toSelectionRange := d.keyRange, toRange := d.pairRange }

/-- The report on a scalar that refers to nothing: a single problem. -/
structure Misses (r : Report) : Prop where
  diagnostics : ∃ message, r.diagnostics =
    [{ range := site.nodeRange (.scalar s), message, code := .invalidValue }]
  highlights : r.highlights = []
  hovers : r.hovers = []
  links : r.links = []

/-- The report has one entry of proposals for the scalar, with these labels. -/
def Proposes (labels : List String) (r : Report) : Prop :=
  ∃ items, r.completions = [{ range := site.nodeRange (.scalar s), items }] ∧
    items.map (·.label) = labels

/-- The report has one entry of proposals for the scalar, in which the id of each component stands
once. -/
def ProposesOnce (components : List Component) (r : Report) : Prop :=
  ∃ labels, Proposes site s labels r ∧ ∀ c ∈ components, labels.count c.id = 1

variable {ref site s} {components : List Component} {c : Component}

/-! ## The rule -/

theorem mismatch?_of_mem (hc : c ∈ components) (ctx : Context) :
    (ref.rule components).mismatch? ref.info ctx c.id = none := by
  have hany : ((components.map fun c => StringOption.mk c.id (some
      { label := c.id, kind := ref.proposal, documentation := some (ref.describe c) })).map
        (·.text)).any (StringRule.sameText true · c.id) = true := by
    rw [List.map_map]
    refine List.any_eq_true.mpr ⟨c.id, List.mem_map_of_mem (f := (·.id)) hc, ?_⟩
    exact decide_eq_true rfl
  exact if_pos hany

theorem mismatch?_of_not_mem {text : String} (h : ∀ c ∈ components, c.id ≠ text) (ctx : Context) :
    ∃ message, (ref.rule components).mismatch? ref.info ctx text = some message := by
  have hany : ¬ ((components.map fun c => StringOption.mk c.id (some
      { label := c.id, kind := ref.proposal, documentation := some (ref.describe c) })).map
        (·.text)).any (StringRule.sameText true · text) = true := by
    rw [List.map_map, List.any_eq_true]
    rintro ⟨id, hid, hsame⟩
    obtain ⟨c, hc, rfl⟩ := List.mem_map.mp hid
    exact h c hc (of_decide_eq_true hsame)
  exact ⟨_, if_neg hany⟩

/-- The proposals of the ids of components for a scalar. -/
def proposals (ref : Reference) (site : Site) (s : Scalar) (components : List Component) :
    Completion where
  range := site.nodeRange (.scalar s)
  items := components.map fun c =>
    { label := c.id, kind := ref.proposal, documentation := some (ref.describe c) }

theorem complete_eq (components : List Component) :
    (ref.rule components).complete site s = .ofCompletion (ref.proposals site s components) := by
  unfold StringRule.complete
  simp only [rule, List.map_map]
  rfl

theorem check_of_mem (hc : c ∈ components) (hid : c.id = s.string) :
    (ref.rule components).check ref.info site s =
      .ofHighlight { range := site.nodeRange (.scalar s), color := ref.color } := by
  unfold StringRule.check
  simp only
  rw [← hid, mismatch?_of_mem hc]
  rfl

theorem check_of_not_mem (h : ∀ c ∈ components, c.id ≠ s.string) :
    ∃ message, (ref.rule components).check ref.info site s =
      site.problem (.scalar s) .invalidValue message := by
  have hmismatch : ∃ message, (ref.rule components).mismatch? ref.info
      (.ofNode site (.scalar s)) s.string = some message := mismatch?_of_not_mem h _
  obtain ⟨message, hmessage⟩ := hmismatch
  refine ⟨message, ?_⟩
  unfold StringRule.check
  simp only
  rw [hmessage]

/-! ## The report -/

/-- The references of a scalar are what the report on the reference says. -/
theorem resolve_schema : ref.schema.resolve site (.scalar s) = .ok (ref.report site s) :=
  congrArg Except.ok ((Report.empty_merge _).trans (Report.empty_merge _))

theorem report_of_find? (h : (site.registry.components ref.kind).find? (·.id = s.string) = some c) :
    ref.report site s =
      { ref.target site s c with
        highlights := [{ range := site.nodeRange (.scalar s), color := ref.color }]
        completions := [ref.proposals site s (site.registry.components ref.kind)] } := by
  have hid : c.id = s.string := by simpa using List.find?_some h
  unfold report
  simp only
  rw [check_of_mem (List.mem_of_find?_eq_some h) hid, complete_eq, h]
  rfl

theorem report_of_not_mem (h : ∀ c ∈ site.registry.components ref.kind, c.id ≠ s.string) :
    ∃ message, ref.report site s =
      { diagnostics := [{ range := site.nodeRange (.scalar s), message, code := .invalidValue }]
        completions := [ref.proposals site s (site.registry.components ref.kind)] } := by
  have hfind : (site.registry.components ref.kind).find? (·.id = s.string) = none :=
    List.find?_eq_none.mpr fun c hc hid => h c hc (of_decide_eq_true hid)
  have hwrong : ∃ message, (ref.rule (site.registry.components ref.kind)).check ref.info site s =
      site.problem (.scalar s) .invalidValue message := check_of_not_mem h
  obtain ⟨message, hcheck⟩ := hwrong
  refine ⟨message, ?_⟩
  unfold report
  simp only
  rw [hcheck, complete_eq, hfind]
  rfl

/-- **A known id is described and linked**, to the first component that has it. -/
theorem reaches_report (h : (site.registry.components ref.kind).find? (·.id = s.string) = some c) :
    ref.Reaches site s c (ref.report site s) := by
  rw [report_of_find? h]
  exact ⟨rfl, rfl, rfl, rfl⟩

/-- **An unknown id is a problem, and nothing else.** -/
theorem misses_report (h : ∀ c ∈ site.registry.components ref.kind, c.id ≠ s.string) :
    Misses site s (ref.report site s) := by
  obtain ⟨message, hreport⟩ := report_of_not_mem h
  rw [hreport]
  exact ⟨⟨message, rfl⟩, rfl, rfl, rfl⟩

/-- **The known ids are proposed one by one**, whatever the scalar refers to. -/
theorem proposes_report :
    Proposes site s ((site.registry.components ref.kind).map (·.id)) (ref.report site s) := by
  refine ⟨(ref.proposals site s (site.registry.components ref.kind)).items, ?_, ?_⟩
  · cases hfind : (site.registry.components ref.kind).find? (·.id = s.string) with
    | some c =>
      rw [report_of_find? hfind]
      rfl
    | none =>
      obtain ⟨message, hreport⟩ : ∃ message, ref.report site s = _ :=
        report_of_not_mem fun c hc hid => List.find?_eq_none.mp hfind c hc (decide_eq_true hid)
      rw [hreport]
      rfl
  · unfold proposals
    rw [List.map_map]
    rfl

/-- **Every known id is proposed once iff no two components have the same id.** -/
theorem proposesOnce_iff :
    ProposesOnce site s (site.registry.components ref.kind) (ref.report site s) ↔
      ((site.registry.components ref.kind).map (·.id)).Nodup := by
  rw [List.nodup_iff_count_eq_one]
  obtain ⟨items, hcompletions, hlabels⟩ := @proposes_report ref site s
  constructor
  · rintro ⟨labels, ⟨items', hcompletions', rfl⟩, honce⟩ id hid
    obtain ⟨c, hc, rfl⟩ := List.mem_map.mp hid
    rw [hcompletions] at hcompletions'
    cases hcompletions'
    rw [← hlabels]
    exact honce c hc
  · intro honce
    exact ⟨_, ⟨items, hcompletions, hlabels⟩, fun c hc => honce c.id (List.mem_map_of_mem hc)⟩

end PackLint.Reference
