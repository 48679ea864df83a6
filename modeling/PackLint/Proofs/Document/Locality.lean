import PackLint.Proofs.Document.Others
import PackLint.Proofs.Workspace.Pass

/-!
# What a look at a document alone takes from a workspace

A look at a document alone (`partial_process`) asks its workspace for the ids that other documents
have registered, and for nothing else. Such an id is disputed, and is neither registered nor
highlighted. All else that is said of the document is the same in every workspace with the same
settings and the same game data, and stands in the same order.

Results:
* `registration_eq_ok`: what the registering check says beside registering components.
* `Document.SameButIds`: two reports differ for the ids that are registered elsewhere, and no more.
* `Document.examine_local`: so do the reports on a document in two workspaces.
-/

namespace PackLint

/-! ## What the registering check reports -/

namespace Report

/-- The diagnostics of all but the ids that another document has registered. -/
def problems (r : Report) : List Diagnostic :=
  r.diagnostics.filter (·.code ≠ .duplicateComponentId)

/-- The report has neither a hover nor a link nor a completion. -/
structure Bare (r : Report) : Prop where
  hovers : r.hovers = []
  links : r.links = []
  completions : r.completions = []

variable {r s : Report}

theorem problems_append (r s : Report) : (r ++ s).problems = r.problems ++ s.problems :=
  List.filter_append ..

theorem Bare.append (hr : r.Bare) (hs : s.Bare) : (r ++ s).Bare :=
  ⟨List.append_eq_nil_iff.mpr ⟨hr.hovers, hs.hovers⟩,
    List.append_eq_nil_iff.mpr ⟨hr.links, hs.links⟩,
    List.append_eq_nil_iff.mpr ⟨hr.completions, hs.completions⟩⟩

end Report

namespace Registration

variable (kind : ComponentKind) (color : TextClass) (site : Site) (taken : List String)

/-- The highlight of the id of a pair. -/
def idHighlight (p : Pair) : Highlight := { range := idRange site p.key, color }

/-- The highlights of the pairs that register their ids, the last one first. -/
def idHighlights (pairs : List Pair) : List Highlight :=
  ((pairs.filter (registers taken)).map (idHighlight color site)).reverse

theorem bare_checkSpaces (key : Node) : (checkSpaces site key).Bare := by
  unfold checkSpaces
  split <;> exact ⟨rfl, rfl, rfl⟩

theorem bare_pairReport (p : Pair) : (pairReport kind color site taken p).Bare := by
  refine (bare_checkSpaces site p.key).append ?_
  split
  · exact ⟨rfl, rfl, rfl⟩
  · split <;> exact ⟨rfl, rfl, rfl⟩

/-- What is said of a pair beside a dispute is said of its key. -/
theorem problems_pairReport (p : Pair) :
    (pairReport kind color site taken p).problems = (checkSpaces site p.key).problems := by
  unfold pairReport
  rw [Report.problems_append]
  refine (congrArg _ ?_).trans (List.append_nil _)
  split
  · rfl
  · split <;> rfl

theorem highlights_pairReport (p : Pair) :
    (pairReport kind color site taken p).highlights =
      if registers taken p then [idHighlight color site p] else [] := by
  have hspaces : (checkSpaces site p.key).highlights = [] := by
    unfold checkSpaces
    split <;> rfl
  have hhighlights : (pairReport kind color site taken p).highlights =
      (if taken.contains (declaredId p.keyText) then .ofDiagnostic (dispute kind site p)
        else if p.value.isNone then Report.empty
        else .ofHighlight { range := idRange site p.key, color }).highlights ++
        (checkSpaces site p.key).highlights := rfl
  rw [hhighlights, hspaces, List.append_nil]
  unfold registers
  cases taken.contains (declaredId p.keyText) with
  | true => simp [Report.ofDiagnostic]
  | false => cases p.value <;> simp [Report.empty, Report.ofHighlight, idHighlight]

/-- **The reports on pairs highlight those that register their ids.** The disputes apart, all else
is the same whichever ids are taken. -/
theorem mergeAll_pairReports (pairs : List Pair) :
    (Report.mergeAll (pairs.map (pairReport kind color site taken))).Bare ∧
      (Report.mergeAll (pairs.map (pairReport kind color site taken))).problems =
        pairs.flatMap (fun p => (checkSpaces site p.key).problems) ∧
      (Report.mergeAll (pairs.map (pairReport kind color site taken))).highlights =
        idHighlights color site taken pairs := by
  induction pairs with
  | nil => exact ⟨⟨rfl, rfl, rfl⟩, rfl, rfl⟩
  | cons p pairs ih =>
    obtain ⟨hbare, hproblems, hhighlights⟩ := ih
    rw [List.map_cons, Report.mergeAll_cons, ← Report.append_eq_merge]
    refine ⟨(bare_pairReport kind color site taken p).append hbare, ?_, ?_⟩
    · rw [Report.problems_append, problems_pairReport, hproblems, List.flatMap_cons]
    · change (Report.mergeAll _).highlights ++ (pairReport kind color site taken p).highlights = _
      rw [hhighlights, highlights_pairReport]
      unfold idHighlights
      rw [List.filter_cons]
      split
      · rw [List.map_cons, List.reverse_cons]
      · rw [List.append_nil]

end Registration

/-- The registering check never ends in a fault, and highlights what it registers. -/
theorem registration_eq_ok (kind : ComponentKind) (color : TextClass) (site : Site) (n : Node) :
    ∃ r, registration kind color site n = .ok r ∧ r.Bare ∧
      r.problems =
        (n.pairs?.getD []).flatMap (fun p => (Registration.checkSpaces site p.key).problems) ∧
      r.highlights = Registration.idHighlights color site (site.registry.taken site.uri kind)
        (n.pairs?.getD []) := by
  cases n with
  | map pairs start stop =>
    obtain ⟨hbare, hproblems, hhighlights⟩ := Registration.mergeAll_pairReports kind color site
      (site.registry.taken site.uri kind) pairs
    refine ⟨_, registration_map .., hbare.append ⟨rfl, rfl, rfl⟩, ?_, ?_⟩
    · rw [Report.problems_append, hproblems]
      exact List.append_nil _
    · exact hhighlights
  | _ => exact ⟨_, rfl, ⟨rfl, rfl, rfl⟩, rfl, rfl⟩

/-! ## Documents -/

namespace Document

/-- The highlights of the ids of a document that it registers. -/
def idHighlights (doc : Document) (registry : Registry) : List Highlight :=
  match doc.binding with
  | some (.kind file) => Registration.idHighlights file.idColor doc.place
      (registry.taken doc.uri file.declares) (doc.entries file.declares)
  | _ => []

/-- Two reports on a document differ at most for ids that other documents have registered: in one
registry or the other, such an id is disputed, or registered and highlighted. -/
structure SameButIds (doc : Document) (registry registry' : Registry) (r r' : Report) : Prop where
  hovers : r.hovers = r'.hovers
  links : r.links = r'.links
  completions : r.completions = r'.completions
  problems : r.problems = r'.problems
  components : ∀ kind,
    (r.components.of kind).filter (fun c => !(registry.taken doc.uri kind).contains c.id &&
        !(registry'.taken doc.uri kind).contains c.id) =
      (r'.components.of kind).filter (fun c => !(registry.taken doc.uri kind).contains c.id &&
        !(registry'.taken doc.uri kind).contains c.id)
  highlights : ∃ front back, r.highlights = front ++ doc.idHighlights registry ++ back ∧
    r'.highlights = front ++ doc.idHighlights registry' ++ back

variable {settings : Settings} {data : GameData} {registry registry' : Registry} {doc : Document}
variable {r r' : Report}

theorem SameButIds.append_left (h : doc.SameButIds registry registry' r r') (front : Report) :
    doc.SameButIds registry registry' (front ++ r) (front ++ r') where
  hovers := congrArg (front.hovers ++ ·) h.hovers
  links := congrArg (front.links ++ ·) h.links
  completions := congrArg (front.completions ++ ·) h.completions
  problems := by rw [Report.problems_append, Report.problems_append, h.problems]
  components kind := by
    change (((front.components.append r.components).of kind).filter _) =
      ((front.components.append r'.components).of kind).filter _
    rw [ComponentTable.of_append, ComponentTable.of_append, List.filter_append, List.filter_append,
      h.components kind]
  highlights := by
    obtain ⟨before, behind, hr, hr'⟩ := h.highlights
    refine ⟨before, behind ++ front.highlights, ?_, ?_⟩
    · change r.highlights ++ front.highlights = _
      rw [hr, List.append_assoc]
    · change r'.highlights ++ front.highlights = _
      rw [hr', List.append_assoc]

/-- The components of the ids that nobody else has registered are the same. -/
theorem filter_components (hp : doc.InPack)
    (h : doc.schemaReport .alone (doc.site settings data registry) = .ok r)
    (h' : doc.schemaReport .alone (doc.site settings data registry') = .ok r')
    (kind : ComponentKind) :
    (r.components.of kind).filter (fun c => !(registry.taken doc.uri kind).contains c.id &&
        !(registry'.taken doc.uri kind).contains c.id) =
      (r'.components.of kind).filter (fun c => !(registry.taken doc.uri kind).contains c.id &&
        !(registry'.taken doc.uri kind).contains c.id) := by
  have hfree := Registration.filter_enrol doc.place fun id =>
    !(registry.taken doc.uri kind).contains id && !(registry'.taken doc.uri kind).contains id
  rw [components_schemaReport hp h, components_schemaReport hp h', hfree, hfree, List.filter_filter,
    List.filter_filter]
  congr 1
  refine List.filter_congr fun p _ => ?_
  unfold Registration.registers
  cases (registry.taken doc.uri kind).contains (declaredId p.keyText) <;>
    cases (registry'.taken doc.uri kind).contains (declaredId p.keyText) <;> simp

/-- The report of the registering check stands between the same reports, if there is one. -/
theorem schemaReport_around (hp : doc.InPack) :
    Except.Rel (fun r r' => r = .empty ∧ r' = .empty ∧ (∀ kind, doc.entries kind = []) ∨
        ∃ file tree, doc.binding = some (.kind file) ∧ doc.tree = some tree ∧
          Pack.AroundRegistration file (doc.site settings data registry)
            (doc.site settings data registry') tree r r')
      (doc.schemaReport .alone (doc.site settings data registry))
      (doc.schemaReport .alone (doc.site settings data registry')) := by
  have hsite : (doc.site settings data registry).SameDocument (doc.site settings data registry') :=
    ⟨registry', rfl⟩
  unfold schemaReport
  split
  · rename_i binding tree hbinding htree
    obtain ⟨file, rfl⟩ := hp binding hbinding
    exact (Pack.check_around hsite).bind fun r r' h => .ok (.inr ⟨file, tree, hbinding, htree, h⟩)
  · rename_i hnone
    refine .ok (.inl ⟨rfl, rfl, fun kind => ?_⟩)
    unfold entries
    split
    · rename_i hbinding htree
      exact absurd htree (hnone _ _ hbinding)
    · rfl

theorem idHighlights_of_no_entries (h : ∀ kind, doc.entries kind = []) (registry : Registry) :
    doc.idHighlights registry = [] := by
  unfold idHighlights
  split
  · rw [h]
    rfl
  · rfl

theorem idHighlights_of_file {file : FileKind} {tree : Node}
    (hbinding : doc.binding = some (.kind file)) (htree : doc.tree = some tree)
    (registry : Registry) :
    doc.idHighlights registry = Registration.idHighlights file.idColor doc.place
      (registry.taken doc.uri file.declares) (tree.pairs?.getD []) := by
  unfold idHighlights entries
  rw [hbinding, htree]
  simp only [if_true]

/-- What the schema reports on a document alone differs for the ids of other documents at most. -/
theorem schemaReport_local (hp : doc.InPack) :
    Except.Rel (doc.SameButIds registry registry')
      (doc.schemaReport .alone (doc.site settings data registry))
      (doc.schemaReport .alone (doc.site settings data registry')) := by
  have haround := @schemaReport_around settings data registry registry' doc hp
  have hcomponents := @filter_components settings data registry registry' doc
  generalize doc.schemaReport .alone (doc.site settings data registry) = x at haround hcomponents
  generalize doc.schemaReport .alone (doc.site settings data registry') = y at haround hcomponents
  cases haround with
  | error fault => exact .error fault
  | @ok r r' h =>
    refine .ok ?_
    have hcomponents := hcomponents hp rfl rfl
    rcases h with ⟨rfl, rfl, hentries⟩ | ⟨file, tree, hbinding, htree, h⟩
    · refine ⟨rfl, rfl, rfl, rfl, hcomponents, [], [], ?_⟩
      rw [idHighlights_of_no_entries hentries, idHighlights_of_no_entries hentries]
      exact ⟨rfl, rfl⟩
    · obtain ⟨front, s, s', back, hs, hs', rfl, rfl⟩ := h
      obtain ⟨_, hok, hbare, hproblems, hhighlights⟩ := registration_eq_ok file.declares
        file.idColor (doc.site settings data registry) tree
      obtain ⟨_, hok', hbare', hproblems', hhighlights'⟩ := registration_eq_ok file.declares
        file.idColor (doc.site settings data registry') tree
      cases hok.symm.trans hs
      cases hok'.symm.trans hs'
      refine ⟨?_, ?_, ?_, ?_, hcomponents, back.highlights, front.highlights, ?_, ?_⟩
      · change front.hovers ++ (s.hovers ++ back.hovers) =
          front.hovers ++ (s'.hovers ++ back.hovers)
        rw [hbare.hovers, hbare'.hovers]
      · change front.links ++ (s.links ++ back.links) = front.links ++ (s'.links ++ back.links)
        rw [hbare.links, hbare'.links]
      · change front.completions ++ (s.completions ++ back.completions) =
          front.completions ++ (s'.completions ++ back.completions)
        rw [hbare.completions, hbare'.completions]
      · rw [Report.problems_append, Report.problems_append, Report.problems_append,
          Report.problems_append, hproblems, hproblems']
        rfl
      · rw [idHighlights_of_file hbinding htree]
        exact congrArg (back.highlights ++ · ++ front.highlights) hhighlights
      · rw [idHighlights_of_file hbinding htree]
        exact congrArg (back.highlights ++ · ++ front.highlights) hhighlights'

/-- **The looks at a document alone in two workspaces with the same settings and the same game data
have reports that differ for the ids at most that other documents have registered**, or end in the
same fault. If none of the ids of the document are registered by others, nothing differs. -/
theorem examine_local (hp : doc.InPack) {ws ws' : Workspace}
    (hsettings : ws.settings = ws'.settings) (hdata : ws.data = ws'.data) :
    Except.Rel ((doc.read ws.settings).1.SameButIds ws.registry ws'.registry)
        (doc.examine ws.settings ws.data ws.registry .alone).2
        (doc.examine ws'.settings ws'.data ws'.registry .alone).2 ∧
      ((doc.read ws.settings).1.Unclaimed ws.registry →
        (doc.read ws.settings).1.Unclaimed ws'.registry →
        doc.examine ws.settings ws.data ws.registry .alone =
          doc.examine ws'.settings ws'.data ws'.registry .alone) := by
  rw [← hsettings, ← hdata]
  refine ⟨?_, examine_unclaimed hp⟩
  have hreport := @schemaReport_local ws.settings ws.data ws.registry ws'.registry
    (doc.read ws.settings).1 hp.read
  rw [examine_eq, examine_eq]
  generalize doc.read ws.settings = outcome at hreport ⊢
  obtain ⟨doc, front⟩ := outcome
  cases front with
  | error fault => exact .error fault
  | ok front =>
    simp only [lookAt] at hreport ⊢
    generalize doc.schemaReport .alone (doc.site ws.settings ws.data ws.registry) = x at hreport
    generalize doc.schemaReport .alone (doc.site ws.settings ws.data ws'.registry) = y at hreport
    cases hreport with
    | error fault => exact .error fault
    | ok h => exact .ok (h.append_left front)

/-- A document that declares a skill. -/
def healing : Document where
  uri := "file:///b.yml"
  source := .ofString "heal: \x7bSkills: []\x7d\n"
  binding := some (.kind .skill)

/-- A workspace without documents. -/
def vacant : Workspace := {}

/-- A workspace in which another document has registered that skill. -/
def healed : Workspace where
  documents := [{
    uri := "file:///a.yml"
    source := .ofString ""
    report := some { components := .single .skills [{ id := "heal" }] } }]

theorem examine_healing :
    healing.InPack ∧ vacant.settings = healed.settings ∧ vacant.data = healed.data ∧
      healed.registry.taken healing.uri .skills = ["heal"] ∧
      Except.Rel ((healing.read vacant.settings).1.SameButIds vacant.registry healed.registry)
        (healing.examine vacant.settings vacant.data vacant.registry .alone).2
        (healing.examine healed.settings healed.data healed.registry .alone).2 := by
  have hp : healing.InPack := fun binding h => ⟨.skill, (Option.some.inj h).symm⟩
  have hs : vacant.settings = healed.settings := rfl
  have hd : vacant.data = healed.data := rfl
  have ht : healed.registry.taken healing.uri .skills = ["heal"] := by decide +kernel
  exact ⟨hp, hs, hd, ht, (examine_local hp hs hd).1⟩

end Document

end PackLint
