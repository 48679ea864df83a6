import PackLint.Proofs.Workspace.FirstWins

/-!
# Looking at all documents together

Once all documents have been looked at alone, the others have registered, seen from any document,
exactly the ids that belong to them. A look at a document among the others therefore registers what
the look at it alone has registered, and the registry stays as it is while all documents are looked
at together: each is told what a look at it by itself (`process`) would tell.

Ids that differ in nothing but halves of surrogate pairs are one id here
(`Yaml.Scan.numericEscape`), so documents that write such escapes in their keys are left aside.

Results:
* `Workspace.Checked.components_look`: a full look registers what the look alone has registered.
* `Workspace.Checked.disputes_allTogether`: which entries it disputes.
* `Workspace.process_eq_examineAll`: a single document is told the same as in a look at all.
* `Workspace.owner_registers`: whose components there are after a look at all, and whose entries
  are disputed.
-/

namespace PackLint

namespace Workspace

variable {settings : Settings} {data : GameData} {depth : Depth}
variable {docs : List Document} {doc : Document}

/-! ## Looks among the others -/

/-- **A look at a document among the others registers what the look at it alone has registered.** -/
theorem Checked.components_look (h : Checked settings docs) (hd : doc ∈ docs) {r : Report}
    (hr : (doc.examine settings data (registryOf docs) depth).2 = .ok r) :
    doc.report.map (·.components) = some r.components := by
  obtain ⟨before, after, hdocs⟩ := List.append_of_mem hd
  obtain ⟨last, hlast, hcomponents⟩ := h.firstWins before doc after hdocs
  have hn : ((before ++ doc :: after).map (·.uri)).Nodup := hdocs ▸ h.nodup_uris
  rw [hlast, Option.map_some, Option.some_inj]
  refine ComponentTable.ext_of fun kind => ?_
  rw [Document.components_examine (h.inPack doc hd) hr, (h.isRead doc hd).fst_examine hr,
    hcomponents]
  change _ = Registration.enrol doc.place ((doc.entries kind).filter _)
  congr 1
  refine List.filter_congr fun p hp => ?_
  unfold Registration.registers
  rw [h.contains_taken]
  cases hvalue : p.value with
  | none => rfl
  | some v =>
    -- the document declares the id itself, so the owner stands before it or is the document
    have hdeclares : doc.declares kind (declaredId p.keyText) = true :=
      List.any_eq_true.mpr ⟨p, hp, by simp [hvalue]⟩
    rw [hdocs, ownedElsewhere_of_declares hn hdeclares]

/-- The look at a document among the others. -/
def together (settings : Settings) (data : GameData) (docs : List Document) (doc : Document) :
    Document × Except Fault Report :=
  doc.examine settings data (registryOf docs) .full

/-- All documents have a report when they are looked at together. -/
def AllReport (settings : Settings) (data : GameData) (docs : List Document) : Prop :=
  ∀ doc ∈ docs, ∃ r, (together settings data docs doc).2 = .ok r

/-- The documents after they have been looked at together. -/
def allTogether (settings : Settings) (data : GameData) (docs : List Document) : List Document :=
  docs.map fun doc => (together settings data docs doc).1

theorem uris_allTogether (settings : Settings) (data : GameData) (docs : List Document) :
    (allTogether settings data docs).map (·.uri) = docs.map (·.uri) := by
  unfold allTogether
  rw [List.map_map]
  exact List.map_congr_left fun doc _ => Document.uri_examine doc

namespace Checked

variable (h : Checked settings docs)

include h

/-- A look among the others changes nothing but the report, and registers the same. -/
theorem fst_together (hall : AllReport settings data docs) (hd : doc ∈ docs) :
    ∃ r, (together settings data docs doc).2 = .ok r ∧
      (together settings data docs doc).1 = { doc with report := some r } ∧
      doc.report.map (·.components) = some r.components := by
  obtain ⟨r, hr⟩ := hall doc hd
  exact ⟨r, hr, (h.isRead doc hd).fst_examine hr, h.components_look hd hr⟩

/-- Looks among the others leave the ids that documents declare as they are. -/
theorem any_declares_together (hall : AllReport settings data docs) {front : List Document}
    (hfront : ∀ doc ∈ front, doc ∈ docs) (kind : ComponentKind) (id : String) :
    (front.map fun doc => (together settings data docs doc).1).any (·.declares kind id) =
      front.any (·.declares kind id) := by
  rw [List.any_map, Bool.eq_iff_iff, List.any_eq_true, List.any_eq_true]
  refine exists_congr fun doc => and_congr_right fun hd => ?_
  obtain ⟨_, -, hlook, -⟩ := h.fst_together hall (hfront doc hd)
  rw [Function.comp_apply, hlook]
  rfl

/-- **While all documents are looked at together, the registry stays as it is.** -/
theorem pass_full (data : GameData) :
    ((pass settings data .full [] docs).2 = .ok () ↔ AllReport settings data docs) ∧
      ((pass settings data .full [] docs).2 = .ok () →
        (pass settings data .full [] docs).1 = allTogether settings data docs) := by
  refine pass_of_looks
    (fun done rest => registryOf (done ++ rest) = registryOf docs ∧ ∀ doc ∈ rest, doc ∈ docs)
    ?_ ?_ ⟨rfl, fun _ hd => hd⟩
  · rintro done doc rest ⟨hregistry, -⟩
    rw [hregistry]
    rfl
  · rintro done doc rest r ⟨hregistry, hrest⟩ hr
    have hd := hrest doc List.mem_cons_self
    refine ⟨?_, fun d hd => hrest d (List.mem_cons_of_mem doc hd)⟩
    rw [← List.append_cons, ← hregistry]
    refine registryOf_look (Document.uri_examine doc) ?_
    have hdoc : (together settings data docs doc).1 = { doc with report := some r } :=
      (h.isRead doc hd).fst_examine hr
    rw [hdoc, h.components_look hd hr]
    rfl

theorem registryOf_allTogether (hall : AllReport settings data docs) :
    registryOf (allTogether settings data docs) = registryOf docs := by
  unfold registryOf allTogether
  rw [List.filterMap_map]
  refine List.filterMap_congr fun doc hd => ?_
  obtain ⟨r, -, hdoc, hcomponents⟩ := h.fst_together hall hd
  rw [Function.comp_apply, hdoc]
  obtain ⟨last, hlast, hsame⟩ := Option.map_eq_some_iff.mp hcomponents
  rw [hlast, Option.map_some, Option.map_some, hsame]

/-- Documents that have been looked at together belong to each other as before. -/
theorem checked_allTogether (hall : AllReport settings data docs) :
    Checked settings (allTogether settings data docs) := by
  have hmem : ∀ d ∈ allTogether settings data docs, ∃ doc ∈ docs, ∃ r,
      d = { doc with report := some r } := by
    intro d hd
    obtain ⟨doc, hdoc, rfl⟩ := List.mem_map.mp hd
    obtain ⟨r, -, hlook, -⟩ := h.fst_together hall hdoc
    exact ⟨doc, hdoc, r, hlook⟩
  refine ⟨?_, ?_, ?_, ?_⟩
  · rw [uris_allTogether]
    exact h.nodup_uris
  · intro d hd
    obtain ⟨doc, hdoc, r, rfl⟩ := hmem d hd
    exact h.inPack doc hdoc
  · intro d hd
    obtain ⟨doc, hdoc, r, rfl⟩ := hmem d hd
    obtain ⟨front, hread⟩ := h.isRead doc hdoc
    exact Document.isRead_of_read hread _
  · intro before doc after hsplit
    obtain ⟨front, back, rfl, rfl, hback⟩ := List.map_eq_append_iff.mp hsplit
    obtain ⟨d, rest, rfl, rfl, rfl⟩ := List.map_eq_cons_iff.mp hback
    obtain ⟨last, hlast, hcomponents⟩ := h.firstWins front d rest rfl
    obtain ⟨r, -, hlook, hsame⟩ :=
      h.fst_together hall (List.mem_append_right _ List.mem_cons_self)
    rw [hlast, Option.map_some, Option.some_inj] at hsame
    refine ⟨r, by rw [hlook], fun kind => ?_⟩
    rw [← hsame, hcomponents, hlook]
    unfold registering
    simp only [h.any_declares_together hall fun _ he => List.mem_append_left _ he]
    rfl

/-- **A look among the others disputes each entry whose id belongs to another document.** -/
theorem disputes_allTogether (hall : AllReport settings data docs)
    (hd : doc ∈ allTogether settings data docs) : ∃ r, doc.report = some r ∧
      r.disputes = doc.disputesOf (ownedElsewhere (allTogether settings data docs) doc.uri) := by
  obtain ⟨first, hfirst, rfl⟩ := List.mem_map.mp hd
  obtain ⟨r, hr, hlook, -⟩ := h.fst_together hall hfirst
  refine ⟨r, by rw [hlook], ?_⟩
  have hdisputes : r.disputes = (together settings data docs first).1.disputesOf fun kind id =>
      ((registryOf docs).taken first.uri kind).contains id :=
    Document.disputes_examine (h.inPack first hfirst) hr
  have huri : (together settings data docs first).1.uri = first.uri := Document.uri_examine first
  rw [hdisputes, huri, ← h.registryOf_allTogether hall]
  simp only [(h.checked_allTogether hall).contains_taken]

end Checked

/-! ## Ending without a fault -/

/-- Whether a look at all documents ends without a fault. -/
def endsWell (ws : Workspace) : Bool :=
  match ws.examineAll.2 with
  | .ok _ => true
  | .error _ => false

theorem examineAll_of_endsWell {ws : Workspace} (h : ws.endsWell) : ws.examineAll.2 = .ok () := by
  unfold endsWell at h
  split at h
  · rename_i heq
    exact heq
  · cases h

/-! ## Two documents that declare the same ids -/

/-- The first document declares `heal` and names `zap` without a value; the second one does the
other way round, and refers to the first. -/
def rivals : Workspace where
  documents := [
    unexamined "file:///a.yml" (.ofString "heal: \x7bSkills: []\x7d\nzap:\n") (some .skill),
    unexamined "file:///b.yml" (.ofString
      "heal:\nzap: \x7bSkills: [], OnCooldownSkill: heal\x7d\nzap.Cooldown: 5\n") (some .skill)]

theorem nodup_uris_rivals : rivals.uris.Nodup := by decide

theorem inPack_rivals : ∀ doc ∈ rivals.documents, doc.InPack := by
  simp [rivals, (Document.proper_unexamined ..).inPack]

theorem endsWell_rivals : rivals.endsWell := by decide +kernel

/-! ## Workspaces -/

section Workspaces

variable {ws : Workspace} (hn : ws.uris.Nodup) (hp : ∀ doc ∈ ws.documents, doc.InPack)

include hn hp

/-- A look at all documents goes on with all of them together, if none of them ends in a fault
alone. -/
theorem examineAll_of_checkAll (h : ws.checkAll.2 = .ok ()) :
    (ws.examineAll.2 = .ok () ↔ AllReport ws.settings ws.data ws.checkAll.1.documents) ∧
      (ws.examineAll.2 = .ok () → ws.examineAll.1 =
        { ws with documents := allTogether ws.settings ws.data ws.checkAll.1.documents }) := by
  have hchecked := checked_checkAll hn hp h
  have heq := checkAll_eq hn
  generalize (pass ws.settings ws.data .alone [] ws.withoutReports.documents).1 = docs at heq
  rw [heq] at hchecked ⊢
  have hall : ws.examineAll =
      ({ ws with documents := (pass ws.settings ws.data .full [] docs).1 },
        (pass ws.settings ws.data .full [] docs).2) := by
    unfold Workspace.examineAll
    rw [heq] at h ⊢
    simp only at h
    rw [h]
    exact examineEach_eq hchecked.nodup_uris (List.nil_append _).symm .full
  obtain ⟨hok, hdocs⟩ := hchecked.pass_full ws.data
  rw [hall]
  refine ⟨hok, fun h => ?_⟩
  simp only
  rw [hdocs h]

omit hn hp in
theorem checkAll_of_examineAll (h : ws.examineAll.2 = .ok ()) : ws.checkAll.2 = .ok () := by
  unfold Workspace.examineAll at h
  split at h
  · cases h
  · rename_i heq
    rw [heq]

omit hp in
theorem examine_checkAll {doc : Document} (hd : doc ∈ ws.checkAll.1.documents) (depth : Depth) :
    (ws.checkAll.1.examine depth doc.uri).2 =
      (doc.examine ws.settings ws.data (registryOf ws.checkAll.1.documents) depth).2 := by
  have hnodup : ws.checkAll.1.uris.Nodup := uris_checkAll hn ▸ hn
  obtain ⟨before, after, hdocs⟩ := List.append_of_mem hd
  rw [examine_at hnodup hdocs]
  simp only
  rw [checkAll_eq hn]

/-- After a look at all documents a document is kept with what it is told among the others. -/
theorem get?_examineAll (h : ws.examineAll.2 = .ok ()) {doc : Document}
    (hd : doc ∈ ws.checkAll.1.documents) :
    ∃ r, (together ws.settings ws.data ws.checkAll.1.documents doc).2 = .ok r ∧
      ws.examineAll.1.get? doc.uri = some { doc with report := some r } := by
  have hc := checkAll_of_examineAll h
  have hchecked := checked_checkAll hn hp hc
  obtain ⟨hall, hdocs⟩ := examineAll_of_checkAll hn hp hc
  have hall := hall.mp h
  obtain ⟨r, hr, hlook, -⟩ := hchecked.fst_together hall hd
  refine ⟨r, hr, ?_⟩
  rw [hdocs h]
  exact find?_uri (hchecked.checked_allTogether hall).nodup_uris
    (List.mem_map.mpr ⟨doc, hd, hlook⟩)

/-- **A single document is told the same as in a look at all documents.** -/
theorem process_eq_examineAll (h : ws.examineAll.2 = .ok ()) {uri : String} (hu : uri ∈ ws.uris) :
    ∃ doc r, ws.examineAll.1.get? uri = some doc ∧ doc.report = some r ∧
      (ws.process uri).2 = .ok r := by
  have hc := checkAll_of_examineAll h
  obtain ⟨doc, hd, rfl⟩ := List.mem_map.mp (uris_checkAll hn ▸ hu : uri ∈ ws.checkAll.1.uris)
  obtain ⟨r, hr, hkept⟩ := get?_examineAll hn hp h hd
  refine ⟨_, r, hkept, rfl, ?_⟩
  obtain ⟨first, hfirst, huri⟩ := List.mem_map.mp hu
  have hget : ws.get doc.uri = .ok first := by
    have hfound : ws.get? first.uri = some first := find?_uri hn hfirst
    unfold Workspace.get
    rw [← huri, hfound]
  have hexamine := examine_checkAll hn hd .full
  unfold Workspace.process
  rw [hget]
  cases hcheck : ws.checkAll with
  | mk ws' answer =>
    rw [hcheck] at hc hexamine hr
    cases hc
    exact hexamine.trans hr

omit hn hp in
theorem process_rivals : rivals.uris.Nodup ∧ (∀ doc ∈ rivals.documents, doc.InPack) ∧
    rivals.examineAll.2 = .ok () ∧ "file:///b.yml" ∈ rivals.uris ∧
    ∃ doc r, rivals.examineAll.1.get? "file:///b.yml" = some doc ∧ doc.report = some r ∧
      (rivals.process "file:///b.yml").2 = .ok r := by
  have h := examineAll_of_endsWell endsWell_rivals
  have hu : "file:///b.yml" ∈ rivals.uris := by decide
  exact ⟨nodup_uris_rivals, inPack_rivals, h, hu,
    process_eq_examineAll nodup_uris_rivals inPack_rivals h hu⟩

/-- **After a look at all documents an id has one component, which belongs to the first document
that declares it, and each entry with the id in another document is disputed once.** -/
theorem owner_registers (h : ws.examineAll.2 = .ok ()) :
    let docs := ws.examineAll.1.documents
    docs.map (·.uri) = ws.uris ∧
      (∀ kind id, (ws.examineAll.1.mergedReport.components.of kind).filter (·.id = id) =
        ((owner? docs kind id).map (·.component kind id)).toList) ∧
      ∀ doc ∈ docs, ∃ r, doc.report = some r ∧
        r.disputes = doc.disputesOf (ownedElsewhere docs doc.uri) := by
  have hc := checkAll_of_examineAll h
  have hchecked := checked_checkAll hn hp hc
  obtain ⟨hall, hdocs⟩ := examineAll_of_checkAll hn hp hc
  have hall := hall.mp h
  rw [hdocs h]
  refine ⟨?_, fun kind id => ?_, fun doc hd => hchecked.disputes_allTogether hall hd⟩
  · rw [← uris_checkAll hn]
    exact uris_allTogether _ _ _
  · rw [components_mergedReport]
    exact (hchecked.checked_allTogether hall).firstWins.filter_declared kind id

omit hn hp in
theorem owners_rivals :
    let docs := rivals.examineAll.1.documents
    rivals.uris.Nodup ∧ (∀ doc ∈ rivals.documents, doc.InPack) ∧
      rivals.examineAll.2 = .ok () ∧ docs.map (·.uri) = rivals.uris ∧
      (∀ kind id, (rivals.examineAll.1.mergedReport.components.of kind).filter (·.id = id) =
        ((owner? docs kind id).map (·.component kind id)).toList) ∧
      ∀ doc ∈ docs, ∃ r, doc.report = some r ∧
        r.disputes = doc.disputesOf (ownedElsewhere docs doc.uri) := by
  have h := examineAll_of_endsWell endsWell_rivals
  exact ⟨nodup_uris_rivals, inPack_rivals, h, owner_registers nodup_uris_rivals inPack_rivals h⟩

end Workspaces

end Workspace

end PackLint
