import PackLint.Proofs.Document.Entries
import PackLint.Proofs.Workspace.Ownership
import PackLint.Proofs.Workspace.Pass

/-!
# What earlier looks leave behind

A look at a document leaves its tree, its kind of file and a report behind, and the metadata may
have bound it anew. A later look at all documents (`partial_process_all`, `full_process_all`) does
not see any of this, be they left in the workspace or brought back with a document that is loaded
back: what it reports depends only on the documents as they were when they were loaded first. So a
workspace after a history of operations is told the same as a fresh one that holds these documents.

Results:
* `Workspace.kin_after`: after a history the documents are read like those that were loaded.
* `Workspace.Paired.checkAll`, `Workspace.Paired.examineAll`: a workspace whose documents are read
  alike is told the same.
* `Workspace.reports_after`: what is told after a history, whatever it left behind.
-/

namespace PackLint

namespace Workspace

variable {settings : Settings} {data : GameData} {depth : Depth}
variable {ws v : Workspace}

/-! ## Documents as they were loaded -/

/-- What an operation does to documents that are never looked at. -/
def keep (s : Session) : Operation → Session
  | .load uri source kind => s.load (unexamined uri source kind)
  | .loadBack place => s.loadBack place
  | .unload uri => ⟨s.workspace.without uri, s.release uri⟩
  | .checkAll | .examineAll | .process _ | .examine _ _ => s

/-- The fresh workspace with the documents that a history leaves, as they were loaded first. -/
def stored (settings : Settings) (data : GameData) (history : List Operation) : Workspace :=
  (history.foldl keep { workspace := { settings, data } }).workspace

/-- The reports that the documents keep. -/
def reports (ws : Workspace) : List (String × Option Report) :=
  ws.documents.map fun doc => (doc.uri, doc.report)

/-! ## Passes over documents that are read alike -/

/-- Documents in the same order that are read alike and have the same reports. -/
abbrev Twins (settings : Settings) : List Document → List Document → Prop :=
  List.Forall₂ (Document.Twin settings)

theorem registryOf_twins {docs docs' : List Document} (h : Twins settings docs docs') :
    registryOf docs = registryOf docs' := by
  induction h with
  | nil => rfl
  | cons hd _ ih =>
    unfold registryOf at ih ⊢
    rw [List.filterMap_cons, List.filterMap_cons, ih, hd.uri, hd.report]

/-- **Passes over documents that are read alike have the same answer, and leave the same reports
behind.** -/
theorem twins_pass {done done' rest rest' : List Document} (hdone : Twins settings done done')
    (hrest : Twins settings rest rest') :
    Twins settings (pass settings data depth done rest).1 (pass settings data depth done' rest').1 ∧
      (pass settings data depth done rest).2 = (pass settings data depth done' rest').2 := by
  induction hrest generalizing done done' with
  | nil => exact ⟨hdone, rfl⟩
  | @cons doc doc' rest rest' hd hrest ih =>
    unfold pass
    rw [registryOf_twins (List.rel_append hdone (.cons hd hrest))]
    generalize registryOf (done' ++ doc' :: rest') = registry
    have hanswer := hd.snd_examine data registry depth
    have hlook := hd.examine data registry depth
    generalize doc.examine settings data registry depth = outcome at hanswer hlook ⊢
    generalize doc'.examine settings data registry depth = outcome' at hanswer hlook ⊢
    obtain ⟨looked, answer⟩ := outcome
    obtain ⟨looked', answer'⟩ := outcome'
    cases hanswer
    cases answer with
    | error fault => exact ⟨List.rel_append hdone (.cons hlook hrest), rfl⟩
    | ok r => exact ih (List.rel_append hdone (.cons hlook .nil))

/-! ## Workspaces with the same documents -/

theorem settings_load (ws : Workspace) (doc : Document) : (ws.load doc).settings = ws.settings := by
  unfold load
  split <;> rfl

/-- Two workspaces under the same settings and data whose documents are related one by one. -/
structure Paired (R : Settings → Document → Document → Prop) (ws v : Workspace) : Prop where
  nodup_uris : ws.uris.Nodup
  settings : ws.settings = v.settings
  data : ws.data = v.data
  documents : List.Forall₂ (R ws.settings) ws.documents v.documents

namespace Paired

/-- The uris are the same if only documents of the same uri are related. -/
theorem uris_eq {R : Settings → Document → Document → Prop} (h : Paired R ws v)
    (hR : ∀ settings d d', R settings d d' → d.uri = d'.uri) : ws.uris = v.uris := by
  have hsame : List.Forall₂ (· = ·) ws.uris v.uris :=
    List.rel_map (fun d d' => hR ws.settings d d') h.documents
  rwa [List.forall₂_eq_eq_eq] at hsame

theorem reports_eq (h : Paired Document.Twin ws v) : ws.reports = v.reports := by
  have hsame : List.Forall₂ (· = ·) ws.reports v.reports :=
    List.rel_map (fun _ _ hd => Prod.ext (Document.Kin.uri hd.toKin) (Document.Twin.report hd))
      h.documents
  rwa [List.forall₂_eq_eq_eq] at hsame

/-- What is told by looks at all documents depends on how they are read and on their reports. -/
theorem examineEach (h : Paired Document.Twin ws v) (depth : Depth) :
    Paired Document.Twin (Workspace.examineEach depth ws.uris ws).1
        (Workspace.examineEach depth v.uris v).1 ∧
      (Workspace.examineEach depth ws.uris ws).2 = (Workspace.examineEach depth v.uris v).2 := by
  have huris : ws.uris = v.uris := h.uris_eq fun _ _ _ hd => hd.uri
  have hws := examineEach_eq h.nodup_uris (List.nil_append ws.documents).symm depth
  have hv := examineEach_eq (huris ▸ h.nodup_uris) (List.nil_append v.documents).symm depth
  rw [← h.settings, ← h.data] at hv
  obtain ⟨hdocs, hanswer⟩ : _ ∧ (pass ws.settings ws.data depth [] ws.documents).2 = _ :=
    twins_pass .nil h.documents
  unfold uris
  rw [hws, hv]
  refine ⟨⟨?_, rfl, rfl, hdocs⟩, hanswer⟩
  unfold uris
  simp only
  rw [uris_pass, List.nil_append]
  exact h.nodup_uris

theorem refl (h : v.uris.Nodup) : Paired Document.Kin v v :=
  ⟨h, rfl, rfl, List.forall₂_same.mpr fun doc _ => .refl _ doc⟩

variable (h : Paired Document.Kin ws v)

include h

theorem withoutReports : Paired Document.Kin ws.withoutReports v where
  nodup_uris := ws.uris_withoutReports ▸ h.nodup_uris
  settings := h.settings
  data := h.data
  documents := List.forall₂_map_left_iff.mpr
    (h.documents.imp fun _ _ hd => ⟨hd.uri, hd.source, hd.bound⟩)

/-- A look at a document leaves all documents as they are, but for what it has read and
reported. -/
theorem examine (depth : Depth) (uri : String) :
    Paired Document.Kin (ws.examine depth uri).1 v := by
  unfold Workspace.examine Workspace.get
  cases hget : ws.get? uri with
  | none => exact h
  | some doc =>
    have hlook := Document.Kin.fst_examine ws.settings ws.data ws.registry depth doc
    have hkin : ∀ d ∈ ws.documents,
        (if d.uri = (doc.examine ws.settings ws.data ws.registry depth).1.uri then
          (doc.examine ws.settings ws.data ws.registry depth).1 else d).Kin ws.settings d := by
      intro d hd
      split
      · -- the uri stands once, so it is the document that was looked at
        rename_i huri
        rw [hlook.uri] at huri
        obtain rfl : d = doc :=
          List.inj_on_of_nodup_map h.nodup_uris hd (List.mem_of_find?_eq_some hget) huri
        exact hlook
      · exact .refl _ d
    refine ⟨?_, h.settings, h.data, List.forall₂_map_left_iff.mpr ?_⟩
    · simp only
      rw [uris_replace]
      exact h.nodup_uris
    · exact ((List.forall₂_and_left _ _).mpr ⟨hkin, h.documents⟩).imp
        fun d d' hd => hd.1.trans hd.2

/-- Documents that are read alike may be loaded. -/
theorem load {doc doc' : Document} (hd : doc.Kin ws.settings doc') :
    Paired Document.Kin (ws.load doc) (v.load doc') := by
  refine ⟨nodup_uris_load h.nodup_uris _, ?_, ?_, ?_⟩
  · rw [settings_load, settings_load]
    exact h.settings
  · unfold Workspace.load
    split <;> split <;> exact h.data
  · rw [settings_load]
    unfold Workspace.load
    rw [h.uris_eq fun _ _ _ hd => hd.uri, hd.uri]
    split
    · refine List.rel_map (fun e e' he => ?_) h.documents
      have he : Document.Kin ws.settings e e' := he
      rw [he.uri, hd.uri]
      split
      · exact hd
      · exact he
    · exact List.rel_append h.documents (.cons hd .nil)

theorem without (uri : String) : Paired Document.Kin (ws.without uri) (v.without uri) where
  nodup_uris := (List.filter_sublist.map _).nodup h.nodup_uris
  settings := h.settings
  data := h.data
  documents := List.rel_filter (fun d d' hd => by simp only [Document.Kin.uri hd]) h.documents

/-- Looks at all documents alone have the same answer and the same reports. -/
theorem checkAll : Paired Document.Twin ws.checkAll.1 v.checkAll.1 ∧
    ws.checkAll.2 = v.checkAll.2 := by
  have hfresh : Paired Document.Twin ws.withoutReports v.withoutReports := by
    refine ⟨ws.uris_withoutReports ▸ h.nodup_uris, h.settings, h.data, ?_⟩
    refine List.rel_map (fun d d' hd => ?_) h.documents
    have hd : Document.Kin ws.settings d d' := hd
    exact ⟨⟨hd.uri, hd.source, hd.bound⟩, rfl⟩
  unfold Workspace.checkAll
  rw [← ws.uris_withoutReports, ← v.uris_withoutReports]
  exact hfresh.examineEach .alone

/-- Looks at all documents have the same answer and the same reports. -/
theorem examineAll : Paired Document.Twin ws.examineAll.1 v.examineAll.1 ∧
    ws.examineAll.2 = v.examineAll.2 := by
  obtain ⟨hchecked, hanswer⟩ := h.checkAll
  unfold Workspace.examineAll
  generalize ws.checkAll = outcome at hchecked hanswer
  generalize v.checkAll = outcome' at hchecked hanswer
  obtain ⟨ws', answer⟩ := outcome
  obtain ⟨v', answer'⟩ := outcome'
  cases hanswer
  cases answer with
  | error fault => exact ⟨hchecked, rfl⟩
  | ok _ => exact hchecked.examineEach .full

end Paired

/-! ## Histories -/

theorem lasting_paired (v : Workspace) : Lasting (Paired Document.Kin · v) where
  withoutReports := Paired.withoutReports
  examine := Paired.examine

theorem without_of_not_mem {uri : String} (h : uri ∉ ws.uris) : ws.without uri = ws := by
  unfold without
  rw [List.filter_eq_self.mpr fun d hd => ?_]
  exact decide_eq_true fun he => h (he ▸ List.mem_map_of_mem hd)

/-- Members found in lists that are related one by one are related. -/
theorem forall₂_find? {α : Type} {R : α → α → Prop} {p q : α → Bool} {l l' : List α}
    (hpq : ∀ a b, R a b → p a = q b) (h : List.Forall₂ R l l') :
    List.Forall₂ R (l.find? p).toList (l'.find? q).toList := by
  induction h with
  | nil => exact .nil
  | @cons a b _ _ hab _ ih =>
    rw [List.find?_cons, List.find?_cons, hpq a b hab]
    split
    · exact .cons hab .nil
    · exact ih

/-- Two sessions under the same settings and data whose documents are read alike one by one, those
in the workspace and those taken out of it. -/
structure Akin (settings : Settings) (s v : Session) : Prop where
  settings_eq : v.workspace.settings = settings
  workspace : Paired Document.Kin s.workspace v.workspace
  released : List.Forall₂ (Document.Kin settings) s.released v.released

namespace Akin

variable {s t : Session} (h : Akin settings s t)

include h

theorem release (uri : String) :
    List.Forall₂ (Document.Kin settings) (s.release uri) (t.release uri) := by
  refine List.rel_append (forall₂_find? (fun d d' hd => ?_) ?_) h.released
  · rw [hd.uri]
  · exact h.settings_eq ▸ h.workspace.settings ▸ h.workspace.documents

theorem load {doc doc' : Document} (hd : doc.Kin settings doc') :
    Akin settings (s.load doc) (t.load doc') where
  settings_eq := (settings_load ..).trans h.settings_eq
  workspace := h.workspace.load (h.workspace.settings.trans h.settings_eq ▸ hd)
  released := by
    change List.Forall₂ (Document.Kin settings) (s.release doc.uri) (t.release doc'.uri)
    rw [← hd.uri]
    exact h.release doc.uri

theorem loadBack (place : Nat) : Akin settings (s.loadBack place) (t.loadBack place) := by
  unfold Session.loadBack
  by_cases hplace : place < s.released.length
  · have hplace' : place < t.released.length := h.released.length_eq ▸ hplace
    rw [List.getElem?_eq_getElem hplace, List.getElem?_eq_getElem hplace']
    have hdoc := h.released.get hplace hplace'
    have hrest : List.Forall₂ (Document.Kin settings) (s.released.eraseIdx place)
        (t.released.eraseIdx place) := by
      rw [List.eraseIdx_eq_take_drop_succ, List.eraseIdx_eq_take_drop_succ]
      exact List.rel_append (List.forall₂_take _ h.released) (List.forall₂_drop _ h.released)
    have hrest : Akin settings { s with released := s.released.eraseIdx place }
        { t with released := t.released.eraseIdx place } := ⟨h.settings_eq, h.workspace, hrest⟩
    exact hrest.load hdoc
  · have hplace' : ¬ place < t.released.length := h.released.length_eq ▸ hplace
    rw [List.getElem?_eq_none (Nat.le_of_not_lt hplace),
      List.getElem?_eq_none (Nat.le_of_not_lt hplace')]
    exact h

/-- **An operation leaves documents behind that are read like those of a session in which none is
ever looked at.** -/
theorem run (op : Operation) : Akin settings (s.run op) (keep t op) := by
  cases op with
  | load uri source kind => exact h.load (.refl _ _)
  | loadBack place => exact h.loadBack place
  | unload uri =>
    refine ⟨h.settings_eq, ?_, h.release uri⟩
    change Paired Document.Kin (s.workspace.unload uri).1 (t.workspace.without uri)
    by_cases hu : uri ∈ s.workspace.uris
    · rw [fst_unload hu]
      exact (lasting_paired _).checkAll (h.workspace.without uri)
    · have ht : uri ∉ t.workspace.uris := h.workspace.uris_eq (fun _ _ _ hd => hd.uri) ▸ hu
      unfold Workspace.unload Workspace.get
      rw [get?_eq_none.mpr hu, without_of_not_mem ht]
      exact h.workspace
  | checkAll => exact ⟨h.settings_eq, (lasting_paired _).checkAll h.workspace, h.released⟩
  | examineAll => exact ⟨h.settings_eq, (lasting_paired _).examineAll h.workspace, h.released⟩
  | process uri => exact ⟨h.settings_eq, (lasting_paired _).process h.workspace uri, h.released⟩
  | examine depth uri =>
    exact ⟨h.settings_eq, (lasting_paired _).examine h.workspace depth uri, h.released⟩

end Akin

/-- After a history the documents are read like those that were loaded. -/
theorem kin_after (settings : Settings) (data : GameData) (history : List Operation) :
    Paired Document.Kin (after { settings, data } history) (stored settings data history) := by
  suffices h : ∀ s t, Akin settings s t →
      Akin settings (s.after history) (history.foldl keep t) from
    (h _ _ ⟨rfl, .refl (v := { settings, data }) List.nodup_nil, .nil⟩).workspace
  induction history with
  | nil => exact fun _ _ h => h
  | cons op history ih => exact fun _ _ h => ih _ _ (h.run op)

/-! ## Reports without links -/

/-- What looks keep holds of all documents after a look at one of them. -/
theorem forall_examine (Q : Document → Prop)
    (hQ : ∀ doc settings data registry, Q doc → Q (doc.examine settings data registry depth).1)
    (ws : Workspace) (uri : String) (h : ∀ doc ∈ ws.documents, Q doc) :
    ∀ doc ∈ (ws.examine depth uri).1.documents, Q doc := by
  unfold Workspace.examine Workspace.get
  cases hget : ws.get? uri with
  | none => exact h
  | some found =>
    intro doc hd
    rcases mem_replace hd with rfl | ⟨hold, -⟩
    · exact hQ found _ _ _ (h found (List.mem_of_find?_eq_some hget))
    · exact h doc hold

/-- Looks at all documents alone make no link. -/
theorem linkless_checkAll (hp : ∀ doc ∈ ws.documents, doc.InPack) :
    ∀ doc ∈ ws.checkAll.1.documents, ∀ r ∈ doc.report, r.Linkless := by
  have hkept : ∀ (doc : Document) (settings : Settings) (data : GameData) (registry : Registry),
      (doc.InPack ∧ ∀ r ∈ doc.report, r.Linkless) →
      (doc.examine settings data registry .alone).1.InPack ∧
        ∀ r ∈ (doc.examine settings data registry .alone).1.report, r.Linkless := by
    rintro doc settings data registry ⟨hp, hr⟩
    refine ⟨hp.examine, fun r h => ?_⟩
    rw [Document.report_of_examine] at h
    split at h
    · rename_i r' hok
      cases h
      exact Document.linkless_examine hp hok
    · exact hr r h
  have hfresh : ∀ doc ∈ ws.withoutReports.documents,
      doc.InPack ∧ ∀ r ∈ doc.report, r.Linkless := by
    intro doc hd
    obtain ⟨d, hm, rfl⟩ := List.mem_map.mp hd
    exact ⟨hp d hm, fun r h => nomatch h⟩
  have hall := examineEach_induction (forall_examine _ hkept) ws.uris hfresh
  exact fun doc hd => (hall doc hd).2

/-- **Nothing is left of a document that has been unloaded**: no report has a declaration in it or a
link to it. -/
theorem Proper.forgets (h : ws.Proper) {uri : String} (hu : uri ∈ ws.uris) :
    ∀ doc ∈ (ws.unload uri).1.documents, ∀ r ∈ doc.report,
      (∀ kind, ∀ c ∈ r.components.of kind, ∀ d ∈ c.declarations, d.uri ≠ uri) ∧
        ∀ l ∈ r.links, l.toUri ≠ uri := by
  have hunloaded := stable_proper.unload h uri
  rw [fst_unload hu] at hunloaded ⊢
  refine fun doc hd r hr => ⟨fun kind c hc d hdecl => ?_, ?_⟩
  · have hregistered := (hunloaded.documents doc hd).registered kind
    rw [(hregistered.owned c (mem_declared.mpr ⟨r, hr, hc⟩)).2 d hdecl]
    have huri : doc.uri ∈ (ws.without uri).uris :=
      uris_checkAll (h.without uri).nodup_uris ▸ List.mem_map_of_mem hd
    obtain ⟨e, he, hsame⟩ := List.mem_map.mp huri
    exact hsame ▸ of_decide_eq_true (List.mem_filter.mp he).2
  · have hinPack := fun d hd => ((h.without uri).documents d hd).inPack
    rw [linkless_checkAll hinPack doc hd r hr]
    exact fun l hl => nomatch hl

/-- **What is told after a history depends only on the documents as they were loaded first**, also
if they have been taken out since and loaded back.
Looks at all documents have the same answer and make the same reports after two histories that leave
the same documents; looking once more changes nothing. Without one of its documents a workspace has
the reports of a fresh one that never had it, none of which has a declaration in the document or a
link to it. -/
theorem reports_after (settings : Settings) (data : GameData) {history history' : List Operation}
    (h : stored settings data history = stored settings data history') :
    let ws := after { settings, data } history
    let ws' := after { settings, data } history'
    (ws.checkAll.1.reports = ws'.checkAll.1.reports ∧ ws.checkAll.2 = ws'.checkAll.2) ∧
      (ws.examineAll.1.reports = ws'.examineAll.1.reports ∧ ws.examineAll.2 = ws'.examineAll.2) ∧
      ws.checkAll.1.checkAll.1.reports = ws.checkAll.1.reports ∧
      ws.examineAll.1.examineAll.1.reports = ws.examineAll.1.reports ∧
      ∀ uri ∈ ws.uris,
        (ws.unload uri).1.reports =
          ((stored settings data history).without uri).checkAll.1.reports ∧
        ∀ doc ∈ (ws.unload uri).1.documents, ∀ r ∈ doc.report,
          (∀ kind, ∀ c ∈ r.components.of kind, ∀ d ∈ c.declarations, d.uri ≠ uri) ∧
            ∀ l ∈ r.links, l.toUri ≠ uri := by
  intro ws ws'
  have hws : Paired Document.Kin ws (stored settings data history) :=
    kin_after settings data history
  have hws' : Paired Document.Kin ws' (stored settings data history) :=
    h ▸ kin_after settings data history'
  have hchecked : Paired Document.Kin ws.checkAll.1 (stored settings data history) :=
    (lasting_paired _).checkAll hws
  have hexamined : Paired Document.Kin ws.examineAll.1 (stored settings data history) :=
    (lasting_paired _).examineAll hws
  refine ⟨⟨?_, ?_⟩, ⟨?_, ?_⟩, ?_, ?_, fun uri hu => ?_⟩
  · exact hws.checkAll.1.reports_eq.trans hws'.checkAll.1.reports_eq.symm
  · exact hws.checkAll.2.trans hws'.checkAll.2.symm
  · exact hws.examineAll.1.reports_eq.trans hws'.examineAll.1.reports_eq.symm
  · exact hws.examineAll.2.trans hws'.examineAll.2.symm
  · exact hchecked.checkAll.1.reports_eq.trans hws.checkAll.1.reports_eq.symm
  · exact hexamined.examineAll.1.reports_eq.trans hws.examineAll.1.reports_eq.symm
  · refine ⟨?_, (proper_after settings data history).1.forgets hu⟩
    rw [fst_unload hu]
    exact (hws.without uri).checkAll.1.reports_eq

/-- Two skill files are loaded in the end. Before that the first one is loaded as a mob file, bound
anew by its metadata, and declares the id of the second one, which is taken out and loaded back. -/
def detour : List Operation := [
  .load "file:///a.yml" (.ofString "## FileType: mythic_skill\nzap: \x7bSkills: []\x7d\n")
    (some .mob),
  .load "file:///b.yml" (.ofString "zap: \x7bOnCooldownSkill: heal\x7d\n") (some .skill),
  .examineAll,
  .load "file:///a.yml" (.ofString "heal: \x7bSkills: []\x7d\n") (some .skill),
  .process "file:///b.yml",
  .unload "file:///b.yml",
  .loadBack 0]

/-- The two files are loaded as they are in the end. -/
def direct : List Operation := [
  .load "file:///a.yml" (.ofString "heal: \x7bSkills: []\x7d\n") (some .skill),
  .load "file:///b.yml" (.ofString "zap: \x7bOnCooldownSkill: heal\x7d\n") (some .skill)]

theorem reports_after_detour : stored {} {} detour = stored {} {} direct ∧
    (after {} detour).examineAll.1.reports = (after {} direct).examineAll.1.reports := by
  have h : stored {} {} detour = stored {} {} direct := by
    simp [stored, detour, direct, keep, Session.load, Session.loadBack, Session.release, get?,
      without, load, uris, replace, unexamined]
  exact ⟨h, (reports_after {} {} h).2.1.1⟩

end Workspace

end PackLint
