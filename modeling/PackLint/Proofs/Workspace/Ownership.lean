import Mathlib.Data.List.Pairwise
import PackLint.Proofs.Document.Examination
import PackLint.Proofs.Workspace.History

/-!
# Whose components they are

Every component belongs to one loaded document, in which all of its declarations stand. The registry
is nowhere stored, so this is a property of the reports that the documents keep, some of which are
older than others. An examination checks new components against the reports of the other documents,
which makes it symmetric that no two documents have an id in common: neither has an id of the other,
whichever was looked at last.

Loading checks nothing. A document that is loaded back (`load`) brings the components along that its
report had when it was taken out, and another document may have registered their ids since. Then an
id has two components, until the documents are looked at again.

Results:
* `Workspace.stable_proper`: the components in a report are the document's own after every history.
* `Workspace.Settled.load_iff`: when a document may be loaded without an id being registered twice.
* `Workspace.settled_run`: every other step keeps the documents apart.
* `Workspace.components_after`: whose components there are after every history, and that each id is
  registered once all along iff no document that is loaded back has an id of another one.
* `Workspace.registered_twice_after`: a history after which an id is registered twice.
-/

namespace PackLint

variable {kind : ComponentKind} {c : Component} {d doc : Document}

/-! ## Reports of documents -/

/-- The components that a document keeps in its report. -/
def Workspace.declared (kind : ComponentKind) (doc : Document) : List Component :=
  (doc.report.map fun r => r.components.of kind).getD []

theorem Workspace.mem_declared :
    c ∈ declared kind doc ↔ ∃ r ∈ doc.report, c ∈ r.components.of kind := by
  unfold declared
  cases doc.report <;> simp

namespace Document

open Workspace (declared mem_declared)

/-- A document is bound to a kind of file or to nothing, and the components in its report are its
own. -/
structure Proper (doc : Document) : Prop where
  inPack : doc.InPack
  registered : ∀ kind, Registered doc.uri [] (declared kind doc)

/-- Two documents have an id of a kind of component in common in their reports. -/
def Rivals (doc d : Document) : Prop :=
  ∃ kind, ∃ c ∈ declared kind doc, ∃ c' ∈ declared kind d, c.id = c'.id

theorem Rivals.symm : doc.Rivals d → d.Rivals doc
  | ⟨kind, c, hc, c', hc', hid⟩ => ⟨kind, c', hc', c, hc, hid.symm⟩

theorem declared_of_report (h : doc.report = none) : declared kind doc = [] := by
  unfold declared
  rw [h]
  rfl

theorem not_rivals_of_report (h : doc.report = none) : ¬ doc.Rivals d := by
  rintro ⟨kind, c, hc, -⟩
  rw [declared_of_report h] at hc
  cases hc

theorem Proper.of_report (hp : doc.InPack) (h : doc.report = none) : doc.Proper where
  inPack := hp
  registered kind := by
    rw [declared_of_report h]
    exact .nil

theorem proper_unexamined (uri : String) (source : Source) (kind : Option FileKind) :
    (Workspace.unexamined uri source kind).Proper := by
  refine .of_report (fun binding hb => ?_) rfl
  obtain ⟨kind, -, rfl⟩ := Option.map_eq_some_iff.mp hb
  exact ⟨kind, rfl⟩

/-- What a document registers is its own, if it is checked against the ids of the others. -/
theorem declared_examine {settings : Settings} {data : GameData} {registry : Registry}
    {depth : Depth} {r : Report} (hp : doc.InPack)
    (h : (doc.examine settings data registry depth).2 = .ok r) (kind : ComponentKind) :
    Registered doc.uri (registry.taken doc.uri kind)
      (declared kind (doc.examine settings data registry depth).1) := by
  unfold declared
  rw [report_of_examine, h]
  exact examine_registers hp h kind

/-- A fault keeps the components of the last report. -/
theorem declared_examine_of_error {settings : Settings} {data : GameData} {registry : Registry}
    {depth : Depth} {fault : Fault}
    (h : (doc.examine settings data registry depth).2 = .error fault) (kind : ComponentKind) :
    declared kind (doc.examine settings data registry depth).1 = declared kind doc := by
  unfold declared
  rw [report_of_examine, h]

theorem Proper.examine (h : doc.Proper) (settings : Settings) (data : GameData)
    (registry : Registry) (depth : Depth) :
    (doc.examine settings data registry depth).1.Proper where
  inPack := h.inPack.examine
  registered kind := by
    rw [uri_examine]
    cases hanswer : (doc.examine settings data registry depth).2 with
    | ok r => exact (declared_examine h.inPack hanswer kind).mono fun _ hid => nomatch hid
    | error fault =>
      rw [declared_examine_of_error hanswer]
      exact h.registered kind

end Document

namespace Workspace

variable {ws ws' : Workspace} {uri : String}

/-! ## Members -/

theorem mem_taken {id : String} :
    id ∈ ws.registry.taken uri kind ↔
      ∃ doc ∈ ws.documents, doc.uri ≠ uri ∧ ∃ c ∈ declared kind doc, c.id = id := by
  unfold Registry.taken Registry.elsewhere Registry.components registry
  constructor
  · intro h
    obtain ⟨c, hc, hid⟩ := List.mem_map.mp h
    obtain ⟨entry, he, hc⟩ := List.mem_flatMap.mp hc
    obtain ⟨he, huri⟩ := List.mem_filter.mp he
    obtain ⟨doc, hd, he⟩ := List.mem_filterMap.mp he
    obtain ⟨r, hr, rfl⟩ := Option.map_eq_some_iff.mp he
    exact ⟨doc, hd, of_decide_eq_true huri, c, mem_declared.mpr ⟨r, hr, hc⟩, hid⟩
  · rintro ⟨doc, hd, huri, c, hc, hid⟩
    obtain ⟨r, hr, hc⟩ := mem_declared.mp hc
    refine List.mem_map.mpr ⟨c, List.mem_flatMap.mpr ⟨(doc.uri, r.components), ?_, hc⟩, hid⟩
    refine List.mem_filter.mpr ⟨List.mem_filterMap.mpr ⟨doc, hd, ?_⟩, decide_eq_true huri⟩
    exact Option.map_eq_some_iff.mpr ⟨r, hr, rfl⟩

theorem mem_replace (h : d ∈ (ws.replace doc).documents) :
    d = doc ∨ d ∈ ws.documents ∧ d.uri ≠ doc.uri := by
  obtain ⟨d', hd', rfl⟩ := List.mem_map.mp h
  split
  · exact Or.inl rfl
  · rename_i hne
    exact Or.inr ⟨hd', hne⟩

/-- A document is loaded beside those with another uri. -/
theorem mem_load : d ∈ (ws.load doc).documents ↔ d = doc ∨ d ∈ ws.documents ∧ d.uri ≠ doc.uri := by
  unfold load
  split
  · rename_i hu
    refine ⟨mem_replace, fun h => List.mem_map.mpr ?_⟩
    rcases h with rfl | ⟨hd, hne⟩
    · obtain ⟨e, he, heu⟩ := List.mem_map.mp (List.contains_iff_mem.mp hu)
      exact ⟨e, he, if_pos heu⟩
    · exact ⟨d, hd, if_neg hne⟩
  · rename_i hu
    have hne : ∀ e ∈ ws.documents, e.uri ≠ doc.uri :=
      fun e he heu => hu (List.contains_iff_mem.mpr (heu ▸ List.mem_map_of_mem he))
    rw [List.mem_append, List.mem_singleton]
    exact ⟨fun h => h.symm.imp_right fun hd => ⟨hd, hne d hd⟩, fun h => h.symm.imp_left And.left⟩

/-! ## Documents with components of their own -/

/-- Every uri stands once, and what a document has in its report is its own. -/
structure Proper (ws : Workspace) : Prop where
  nodup_uris : ws.uris.Nodup
  documents : ∀ doc ∈ ws.documents, doc.Proper

/-- Taking a document in keeps the documents proper. -/
theorem Proper.put (h : ws.Proper) (hd : doc.Proper) (hn : ws'.uris.Nodup)
    (hsub : ∀ d ∈ ws'.documents, d = doc ∨ d ∈ ws.documents ∧ d.uri ≠ doc.uri) : ws'.Proper where
  nodup_uris := hn
  documents d hm := by
    rcases hsub d hm with rfl | ⟨hm, -⟩
    · exact hd
    · exact h.documents d hm

theorem Proper.load (h : ws.Proper) (hd : doc.Proper) : (ws.load doc).Proper :=
  h.put hd (nodup_uris_load h.nodup_uris doc) fun _ => mem_load.mp

theorem Proper.without (h : ws.Proper) (uri : String) : (ws.without uri).Proper where
  nodup_uris := (List.filter_sublist.map _).nodup h.nodup_uris
  documents d hd := h.documents d (List.mem_of_mem_filter hd)

theorem Proper.withoutReports (h : ws.Proper) : ws.withoutReports.Proper where
  nodup_uris := ws.uris_withoutReports ▸ h.nodup_uris
  documents d hd := by
    obtain ⟨d', hd', rfl⟩ := List.mem_map.mp hd
    exact .of_report (h.documents d' hd').inPack rfl

theorem Proper.examine (h : ws.Proper) (depth : Depth) (uri : String) :
    (ws.examine depth uri).1.Proper := by
  unfold Workspace.examine Workspace.get
  cases hget : ws.get? uri with
  | none => exact h
  | some doc =>
    refine h.put ((h.documents doc (List.mem_of_find?_eq_some hget)).examine ws.settings ws.data
      ws.registry depth) ?_ fun _ => mem_replace
    simp only
    rw [uris_replace]
    exact h.nodup_uris

/-- **Every step keeps the components in a report the document's own**, and so does a document that
is taken out. -/
theorem stable_proper : Session.Stable Proper Document.Proper where
  unexamined := Document.proper_unexamined
  documents := Proper.documents
  load := Proper.load
  without := Proper.without
  withoutReports := Proper.withoutReports
  examine := Proper.examine

theorem proper_start (settings : Settings) (data : GameData) : Proper { settings, data } where
  nodup_uris := List.nodup_nil
  documents _ h := nomatch h

theorem proper_after (settings : Settings) (data : GameData) (history : List Operation) :
    let s := Session.after { workspace := { settings, data } } history
    s.workspace.Proper ∧ ∀ doc ∈ s.released, doc.Proper :=
  stable_proper.after (proper_start settings data) (fun _ h => (List.not_mem_nil h).elim) history

/-! ## Documents that are apart -/

/-- No other document of the workspace has an id in common with a document. -/
def Unopposed (ws : Workspace) (doc : Document) : Prop :=
  ∀ d ∈ ws.documents, d.uri ≠ doc.uri → ¬ doc.Rivals d

/-- The documents are proper, and no two of them have an id in common. -/
structure Settled (ws : Workspace) : Prop extends Proper ws where
  unopposed : ∀ doc ∈ ws.documents, ws.Unopposed doc

/-- A document may be taken in if no other one has an id of it. -/
theorem Settled.put (h : ws.Settled) (hd : doc.Proper) (hu : ws.Unopposed doc)
    (hn : ws'.uris.Nodup)
    (hsub : ∀ d ∈ ws'.documents, d = doc ∨ d ∈ ws.documents ∧ d.uri ≠ doc.uri) : ws'.Settled where
  toProper := h.toProper.put hd hn hsub
  unopposed d hm e he hne := by
    rcases hsub d hm with rfl | ⟨hm, hnd⟩ <;> rcases hsub e he with rfl | ⟨he, hned⟩
    · exact absurd rfl hne
    · exact hu e he hned
    · -- the ids of `doc` are checked against those of `d`, so `d` has none of them either
      exact fun hrivals => hu d hm hnd hrivals.symm
    · exact h.unopposed d hm e he hne

/-- **When a document may be loaded**: no other one has an id that is in its report. -/
theorem Settled.load_iff (h : ws.Settled) (hd : doc.Proper) :
    (ws.load doc).Settled ↔ ws.Unopposed doc := by
  constructor
  · intro hload d hm hne
    exact hload.unopposed doc (mem_load.mpr (.inl rfl)) d (mem_load.mpr (.inr ⟨hm, hne⟩)) hne
  · exact fun hu => h.put hd hu (nodup_uris_load h.nodup_uris doc) fun _ => mem_load.mp

theorem Settled.without (h : ws.Settled) (uri : String) : (ws.without uri).Settled where
  toProper := h.toProper.without uri
  unopposed d hd e he :=
    h.unopposed d (List.mem_of_mem_filter hd) e (List.mem_of_mem_filter he)

/-- Documents without reports are apart, whatever they had reported. -/
theorem Proper.settled_withoutReports (h : ws.Proper) : ws.withoutReports.Settled where
  toProper := h.withoutReports
  unopposed d hd e _ _ := by
    obtain ⟨d', -, rfl⟩ := List.mem_map.mp hd
    exact Document.not_rivals_of_report rfl

/-- A look at a document checks its ids against those of all others. -/
theorem Settled.examine (h : ws.Settled) (depth : Depth) (uri : String) :
    (ws.examine depth uri).1.Settled := by
  unfold Workspace.examine Workspace.get
  cases hget : ws.get? uri with
  | none => exact h
  | some doc =>
    have hd : doc ∈ ws.documents := List.mem_of_find?_eq_some hget
    have hp := h.documents doc hd
    refine h.put (hp.examine ws.settings ws.data ws.registry depth) ?_ ?_ fun _ => mem_replace
    · intro e he hne hrivals
      obtain ⟨kind, c, hc, c', hc', hid⟩ := hrivals
      rw [Document.uri_examine] at hne
      cases hanswer : (doc.examine ws.settings ws.data ws.registry depth).2 with
      | ok r =>
        refine (Document.declared_examine hp.inPack hanswer kind).free c hc ?_
        exact mem_taken.mpr ⟨e, he, hne, c', hc', hid.symm⟩
      | error fault =>
        rw [Document.declared_examine_of_error hanswer] at hc
        exact h.unopposed doc hd e he hne ⟨kind, c, hc, c', hc', hid⟩
    · simp only
      rw [uris_replace]
      exact h.nodup_uris

theorem lasting_settled : Lasting Settled where
  withoutReports h := h.toProper.settled_withoutReports
  examine := Settled.examine

/-- **Looks at all documents alone make them apart**, whatever was loaded before. -/
theorem Proper.settled_checkAll (h : ws.Proper) : ws.checkAll.1.Settled :=
  lasting_settled.examineEach h.settled_withoutReports .alone ws.uris

/-- Every operation keeps the documents apart, but for one that loads a document back which has an
id of another one. -/
theorem settled_run {s : Session} (h : s.workspace.Settled) (hr : ∀ doc ∈ s.released, doc.Proper)
    {op : Operation} (hop : ∀ place doc, op = .loadBack place → s.released[place]? = some doc →
      s.workspace.Unopposed doc) : (s.run op).workspace.Settled := by
  cases op with
  | load uri source kind =>
    refine (h.load_iff (Document.proper_unexamined uri source kind)).mpr fun d _ _ => ?_
    exact Document.not_rivals_of_report rfl
  | loadBack place =>
    change (s.loadBack place).workspace.Settled
    unfold Session.loadBack
    split
    · exact h
    · rename_i doc hplace
      exact (h.load_iff (hr doc (List.mem_of_getElem? hplace))).mpr (hop place doc rfl hplace)
  | unload uri =>
    change (s.workspace.unload uri).1.Settled
    by_cases hu : uri ∈ s.workspace.uris
    · rw [fst_unload hu]
      exact (h.toProper.without uri).settled_checkAll
    · unfold Workspace.unload Workspace.get
      rw [get?_eq_none.mpr hu]
      exact h
  | checkAll => exact h.toProper.settled_checkAll
  | examineAll => exact lasting_settled.examineAll h
  | process uri => exact lasting_settled.process h uri
  | examine depth uri => exact h.examine depth uri

/-! ## The merged report -/

theorem components_mergeAll (rs : List Report) (kind : ComponentKind) :
    (Report.mergeAll rs).components.of kind = rs.flatMap fun r => r.components.of kind := by
  induction rs with
  | nil => exact ComponentTable.of_empty kind
  | cons r rs ih =>
    rw [Report.mergeAll_cons, List.flatMap_cons, ← ih]
    exact ComponentTable.of_append _ _ kind

/-- Keeping members of a list and listing what they hold is one pass. -/
theorem flatMap_filterMap {α β γ : Type} (f : α → Option β) (g : β → List γ) (l : List α) :
    (l.filterMap f).flatMap g = l.flatMap fun a => ((f a).map g).getD [] := by
  induction l with
  | nil => rfl
  | cons a l ih =>
    rw [List.filterMap_cons, List.flatMap_cons, ← ih]
    cases f a <;> rfl

theorem components_mergedReport (ws : Workspace) (kind : ComponentKind) :
    ws.mergedReport.components.of kind = ws.documents.flatMap (declared kind) := by
  unfold mergedReport
  rw [components_mergeAll, List.filter_eq_self.mpr (by simp), flatMap_filterMap]
  rfl

/-- All declarations of a component stand in one document, and there is one. -/
theorem Proper.owned (h : ws.Proper) (hc : c ∈ ws.mergedReport.components.of kind) :
    c.declarations ≠ [] ∧ ∃ doc ∈ ws.documents, ∀ d ∈ c.declarations, d.uri = doc.uri := by
  rw [components_mergedReport] at hc
  obtain ⟨doc, hd, hc⟩ := List.mem_flatMap.mp hc
  obtain ⟨hne, huri⟩ := ((h.documents doc hd).registered kind).owned c hc
  exact ⟨hne, doc, hd, huri⟩

/-- Of each kind an id is registered at most once. -/
def RegistersOnce (ws : Workspace) : Prop :=
  ∀ kind, ((ws.mergedReport.components.of kind).map (·.id)).Nodup

/-- **Each id is registered once iff no two documents have an id in common.** -/
theorem Proper.registersOnce_iff (h : ws.Proper) : ws.RegistersOnce ↔ ws.Settled := by
  have hne : ws.documents.Pairwise fun d e => d.uri ≠ e.uri := List.pairwise_map.mp h.nodup_uris
  unfold RegistersOnce
  simp only [components_mergedReport, List.map_flatMap, List.nodup_flatMap]
  constructor
  · intro honce
    refine ⟨h, fun d hd e he huri => ?_⟩
    rintro ⟨kind, c, hc, c', hc', hid⟩
    have : Std.Symm (Function.onFun List.Disjoint fun d => (declared kind d).map (·.id)) :=
      ⟨fun _ _ hapart => List.disjoint_symm hapart⟩
    have hapart := (honce kind).2.forall hd he fun hde => huri (hde ▸ rfl)
    exact hapart (List.mem_map_of_mem hc) (hid ▸ List.mem_map_of_mem hc')
  · intro hsettled kind
    refine ⟨fun doc hd => ((h.documents doc hd).registered kind).nodup_ids, ?_⟩
    refine hne.imp_of_mem fun {d e} hd he hne id hid hid' => ?_
    obtain ⟨c, hc, hcid⟩ := List.mem_map.mp hid
    obtain ⟨c', hc', hcid'⟩ := List.mem_map.mp hid'
    exact hsettled.unopposed d hd e he hne.symm ⟨kind, c, hc, c', hc', hcid.trans hcid'.symm⟩

/-! ## Histories -/

/-- Whenever a history loads a document back, no other document has an id in common with it. -/
def ReturnsUnopposed (s : Session) (history : List Operation) : Prop :=
  ∀ past place doc, past ++ [.loadBack place] <+: history →
    (s.after past).released[place]? = some doc → (s.after past).workspace.Unopposed doc

theorem settled_after {settings : Settings} {data : GameData} {history : List Operation}
    (h : ReturnsUnopposed { workspace := { settings, data } } history) :
    (after { settings, data } history).Settled := by
  induction history using List.reverseRecOn with
  | nil => exact ⟨proper_start settings data, fun _ hd => nomatch hd⟩
  | append_singleton history op ih =>
    unfold after
    rw [Session.after_concat]
    refine settled_run (ih fun past place doc hpast => ?_)
      (proper_after settings data history).2 fun place doc hop => ?_
    · exact h past place doc (hpast.trans (List.prefix_append _ _))
    · subst hop
      exact h history place doc List.prefix_rfl

/-- The operation drops all reports and looks at the documents again. -/
def Operation.LooksAgain (ws : Workspace) : Operation → Prop
  | .checkAll | .examineAll => True
  | .unload uri | .process uri => uri ∈ ws.uris
  | .load .. | .loadBack _ | .examine .. => False

theorem Proper.settled_run {s : Session} (h : s.workspace.Proper) {op : Operation}
    (hop : Operation.LooksAgain s.workspace op) : (s.run op).workspace.Settled := by
  cases op with
  | checkAll => exact h.settled_checkAll
  | examineAll => exact lasting_settled.examineAll_of_checkAll h.settled_checkAll
  | unload uri =>
    change (s.workspace.unload uri).1.Settled
    rw [fst_unload hop]
    exact (h.without uri).settled_checkAll
  | process uri => exact lasting_settled.process_of_checkAll h.settled_checkAll hop
  | load uri source kind => exact hop.elim
  | loadBack place => exact hop.elim
  | examine depth uri => exact hop.elim

/-- **Whose components there are after every history.** All declarations of a component stand in one
loaded document. Each id is registered once in every state of a history iff no document that is
loaded back has, in the report it brings along, an id of another document. An operation that looks
at all documents again makes it so whatever was loaded back. -/
theorem components_after (settings : Settings) (data : GameData) (history : List Operation) :
    let start : Session := { workspace := { settings, data } }
    let ws := (start.after history).workspace
    ws.uris.Nodup ∧
      (∀ kind, ∀ c ∈ ws.mergedReport.components.of kind, c.declarations ≠ [] ∧
        ∃ doc ∈ ws.documents, ∀ d ∈ c.declarations, d.uri = doc.uri) ∧
      ((∀ past, past <+: history → (start.after past).workspace.RegistersOnce) ↔
        ReturnsUnopposed start history) ∧
      ∀ op, Operation.LooksAgain ws op →
        ((start.after history).run op).workspace.RegistersOnce := by
  intro start ws
  have hproper : ∀ past, (start.after past).workspace.Proper :=
    fun past => (proper_after settings data past).1
  refine ⟨(hproper history).nodup_uris, fun kind c hc => (hproper history).owned hc,
    ⟨fun honce past place doc hpast hplace => ?_, fun hreturns past hpast => ?_⟩, fun op hop => ?_⟩
  · have hsettled : (start.after past).workspace.Settled :=
      (hproper past).registersOnce_iff.mp (honce past ((List.prefix_append _ _).trans hpast))
    have hloaded := (hproper _).registersOnce_iff.mp (honce _ hpast)
    have hd := (proper_after settings data past).2 doc (List.mem_of_getElem? hplace)
    refine (hsettled.load_iff hd).mp ?_
    rw [Session.after_concat] at hloaded
    change ((start.after past).loadBack place).workspace.Settled at hloaded
    unfold Session.loadBack at hloaded
    rwa [hplace] at hloaded
  · refine (hproper past).registersOnce_iff.mpr (settled_after fun before place doc hbefore => ?_)
    exact hreturns before place doc (hbefore.trans hpast)
  · have hsettled := (hproper history).settled_run hop
    exact hsettled.toProper.registersOnce_iff.mpr hsettled

/-- Two skill files declare an id. The first one is taken out, so that the id becomes the second
one's, and then loaded back. -/
def returning : List Operation := [
  .load "file:///a.yml" (.ofString "heal: \x7bSkills: []\x7d\n") (some .skill),
  .load "file:///b.yml" (.ofString "heal: \x7bSkills: []\x7d\n") (some .skill),
  .checkAll,
  .unload "file:///a.yml",
  .loadBack 0]

theorem ids_returning :
    ((after {} returning).mergedReport.components.of .skills).map (·.id) = ["heal", "heal"] := by
  decide +kernel

/-- Both files have registered the id after that. -/
theorem registered_twice_after : ¬ (after {} returning).RegistersOnce := by
  intro honce
  have hids := honce .skills
  rw [ids_returning] at hids
  exact absurd hids (by decide)

end Workspace

end PackLint
