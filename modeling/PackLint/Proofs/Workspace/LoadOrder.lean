import PackLint.Proofs.Document.Others
import PackLint.Proofs.Schema.Order
import PackLint.Proofs.Workspace.Together

/-!
# The order in which documents are loaded

Where no id is a top-level key of two documents, no document stands in the way of another. Looked at
alone each registers what it would register if it were the only one, so the same is registered in
whatever order the documents have been loaded, and only its order differs. A look at all documents
then tells each of them the same, but for suggestions and the order of proposals.

Results:
* `Workspace.Unrelated.pass_alone`: documents without common ids are looked at alone as if each were
  the only one.
* `Workspace.Checked.together_sameUpToOrder`: a document is told the same among the others in
  whatever order these stand.
* `Workspace.examineAll_sameUpToOrder`: what is told does not depend on the order of loading.
-/

namespace PackLint

namespace Workspace

variable {settings : Settings} {data : GameData} {docs docs' : List Document} {doc : Document}

/-! ## Documents without common ids -/

/-- No id is a top-level key of both documents, with or without a value. -/
def Apart (d e : Document) : Prop :=
  ∀ kind, ∀ p ∈ d.entries kind, ∀ q ∈ e.entries kind, declaredId p.keyText ≠ declaredId q.keyText

/-- No id is a top-level key of two documents as they are read. -/
def AllApart (settings : Settings) (docs : List Document) : Prop :=
  ∀ d ∈ docs, ∀ e ∈ docs, d.uri ≠ e.uri → Apart (d.read settings).1 (e.read settings).1

instance (d e : Document) : Decidable (Apart d e) :=
  decidable_of_iff (∀ kind ∈ ComponentKind.all, ∀ p ∈ d.entries kind, ∀ q ∈ e.entries kind,
      declaredId p.keyText ≠ declaredId q.keyText)
    ⟨fun h kind => h kind (by cases kind <;> decide), fun h kind _ => h kind⟩

instance (settings : Settings) (docs : List Document) : Decidable (AllApart settings docs) :=
  inferInstanceAs (Decidable (∀ d ∈ docs, ∀ e ∈ docs, d.uri ≠ e.uri →
    Apart (d.read settings).1 (e.read settings).1))

/-- Documents that have not been looked at: each uri stands once, all are bound to kinds of files or
to nothing, and no two have a common id. -/
structure Unrelated (settings : Settings) (docs : List Document) : Prop where
  nodup_uris : (docs.map (·.uri)).Nodup
  inPack : ∀ doc ∈ docs, doc.InPack
  unreported : ∀ doc ∈ docs, doc.report = none
  apart : AllApart settings docs

/-- The look at a document if it were the only one. -/
def alone (settings : Settings) (data : GameData) (doc : Document) :
    Document × Except Fault Report :=
  doc.examine settings data [] .alone

theorem unclaimed_nil (doc : Document) : doc.Unclaimed [] := fun _ _ _ h => nomatch h

/-- Documents that have no id in common with another one have registered none of its ids. -/
theorem Checked.unclaimed (h : Checked settings docs)
    (hapart : ∀ d ∈ docs, d.uri ≠ doc.uri → Apart d doc) : doc.Unclaimed (registryOf docs) := by
  intro kind p hp htaken
  rw [h.firstWins.mem_taken_iff h.nodup_uris] at htaken
  unfold ownedElsewhere at htaken
  cases howner : owner? docs kind (declaredId p.keyText) with
  | none => simp [howner] at htaken
  | some owner =>
    have huri : owner.uri ≠ doc.uri := by simpa [howner] using htaken
    have hdeclares : owner.declares kind (declaredId p.keyText) := by
      simpa using List.find?_some howner
    obtain ⟨q, hq, hid⟩ := List.any_eq_true.mp hdeclares
    have hid : q.value.isSome ∧ declaredId q.keyText = declaredId p.keyText := by simpa using hid
    exact hapart owner (List.mem_of_find?_eq_some howner) huri kind q hq p hp hid.2

namespace Unrelated

variable (h : Unrelated settings docs)

include h

/-- After some of the documents have been looked at alone, the next one is looked at as if it were
the only one. -/
theorem examine_eq_alone {done front rest : List Document} (hdone : Checked settings done)
    (hdocs : docs = front ++ doc :: rest)
    (hfront : done = front.map fun d => (alone settings data d).1) :
    doc.examine settings data (registryOf done) .alone = alone settings data doc := by
  have hd : doc ∈ docs := by simp [hdocs]
  refine Document.examine_unclaimed (h.inPack doc hd) (hdone.unclaimed ?_) (unclaimed_nil _)
  intro looked hlooked huri kind p hp q hq
  rw [hfront] at hlooked
  obtain ⟨d, hm, rfl⟩ := List.mem_map.mp hlooked
  rw [Document.uri_read, alone, Document.uri_examine] at huri
  rw [alone, Document.entries_examine] at hp
  exact h.apart d (by simp [hdocs, hm]) doc hd huri kind p hp q hq

/-- **Documents without common ids are looked at alone as if each were the only one.** -/
theorem pass_alone (data : GameData) :
    ((pass settings data .alone [] docs).2 = .ok () ↔
        ∀ doc ∈ docs, ∃ r, (alone settings data doc).2 = .ok r) ∧
      ((pass settings data .alone [] docs).2 = .ok () →
        (pass settings data .alone [] docs).1 =
          docs.map fun doc => (alone settings data doc).1) := by
  refine pass_of_looks
    (fun done rest => Checked settings done ∧ ∃ front, docs = front ++ rest ∧
      done = front.map fun d => (alone settings data d).1) ?_ ?_ ⟨checked_nil _, [], rfl, rfl⟩
  · rintro done doc rest ⟨hdone, front, hdocs, hfront⟩
    have hrest : ∀ d ∈ doc :: rest, d.report = none :=
      fun d hd => h.unreported d (by rw [hdocs]; exact List.mem_append_right _ hd)
    rw [registryOf_append_of_unreported hrest]
    exact h.examine_eq_alone hdone hdocs hfront
  · rintro done doc rest r ⟨hdone, front, hdocs, hfront⟩ hr
    have hlook : doc.examine settings data (registryOf done) .alone = alone settings data doc :=
      h.examine_eq_alone hdone hdocs hfront
    have huris : (done ++ doc :: rest).map (·.uri) = docs.map (·.uri) := by
      have hsame : ∀ d, (alone settings data d).1.uri = d.uri := fun d => Document.uri_examine d
      rw [hdocs, hfront, List.map_append, List.map_append, List.map_map]
      simp [Function.comp_def, hsame]
    have hn : ((done ++ doc :: rest).map (·.uri)).Nodup := huris ▸ h.nodup_uris
    refine ⟨?_, front ++ [doc], by simp [hdocs], by simp [hfront]⟩
    rw [← hlook] at hr ⊢
    exact hdone.append_look hn (h.inPack doc (by simp [hdocs])) hr

/-- Documents that have been looked at alone have no common ids either. -/
theorem apart_alone (hall : ∀ doc ∈ docs, ∃ r, (alone settings data doc).2 = .ok r) :
    AllApart settings (docs.map fun doc => (alone settings data doc).1) := by
  have hentries : ∀ d ∈ docs, ∀ kind,
      (((alone settings data d).1.read settings).1.entries kind) =
        (d.read settings).1.entries kind := by
    intro d hd kind
    obtain ⟨r, hr⟩ := hall d hd
    obtain ⟨front, hread⟩ := Document.IsRead.of_examine hr
    have hread : (alone settings data d).1.read settings =
      ((alone settings data d).1, .ok front) := hread
    rw [hread]
    exact Document.entries_examine kind
  intro looked hlooked looked' hlooked' huri kind p hp q hq
  obtain ⟨d, hd, rfl⟩ := List.mem_map.mp hlooked
  obtain ⟨e, he, rfl⟩ := List.mem_map.mp hlooked'
  rw [hentries d hd] at hp
  rw [hentries e he] at hq
  rw [alone, alone, Document.uri_examine, Document.uri_examine] at huri
  exact h.apart d hd e he huri kind p hp q hq

end Unrelated

/-! ## The same documents in another order -/

namespace Checked

variable (h : Checked settings docs)

include h

/-- **A document without common ids is told the same among the others in whatever order these
stand.** -/
theorem together_sameUpToOrder (h' : Checked settings docs') (hperm : docs.Perm docs')
    (hapart : AllApart settings docs) (data : GameData) (hd : doc ∈ docs) :
    Except.Rel Report.SameUpToOrder (together settings data docs doc).2
      (together settings data docs' doc).2 := by
  have hread : ∀ d ∈ docs, (d.read settings).1 = d := by
    intro d hd
    obtain ⟨front, hread⟩ := h.isRead d hd
    rw [hread]
  have hdoc : ∀ d ∈ docs, d.uri ≠ doc.uri → Apart d doc := by
    intro d hm huri
    have hsep := hapart d hm doc hd huri
    rwa [hread d hm, hread doc hd] at hsep
  refine Document.examine_related Report.congruence_sameUpToOrder (h.inPack doc hd) ?_ ?_
    fun ref hname s => Reference.sameUpToOrder_report hname ⟨registryOf docs', rfl⟩ ?_ ?_ s
  · rw [hread doc hd]
    exact h.unclaimed hdoc
  · rw [hread doc hd]
    exact h'.unclaimed fun d hm => hdoc d (hperm.mem_iff.mpr hm)
  · exact (hperm.filterMap _).flatMap_right _
  · exact components_registryOf docs ref.kind ▸ h.firstWins.nodup_ids ref.kind

end Checked

/-! ## Two documents that declare different ids -/

/-- Each document refers to the other one. The last reference leads nowhere, and the first id that
has been registered is offered for it. -/
def allies : Workspace where
  documents := [
    unexamined "file:///a.yml" (.ofString "a: \x7bOnCooldownSkill: b\x7d\n") (some .skill),
    unexamined "file:///b.yml" (.ofString
      "b: \x7bOnCooldownSkill: a\x7d\nc: \x7bOnCooldownSkill: d\x7d\n") (some .skill)]

theorem nodup_uris_allies : allies.uris.Nodup := by decide

theorem inPack_allies : ∀ doc ∈ allies.documents, doc.InPack := by
  simp [allies, (Document.proper_unexamined ..).inPack]

theorem allApart_allies : AllApart allies.settings allies.documents := by decide +kernel

theorem endsWell_allies : allies.endsWell := by decide +kernel

/-! ## Workspaces -/

section Workspaces

variable {ws : Workspace} (hn : ws.uris.Nodup) (hp : ∀ doc ∈ ws.documents, doc.InPack)
  (ha : AllApart ws.settings ws.documents)

include hn hp ha

theorem unrelated_withoutReports : Unrelated ws.settings ws.withoutReports.documents where
  nodup_uris := (ws.uris_withoutReports ▸ hn : ws.withoutReports.uris.Nodup)
  inPack doc hd := by
    obtain ⟨d, hm, rfl⟩ := List.mem_map.mp hd
    exact hp d hm
  unreported doc hd := by
    obtain ⟨d, -, rfl⟩ := List.mem_map.mp hd
    rfl
  apart d hd e he huri kind p hp q hq := by
    obtain ⟨d, hm, rfl⟩ := List.mem_map.mp hd
    obtain ⟨e, hm', rfl⟩ := List.mem_map.mp he
    rw [Document.entries_read_unreported] at hp hq
    exact ha d hm e hm' huri kind p hp q hq

/-- In documents without common ids all are looked at alone as if each were the only one. -/
theorem checkAll_unrelated :
    (ws.checkAll.2 = .ok () ↔ ∀ doc ∈ ws.withoutReports.documents,
        ∃ r, (alone ws.settings ws.data doc).2 = .ok r) ∧
      (ws.checkAll.2 = .ok () → ws.checkAll.1.documents =
        ws.withoutReports.documents.map fun doc => (alone ws.settings ws.data doc).1) := by
  rw [checkAll_eq hn]
  exact (unrelated_withoutReports hn hp ha).pass_alone ws.data

/-- Looked at alone, documents without common ids are the same in whatever order they are. -/
theorem checkAll_perm {docs : List Document} (hdocs : ws.documents.Perm docs)
    (h : ws.checkAll.2 = .ok ()) :
    let ws' := { ws with documents := docs }
    ws'.checkAll.2 = .ok () ∧ ws.checkAll.1.documents.Perm ws'.checkAll.1.documents := by
  intro ws'
  have hn' : ws'.uris.Nodup := (hdocs.map _).nodup_iff.mp hn
  have hp' : ∀ doc ∈ ws'.documents, doc.InPack := fun doc hd => hp doc (hdocs.mem_iff.mpr hd)
  have ha' : AllApart ws'.settings ws'.documents :=
    fun d hd e he => ha d (hdocs.mem_iff.mpr hd) e (hdocs.mem_iff.mpr he)
  have hfresh : ws.withoutReports.documents.Perm ws'.withoutReports.documents := hdocs.map _
  obtain ⟨hall, hmap⟩ := checkAll_unrelated hn hp ha
  obtain ⟨hall', hmap'⟩ := checkAll_unrelated hn' hp' ha'
  have h' : ws'.checkAll.2 = .ok () :=
    hall'.mpr fun doc hd => hall.mp h doc (hfresh.mem_iff.mpr hd)
  refine ⟨h', ?_⟩
  rw [hmap h, hmap' h']
  exact hfresh.map _

/-- **What is told in a look at all documents does not depend on the order in which they have been
loaded, if no id is a top-level key of two of them.** -/
theorem examineAll_sameUpToOrder {docs : List Document} (hdocs : ws.documents.Perm docs)
    (h : ws.examineAll.2 = .ok ()) :
    let ws' := { ws with documents := docs }
    ws'.examineAll.2 = .ok () ∧ ∀ uri ∈ ws.uris, ∃ doc doc' r r',
      ws.examineAll.1.get? uri = some doc ∧ doc.report = some r ∧
        ws'.examineAll.1.get? uri = some doc' ∧ doc'.report = some r' ∧ r.SameUpToOrder r' := by
  intro ws'
  have hn' : ws'.uris.Nodup := (hdocs.map _).nodup_iff.mp hn
  have hp' : ∀ doc ∈ ws'.documents, doc.InPack := fun doc hd => hp doc (hdocs.mem_iff.mpr hd)
  have hc := checkAll_of_examineAll h
  obtain ⟨hc', hperm⟩ := checkAll_perm hn hp ha hdocs hc
  have hchecked := checked_checkAll hn hp hc
  have hchecked' : Checked ws.settings ws'.checkAll.1.documents := checked_checkAll hn' hp' hc'
  have hapart : AllApart ws.settings ws.checkAll.1.documents := by
    obtain ⟨hall, hmap⟩ := checkAll_unrelated hn hp ha
    rw [hmap hc]
    exact (unrelated_withoutReports hn hp ha).apart_alone (hall.mp hc)
  -- the documents are the same now, so each is told the same among the others
  have hrelated : ∀ doc ∈ ws.checkAll.1.documents, ∃ r r',
      ws.examineAll.1.get? doc.uri = some { doc with report := some r } ∧
        (together ws.settings ws.data ws'.checkAll.1.documents doc).2 = .ok r' ∧
        r.SameUpToOrder r' := by
    intro doc hd
    obtain ⟨r, hr, hkept⟩ := get?_examineAll hn hp h hd
    have hrel := hchecked.together_sameUpToOrder hchecked' hperm hapart ws.data hd
    rw [hr] at hrel
    obtain ⟨r', hr', hsame⟩ := hrel.of_ok
    exact ⟨r, r', hkept, hr', hsame⟩
  have h' : ws'.examineAll.2 = .ok () := by
    refine (examineAll_of_checkAll hn' hp' hc').1.mpr fun doc hd => ?_
    obtain ⟨-, r', -, hr', -⟩ := hrelated doc (hperm.mem_iff.mpr hd)
    exact ⟨r', hr'⟩
  refine ⟨h', fun uri hu => ?_⟩
  obtain ⟨doc, hd, rfl⟩ := List.mem_map.mp (uris_checkAll hn ▸ hu : uri ∈ ws.checkAll.1.uris)
  obtain ⟨r, r', hkept, hr', hsame⟩ := hrelated doc hd
  obtain ⟨s, hs, hkept'⟩ := get?_examineAll hn' hp' h' (hperm.mem_iff.mp hd)
  obtain rfl : r' = s := Except.ok.inj (hr'.symm.trans hs)
  exact ⟨_, _, r, r', hkept, rfl, hkept', rfl, hsame⟩

omit hn hp ha in
theorem sameUpToOrder_allies :
    let ws' := { allies with documents := allies.documents.reverse }
    allies.uris.Nodup ∧ (∀ doc ∈ allies.documents, doc.InPack) ∧
      AllApart allies.settings allies.documents ∧
      allies.documents.Perm allies.documents.reverse ∧ allies.examineAll.2 = .ok () ∧
      ws'.examineAll.2 = .ok () ∧ ∀ uri ∈ allies.uris, ∃ doc doc' r r',
        allies.examineAll.1.get? uri = some doc ∧ doc.report = some r ∧
          ws'.examineAll.1.get? uri = some doc' ∧ doc'.report = some r' ∧ r.SameUpToOrder r' := by
  have hdocs := (List.reverse_perm allies.documents).symm
  have h := examineAll_of_endsWell endsWell_allies
  exact ⟨nodup_uris_allies, inPack_allies, allApart_allies, hdocs, h,
    examineAll_sameUpToOrder nodup_uris_allies inPack_allies allApart_allies hdocs h⟩

end Workspaces

end Workspace

end PackLint
