import PackLint.Proofs.Document.Reading
import PackLint.Proofs.Entries
import PackLint.Workspace

/-!
# Passes over the documents

`Workspace.examineEach` looks its documents up by their uris and puts them back one by one. Where
every uri stands once, this is a pass over the list of documents: those already looked at, the one
that is looked at now, and the rest. What is registered during the pass is what all three have in
their reports, some of which are older than others.

Results:
* `Workspace.examineEach_eq`: examining documents in order is a pass over them.
* `Workspace.checkAll_eq`: so is looking at all of them alone, without their reports.
* `Workspace.pass_of_looks`: a pass in which every look has the outcome of a fixed function maps
  that function over the documents.
-/

namespace PackLint

namespace Workspace

/-! ## Passes -/

/-- What documents have in their reports is registered. -/
def registryOf (docs : List Document) : Registry :=
  docs.filterMap fun d => d.report.map fun r => (d.uri, r.components)

/-- A pass over the documents `rest`, when those before them have been looked at. -/
def pass (settings : Settings) (data : GameData) (depth : Depth) (done : List Document) :
    List Document → List Document × Except Fault Unit
  | [] => (done, .ok ())
  | doc :: rest =>
    match doc.examine settings data (registryOf (done ++ doc :: rest)) depth with
    | (doc, .error fault) => (done ++ doc :: rest, .error fault)
    | (doc, .ok _) => pass settings data depth (done ++ [doc]) rest

variable {ws : Workspace} {done rest : List Document} {doc : Document}

/-! ## Examining documents in order -/

/-- Where every uri stands once, a document is found by its uri. -/
theorem find?_uri {docs : List Document} (hn : (docs.map (·.uri)).Nodup) (hd : doc ∈ docs) :
    docs.find? (·.uri = doc.uri) = some doc := find?_of_nodup_map hn hd

theorem replace_at (hn : ws.uris.Nodup) (h : ws.documents = done ++ doc :: rest) {doc' : Document}
    (huri : doc'.uri = doc.uri) :
    ws.replace doc' = { ws with documents := done ++ doc' :: rest } := by
  unfold uris at hn
  rw [h, List.map_append, List.map_cons] at hn
  obtain ⟨-, hrest, hdone⟩ := List.nodup_append.mp hn
  have hkeep : ∀ docs : List Document, (∀ d ∈ docs, d.uri ≠ doc.uri) →
      (docs.map fun d => if d.uri = doc.uri then doc' else d) = docs := by
    intro docs hdocs
    refine (List.map_congr_left fun d hd => ?_).trans (List.map_id docs)
    exact if_neg (hdocs d hd)
  have hfront : ∀ d ∈ done, d.uri ≠ doc.uri :=
    fun d hd => hdone d.uri (List.mem_map_of_mem hd) doc.uri List.mem_cons_self
  have hback : ∀ d ∈ rest, d.uri ≠ doc.uri :=
    fun d hd he => (List.nodup_cons.mp hrest).1 (he ▸ List.mem_map_of_mem hd)
  unfold replace
  rw [h, huri, List.map_append, List.map_cons, hkeep done hfront, hkeep rest hback, if_pos rfl]

/-- A document is looked at among the others and put back where it stood. -/
theorem examine_at (hn : ws.uris.Nodup) (h : ws.documents = done ++ doc :: rest) (depth : Depth) :
    ws.examine depth doc.uri =
      ({ ws with documents := done ++
          (doc.examine ws.settings ws.data (registryOf ws.documents) depth).1 :: rest },
        (doc.examine ws.settings ws.data (registryOf ws.documents) depth).2) := by
  have hget : ws.get? doc.uri = some doc := find?_uri hn (by simp [h])
  unfold Workspace.examine Workspace.get
  rw [hget]
  simp only
  rw [replace_at hn h (Document.uri_examine doc)]
  rfl

/-- **Examining documents in order is a pass over them.** -/
theorem examineEach_eq (hn : ws.uris.Nodup) (h : ws.documents = done ++ rest) (depth : Depth) :
    examineEach depth (rest.map (·.uri)) ws =
      ({ ws with documents := (pass ws.settings ws.data depth done rest).1 },
        (pass ws.settings ws.data depth done rest).2) := by
  induction rest generalizing ws done with
  | nil =>
    rw [List.append_nil] at h
    subst h
    rfl
  | cons doc rest ih =>
    simp only [List.map_cons, examineEach, pass]
    rw [examine_at hn h depth, ← h]
    have huri : (doc.examine ws.settings ws.data (registryOf ws.documents) depth).1.uri = doc.uri :=
      Document.uri_examine doc
    generalize doc.examine ws.settings ws.data (registryOf ws.documents) depth = outcome
      at huri ⊢
    obtain ⟨doc', answer⟩ := outcome
    cases answer with
    | error fault => rfl
    | ok r =>
      simp only
      refine ih ?_ ?_
      · unfold uris at hn ⊢
        simp only at huri ⊢
        rw [h] at hn
        simpa [huri] using hn
      · simp

/-! ## What a pass does -/

section Pass

variable {settings : Settings} {data : GameData} {depth : Depth}

theorem uris_pass (done rest : List Document) :
    (pass settings data depth done rest).1.map (·.uri) = (done ++ rest).map (·.uri) := by
  induction rest generalizing done with
  | nil => simp [pass]
  | cons doc rest ih =>
    unfold pass
    have huri : (doc.examine settings data (registryOf (done ++ doc :: rest)) depth).1.uri =
        doc.uri := Document.uri_examine doc
    generalize doc.examine settings data (registryOf (done ++ doc :: rest)) depth = outcome
      at huri ⊢
    obtain ⟨doc', answer⟩ := outcome
    simp only at huri
    cases answer with
    | error fault => simp [huri]
    | ok r =>
      simp only
      rw [ih]
      simp [huri]

variable {look : Document → Document × Except Fault Report}
  (J : List Document → List Document → Prop)
  (hlook : ∀ done doc rest, J done (doc :: rest) →
    doc.examine settings data (registryOf (done ++ doc :: rest)) depth = look doc)
  (hJ : ∀ done doc rest r, J done (doc :: rest) → (look doc).2 = .ok r →
    J (done ++ [(look doc).1]) rest)

include hlook hJ

/-- **A pass in which every look has the outcome of a fixed function maps that function over the
documents, if all looks have a report.** -/
theorem pass_of_looks (h : J done rest) :
    ((pass settings data depth done rest).2 = .ok () ↔ ∀ doc ∈ rest, ∃ r, (look doc).2 = .ok r) ∧
      ((pass settings data depth done rest).2 = .ok () →
        (pass settings data depth done rest).1 = done ++ rest.map fun doc => (look doc).1) := by
  induction rest generalizing done with
  | nil => simp [pass]
  | cons doc rest ih =>
    have hstep := hJ done doc rest
    unfold pass
    rw [hlook done doc rest h]
    cases hlooked : look doc with
    | mk doc' answer =>
      rw [hlooked] at hstep
      cases answer with
      | error fault =>
        refine ⟨⟨fun h => (nomatch h), fun hall => ?_⟩, fun h => (nomatch h)⟩
        obtain ⟨r, hr⟩ := hall doc List.mem_cons_self
        rw [hlooked] at hr
        cases hr
      | ok r =>
        obtain ⟨hok, hdocs⟩ := ih (hstep r h rfl)
        refine ⟨?_, fun h => ?_⟩
        · rw [List.forall_mem_cons, hlooked]
          exact hok.trans ⟨fun h => ⟨⟨r, rfl⟩, h⟩, fun h => h.2⟩
        · rw [hdocs h, List.map_cons, hlooked, List.append_assoc]
          rfl

end Pass

/-- What an examination registers stays registered in a pass if each document has registered it
before. -/
theorem registryOf_look {doc' : Document} (huri : doc'.uri = doc.uri)
    (hreport : doc'.report.map (·.components) = doc.report.map (·.components)) :
    registryOf (done ++ doc' :: rest) = registryOf (done ++ doc :: rest) := by
  have hone : (doc'.report.map fun r => (doc'.uri, r.components)) =
      doc.report.map fun r => (doc.uri, r.components) := by
    rw [huri]
    have h := congrArg (Option.map (Prod.mk doc.uri)) hreport
    simpa [Option.map_map, Function.comp_def] using h
  unfold registryOf
  rw [List.filterMap_append, List.filterMap_append, List.filterMap_cons, List.filterMap_cons, hone]

/-! ## Looking at all documents alone -/

/-- Looking at all documents alone is a pass over them without reports. -/
theorem checkAll_eq (hn : ws.uris.Nodup) : ws.checkAll =
    ({ ws with documents :=
        (pass ws.settings ws.data .alone [] ws.withoutReports.documents).1 },
      (pass ws.settings ws.data .alone [] ws.withoutReports.documents).2) := by
  have huris : ws.uris = ws.withoutReports.documents.map (·.uri) :=
    ws.uris_withoutReports.symm
  unfold Workspace.checkAll
  rw [huris, examineEach_eq (ws.uris_withoutReports ▸ hn) (List.nil_append _).symm]
  rfl

theorem uris_checkAll (hn : ws.uris.Nodup) : ws.checkAll.1.uris = ws.uris := by
  rw [checkAll_eq hn]
  unfold uris
  simp only
  rw [uris_pass, List.nil_append]
  exact ws.uris_withoutReports

end Workspace

end PackLint
