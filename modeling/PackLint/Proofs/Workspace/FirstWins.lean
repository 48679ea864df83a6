import PackLint.Proofs.Document.Entries
import PackLint.Proofs.Workspace.Ownership
import PackLint.Proofs.Workspace.Pass

/-!
# The first document keeps an id

When all documents are looked at alone (`partial_process_all`), in order and without reports of
before, each registers the ids that it declares and that no document before it declares. So an id
belongs to the first document that declares it with a value.

Results:
* `Workspace.FirstWins.mem_taken_iff`: an id is taken from a document iff it belongs to another one.
* `Workspace.FirstWins.filter_declared`: an id has one component, that of the document it belongs
  to.
* `Workspace.FirstWins.nodup_ids`: so each id is registered once.
* `Workspace.checked_checkAll`: after a look at all documents alone the first one keeps an id.
-/

namespace PackLint

namespace Workspace

variable {settings : Settings} {data : GameData} {depth : Depth}
variable {docs done rest : List Document} {doc : Document} {kind : ComponentKind} {id uri : String}

/-! ## Owners -/

/-- The document that an id belongs to: the first one that declares it. -/
def owner? (docs : List Document) (kind : ComponentKind) (id : String) : Option Document :=
  docs.find? (·.declares kind id)

/-- Whether an id belongs to a document, but not to the one at `uri`. -/
def ownedElsewhere (docs : List Document) (uri : String) (kind : ComponentKind) (id : String) :
    Bool :=
  (owner? docs kind id).any (·.uri ≠ uri)

/-- The entries by which a document registers ids, when `before` are the documents before it: those
that have a value, and whose id none of them declares. -/
def registering (before : List Document) (doc : Document) (kind : ComponentKind) : List Pair :=
  (doc.entries kind).filter fun p =>
    p.value.isSome && !before.any (·.declares kind (declaredId p.keyText))

/-- Each document has registered what it declares and no document before it declares. -/
def FirstWins (docs : List Document) : Prop :=
  ∀ before doc after, docs = before ++ doc :: after → ∃ r, doc.report = some r ∧ ∀ kind,
    r.components.of kind = Registration.enrol doc.place (registering before doc kind)

theorem exists_registering {before : List Document} :
    (∃ p ∈ registering before doc kind, declaredId p.keyText = id) ↔
      doc.declares kind id ∧ ¬ before.any (·.declares kind id) := by
  unfold registering Document.declares
  constructor
  · rintro ⟨p, hp, rfl⟩
    obtain ⟨hp, hfree⟩ := List.mem_filter.mp hp
    simp only [Bool.and_eq_true, Bool.not_eq_true'] at hfree
    exact ⟨List.any_eq_true.mpr ⟨p, hp, by simp [hfree.1]⟩, by simpa using hfree.2⟩
  · rintro ⟨hdeclares, hfree⟩
    obtain ⟨p, hp, h⟩ := List.any_eq_true.mp hdeclares
    simp only [Bool.and_eq_true, decide_eq_true_eq] at h
    obtain ⟨hvalue, rfl⟩ := h
    exact ⟨p, List.mem_filter.mpr ⟨hp, by simpa [hvalue] using hfree⟩, rfl⟩

theorem owner?_eq_some_iff {before after : List Document}
    (hn : ((before ++ doc :: after).map (·.uri)).Nodup) :
    owner? (before ++ doc :: after) kind id = some doc ↔
      doc.declares kind id ∧ ¬ before.any (·.declares kind id) := by
  unfold owner?
  rw [List.find?_append]
  cases hbefore : before.find? (·.declares kind id) with
  | none =>
    have hfree : ¬ before.any (·.declares kind id) := by
      simpa using List.find?_eq_none.mp hbefore
    rw [Option.none_or, List.find?_cons]
    cases hdoc : doc.declares kind id with
    | true => simpa using hfree
    | false =>
      -- a later document is not `doc`, whose uri stands once
      refine ⟨fun h => ?_, fun h => absurd h.1 (by simp)⟩
      simpa [hdoc] using List.find?_some h
  | some e =>
    have he := List.mem_of_find?_eq_some hbefore
    have hfound : e.declares kind id = true := by simpa using List.find?_some hbefore
    have hdeclares : before.any (·.declares kind id) = true :=
      List.any_eq_true.mpr ⟨e, he, hfound⟩
    rw [Option.some_or]
    refine ⟨fun h => ?_, fun h => absurd hdeclares h.2⟩
    cases h
    rw [List.map_append, List.map_cons, List.nodup_append] at hn
    exact absurd rfl (hn.2.2 doc.uri (List.mem_map_of_mem he) doc.uri List.mem_cons_self)

theorem owner?_append (docs docs' : List Document) (kind : ComponentKind) (id : String) :
    owner? (docs ++ docs') kind id = (owner? docs kind id).or (owner? docs' kind id) :=
  List.find?_append

/-- Seen from a document apart, an id belongs to another one iff some document declares it. -/
theorem ownedElsewhere_of_not_mem (h : uri ∉ docs.map (·.uri)) :
    ownedElsewhere docs uri kind id = docs.any (·.declares kind id) := by
  unfold ownedElsewhere owner?
  cases howner : docs.find? (·.declares kind id) with
  | none => simpa using List.find?_eq_none.mp howner
  | some owner =>
    have hd := List.mem_of_find?_eq_some howner
    have hdeclares : owner.declares kind id = true := by simpa using List.find?_some howner
    have hany : docs.any (·.declares kind id) = true := List.any_eq_true.mpr ⟨owner, hd, hdeclares⟩
    have huri : owner.uri ≠ uri := fun he => h (he ▸ List.mem_map_of_mem hd)
    simpa [huri] using hany.symm

/-- Seen from a document that declares an id, the id belongs to another one iff a document before it
declares it. -/
theorem ownedElsewhere_of_declares {before after : List Document}
    (hn : ((before ++ doc :: after).map (·.uri)).Nodup) (h : doc.declares kind id) :
    ownedElsewhere (before ++ doc :: after) doc.uri kind id =
      before.any (·.declares kind id) := by
  rw [List.map_append, List.map_cons, List.nodup_append] at hn
  have hnot : doc.uri ∉ before.map (·.uri) :=
    fun hm => hn.2.2 doc.uri hm doc.uri List.mem_cons_self rfl
  have hdoc : owner? (doc :: after) kind id = some doc := List.find?_cons_of_pos h
  rw [← ownedElsewhere_of_not_mem hnot]
  unfold ownedElsewhere
  rw [owner?_append, hdoc]
  cases owner? before kind id <;> simp

namespace FirstWins

variable (h : FirstWins docs) (hn : (docs.map (·.uri)).Nodup)

include h

theorem exists_report (hd : doc ∈ docs) : ∃ r, doc.report = some r := by
  obtain ⟨before, after, hdocs⟩ := List.append_of_mem hd
  obtain ⟨r, hr, -⟩ := h before doc after hdocs
  exact ⟨r, hr⟩

include hn

/-- A document has registered the ids that belong to it. -/
theorem registers_iff (hd : doc ∈ docs) {r : Report} (hr : doc.report = some r) :
    (∃ c ∈ r.components.of kind, c.id = id) ↔ owner? docs kind id = some doc := by
  obtain ⟨before, after, hdocs⟩ := List.append_of_mem hd
  obtain ⟨r', hr', hcomponents⟩ := h before doc after hdocs
  obtain rfl : r = r' := Option.some.inj (hr.symm.trans hr')
  rw [hcomponents, Registration.exists_mem_enrol, exists_registering, hdocs,
    owner?_eq_some_iff (hdocs ▸ hn)]

/-- **An id is taken from a document iff it belongs to another one.** -/
theorem mem_taken_iff :
    id ∈ (registryOf docs).taken uri kind ↔ ownedElsewhere docs uri kind id := by
  refine (@mem_taken kind ⟨{}, {}, docs⟩ uri id).trans ?_
  unfold ownedElsewhere
  constructor
  · rintro ⟨doc, hd, huri, c, hc, hid⟩
    obtain ⟨r, hr, hc⟩ := mem_declared.mp hc
    rw [(h.registers_iff hn hd hr).mp ⟨c, hc, hid⟩]
    simpa using huri
  · intro howned
    cases howner : owner? docs kind id with
    | none => simp [howner] at howned
    | some owner =>
      have huri : owner.uri ≠ uri := by simpa [howner] using howned
      have hd : owner ∈ docs := List.mem_of_find?_eq_some howner
      obtain ⟨r, hr⟩ := h.exists_report hd
      obtain ⟨c, hc, hid⟩ := (h.registers_iff hn hd hr).mpr howner
      exact ⟨owner, hd, huri, c, mem_declared.mpr ⟨r, hr, hc⟩, hid⟩

end FirstWins

/-! ## Looking at all documents alone -/

/-- Documents that have been looked at alone: each uri stands once, all are bound to kinds of files
or to nothing and have been read, and the first one keeps an id. -/
structure Checked (settings : Settings) (docs : List Document) : Prop where
  nodup_uris : (docs.map (·.uri)).Nodup
  inPack : ∀ doc ∈ docs, doc.InPack
  isRead : ∀ doc ∈ docs, doc.IsRead settings
  firstWins : FirstWins docs

theorem checked_nil (settings : Settings) : Checked settings [] where
  nodup_uris := List.nodup_nil
  inPack _ h := nomatch h
  isRead _ h := nomatch h
  firstWins before _ _ h := by simp at h

theorem FirstWins.append_singleton (h : FirstWins done) {r : Report} (hr : doc.report = some r)
    (hcomponents : ∀ kind,
      r.components.of kind = Registration.enrol doc.place (registering done doc kind)) :
    FirstWins (done ++ [doc]) := by
  intro before doc' after hsplit
  induction after using List.reverseRecOn with
  | nil =>
    obtain ⟨rfl, hdoc⟩ := List.append_inj' hsplit rfl
    cases hdoc
    exact ⟨r, hr, hcomponents⟩
  | append_singleton after last _ =>
    rw [← List.cons_append, ← List.append_assoc] at hsplit
    exact h before doc' after (List.append_inj' hsplit rfl).1

/-- Documents without a report register nothing. -/
theorem registryOf_append_of_unreported (h : ∀ d ∈ rest, d.report = none) :
    registryOf (done ++ rest) = registryOf done := by
  have hrest : rest.filterMap (fun d => d.report.map fun r => (d.uri, r.components)) = [] :=
    List.filterMap_eq_nil_iff.mpr fun d hd => by rw [h d hd]; rfl
  unfold registryOf
  rw [List.filterMap_append, hrest, List.append_nil]

/-- What is taken from a document is what belongs to another one. -/
theorem Checked.contains_taken (h : Checked settings docs) (uri : String)
    (kind : ComponentKind) (id : String) :
    ((registryOf docs).taken uri kind).contains id = ownedElsewhere docs uri kind id := by
  rw [List.contains_eq_mem, Bool.eq_iff_iff, decide_eq_true_iff]
  exact h.firstWins.mem_taken_iff h.nodup_uris

/-- What is taken from a document that is looked at alone is what the documents before it
declare. -/
theorem Checked.contains_taken_alone (h : Checked settings done)
    (hn : ((done ++ doc :: rest).map (·.uri)).Nodup) (kind : ComponentKind) (id : String) :
    ((registryOf done).taken doc.uri kind).contains id = done.any (·.declares kind id) := by
  rw [List.map_append, List.map_cons, List.nodup_append] at hn
  rw [h.contains_taken, ownedElsewhere_of_not_mem]
  exact fun hm => hn.2.2 doc.uri hm doc.uri List.mem_cons_self rfl

/-- One more document that is looked at alone leaves the ids to the documents before it. -/
theorem Checked.append_look (h : Checked settings done)
    (hn : ((done ++ doc :: rest).map (·.uri)).Nodup) (hp : doc.InPack) {r : Report}
    (hr : (doc.examine settings data (registryOf done) .alone).2 = .ok r) :
    Checked settings (done ++ [(doc.examine settings data (registryOf done) .alone).1]) := by
  have hreport : (doc.examine settings data (registryOf done) .alone).1.report = some r := by
    rw [Document.report_of_examine, hr]
  refine ⟨?_, ?_, ?_, h.firstWins.append_singleton hreport fun kind => ?_⟩
  · rw [List.map_append, List.map_singleton, Document.uri_examine]
    rw [List.map_append, List.map_cons] at hn
    exact hn.sublist ((List.Sublist.refl _).append (List.singleton_sublist.mpr List.mem_cons_self))
  · intro d hd
    rcases List.mem_append.mp hd with hd | hd
    · exact h.inPack d hd
    · rw [List.mem_singleton.mp hd]
      exact hp.examine
  · intro d hd
    rcases List.mem_append.mp hd with hd | hd
    · exact h.isRead d hd
    · rw [List.mem_singleton.mp hd]
      exact Document.IsRead.of_examine hr
  · rw [Document.components_examine hp hr]
    congr 1
    refine List.filter_congr fun p _ => ?_
    unfold Registration.registers
    rw [h.contains_taken_alone hn]

/-- **A pass over documents without reports lets the first document keep an id.** -/
theorem checked_pass (hn : ((done ++ rest).map (·.uri)).Nodup) (hp : ∀ doc ∈ rest, doc.InPack)
    (hrest : ∀ doc ∈ rest, doc.report = none) (h : Checked settings done)
    (hok : (pass settings data .alone done rest).2 = .ok ()) :
    Checked settings (pass settings data .alone done rest).1 := by
  induction rest generalizing done with
  | nil => exact h
  | cons doc rest ih =>
    have huri : (doc.examine settings data (registryOf done) .alone).1.uri = doc.uri :=
      Document.uri_examine doc
    have happend : ∀ r, (doc.examine settings data (registryOf done) .alone).2 = .ok r →
        Checked settings (done ++ [(doc.examine settings data (registryOf done) .alone).1]) :=
      fun r => h.append_look hn (hp doc List.mem_cons_self)
    unfold pass at hok ⊢
    rw [registryOf_append_of_unreported hrest] at hok ⊢
    cases hlook : doc.examine settings data (registryOf done) .alone with
    | mk doc' answer =>
      rw [hlook] at hok huri happend
      cases answer with
      | error fault => cases hok
      | ok r =>
        refine ih ?_ (fun d hd => hp d (List.mem_cons_of_mem doc hd))
          (fun d hd => hrest d (List.mem_cons_of_mem doc hd)) (happend r rfl) hok
        have huri : doc'.uri = doc.uri := huri
        simpa [huri] using hn

/-! ## Components -/

theorem filter_registering {before : List Document} (h : ¬ before.any (·.declares kind id)) :
    (registering before doc kind).filter (declaredId ·.keyText = id) = doc.valued kind id := by
  unfold registering Document.valued
  rw [List.filter_filter]
  refine List.filter_congr fun p _ => ?_
  by_cases hid : declaredId p.keyText = id
  · subst hid
    simp [h]
  · simp [hid]

/-- A document keeps the component of an id if it declares the id first, and none else. -/
theorem FirstWins.filter_declared_at {before after : List Document}
    (h : FirstWins (before ++ doc :: after)) (kind : ComponentKind) (id : String) :
    (declared kind doc).filter (·.id = id) =
      if doc.declares kind id ∧ ¬ before.any (·.declares kind id) then [doc.component kind id]
      else [] := by
  obtain ⟨r, hr, hcomponents⟩ := h before doc after rfl
  have hdeclared : declared kind doc = Registration.enrol doc.place
      (registering before doc kind) := by
    unfold declared
    rw [hr, ← hcomponents]
    rfl
  have hany : (registering before doc kind).any (declaredId ·.keyText = id) = true ↔
      doc.declares kind id ∧ ¬ before.any (·.declares kind id) := by
    rw [← exists_registering, List.any_eq_true]
    simp
  rw [hdeclared, Registration.filter_enrol_eq_componentOf]
  by_cases hfirst : doc.declares kind id ∧ ¬ before.any (·.declares kind id)
  · rw [if_pos hfirst, if_pos (hany.mpr hfirst), filter_registering hfirst.2]
    rfl
  · rw [if_neg hfirst, if_neg (mt hany.mp hfirst)]

/-- **There is one component of an id, the owner's, if some document declares the id.** -/
theorem FirstWins.filter_declared (h : FirstWins docs) (kind : ComponentKind) (id : String) :
    (docs.flatMap (declared kind)).filter (·.id = id) =
      ((owner? docs kind id).map (·.component kind id)).toList := by
  suffices hsplit : ∀ before after, docs = before ++ after →
      (after.flatMap (declared kind)).filter (·.id = id) =
        if before.any (·.declares kind id) then []
        else ((owner? after kind id).map (·.component kind id)).toList from
    hsplit [] docs rfl
  intro before after
  induction after generalizing before with
  | nil => intro _; simp [owner?]
  | cons doc after ih =>
    intro hdocs
    have hrest := ih (before ++ [doc]) (by rw [hdocs, List.append_cons])
    rw [List.flatMap_cons, List.filter_append, hrest,
      (hdocs ▸ h : FirstWins (before ++ doc :: after)).filter_declared_at]
    unfold owner?
    rw [List.any_append, List.find?_cons]
    cases before.any (·.declares kind id) <;> cases hdoc : doc.declares kind id <;> simp [hdoc]

/-- Each id is registered once. -/
theorem FirstWins.nodup_ids (h : FirstWins docs) (kind : ComponentKind) :
    ((docs.flatMap (declared kind)).map (·.id)).Nodup := by
  rw [List.nodup_iff_count_le_one]
  intro id
  rw [List.count_eq_countP, List.countP_map, List.countP_eq_length_filter]
  have hone := congrArg List.length (h.filter_declared kind id)
  have hle : ((owner? docs kind id).map (·.component kind id)).toList.length ≤ 1 := by
    cases owner? docs kind id <;> simp
  rw [← hone] at hle
  exact hle

/-- What is registered is what the documents keep in their reports. -/
theorem components_registryOf (docs : List Document) (kind : ComponentKind) :
    (registryOf docs).components kind = docs.flatMap (declared kind) := by
  unfold registryOf Registry.components
  induction docs with
  | nil => rfl
  | cons doc docs ih =>
    rw [List.flatMap_cons, ← ih, List.filterMap_cons]
    unfold declared
    cases doc.report <;> rfl

/-! ## Workspaces -/

section Workspaces

variable {ws : Workspace} (hn : ws.uris.Nodup) (hp : ∀ doc ∈ ws.documents, doc.InPack)

include hn hp

/-- After all documents have been looked at alone, the first one keeps an id. -/
theorem checked_checkAll (h : ws.checkAll.2 = .ok ()) :
    Checked ws.settings ws.checkAll.1.documents := by
  rw [checkAll_eq hn] at h ⊢
  refine checked_pass ?_ ?_ ?_ (checked_nil _) h
  · exact (ws.uris_withoutReports ▸ hn : ws.withoutReports.uris.Nodup)
  · intro doc hd
    obtain ⟨d, hm, rfl⟩ := List.mem_map.mp hd
    exact hp d hm
  · intro doc hd
    obtain ⟨d, -, rfl⟩ := List.mem_map.mp hd
    rfl

end Workspaces

end Workspace

end PackLint
