import PackLint.Document
import PackLint.Proofs.Pack.Registration

/-!
# Examinations

An examination goes through three steps, and `Document.Examined` says what each of them leaves
behind: the metadata, the tree and the check may each end it in a fault, which is the answer, and
only an examination without a fault makes a report.

Results:
* `Document.examined`: how an examination ends.
* `Document.report_of_examine`: a report is kept in the document, and a fault keeps the last one.
* `Document.examine_registers`: the report on a file of a pack registers components of the document
  only.
-/

namespace PackLint

namespace Document

variable {settings : Settings} {data : GameData} {registry : Registry} {depth : Depth}
variable {doc : Document}

/-- The document with the file kind and the tree that were read. -/
def withTree (doc : Document) (kind : Option FileKind) (tree : Option Node) : Document :=
  { doc.withFileKind kind with tree }

/-- The colours of a tree, if there is one. -/
def colours (doc : Document) (tree : Option Node) : Report :=
  (tree.map doc.scalarHighlights).getD .empty

/-- The ends of an examination: the document that it leaves behind, and its answer. -/
inductive Examined (settings : Settings) (data : GameData) (registry : Registry) (depth : Depth)
    (doc : Document) : Document × Except Fault Report → Prop
  | metadataFault {fault : Fault}
      (hmetadata : Metadata.read (doc.site settings data registry) = .error fault) :
      Examined settings data registry depth doc (doc, .error fault)
  | treeFault {kind : Option FileKind} {metadata : Report} {fault : Fault}
      (hmetadata : Metadata.read (doc.site settings data registry) = .ok (kind, metadata))
      (htree : doc.parse settings.toLimits = .error fault) :
      Examined settings data registry depth doc (doc.withFileKind kind, .error fault)
  | checkFault {kind : Option FileKind} {metadata problems : Report} {tree : Option Node}
      {fault : Fault}
      (hmetadata : Metadata.read (doc.site settings data registry) = .ok (kind, metadata))
      (htree : doc.parse settings.toLimits = .ok (tree, problems))
      (hcheck : (doc.withTree kind tree).schemaReport depth
        ((doc.withTree kind tree).site settings data registry) = .error fault) :
      Examined settings data registry depth doc (doc.withTree kind tree, .error fault)
  | report {kind : Option FileKind} {metadata problems checked : Report} {tree : Option Node}
      (hmetadata : Metadata.read (doc.site settings data registry) = .ok (kind, metadata))
      (htree : doc.parse settings.toLimits = .ok (tree, problems))
      (hcheck : (doc.withTree kind tree).schemaReport depth
        ((doc.withTree kind tree).site settings data registry) = .ok checked) :
      Examined settings data registry depth doc
        ({ doc.withTree kind tree with
            report := some (metadata ++ problems ++ doc.colours tree ++ checked) },
          .ok (metadata ++ problems ++ doc.colours tree ++ checked))

/-- **An examination ends in one of four ways.** -/
theorem examined (settings : Settings) (data : GameData) (registry : Registry) (depth : Depth)
    (doc : Document) :
    Examined settings data registry depth doc (doc.examine settings data registry depth) := by
  unfold examine
  cases hmetadata : Metadata.read (doc.site settings data registry) with
  | error fault => exact .metadataFault hmetadata
  | ok read =>
    obtain ⟨kind, metadata⟩ := read
    simp only
    split
    · rename_i fault htree
      exact .treeFault hmetadata htree
    · rename_i tree problems htree
      split
      · rename_i fault hcheck
        exact .checkFault hmetadata htree hcheck
      · rename_i checked hcheck
        exact .report hmetadata htree hcheck

/-! ## What an examination keeps -/

theorem uri_examine (doc : Document) :
    (doc.examine settings data registry depth).1.uri = doc.uri := by
  have hend := examined settings data registry depth doc
  generalize doc.examine settings data registry depth = outcome at hend ⊢
  cases hend <;> rfl

/-- The document is bound to a kind of file or to nothing. -/
def InPack (doc : Document) : Prop := ∀ binding ∈ doc.binding, ∃ kind, binding = .kind kind

theorem InPack.withFileKind (h : doc.InPack) (kind : Option FileKind) :
    (doc.withFileKind kind).InPack := by
  cases kind with
  | none => exact h
  | some kind =>
    rintro binding hb
    cases hb
    exact ⟨kind, rfl⟩

theorem InPack.withTree (h : doc.InPack) (kind : Option FileKind) (tree : Option Node) :
    (doc.withTree kind tree).InPack :=
  h.withFileKind kind

theorem InPack.examine (h : doc.InPack) :
    (doc.examine settings data registry depth).1.InPack := by
  have hend := examined settings data registry depth doc
  generalize doc.examine settings data registry depth = outcome at hend ⊢
  cases hend with
  | metadataFault _ => exact h
  | treeFault _ _ => exact h.withFileKind _
  | checkFault _ _ _ => exact h.withTree _ _
  | report _ _ _ => exact h.withFileKind _

/-- A report is kept in the document, and a fault keeps the last one. -/
theorem report_of_examine (doc : Document) :
    (doc.examine settings data registry depth).1.report =
      match (doc.examine settings data registry depth).2 with
      | .ok r => some r
      | .error _ => doc.report := by
  have hend := examined settings data registry depth doc
  generalize doc.examine settings data registry depth = outcome at hend ⊢
  cases hend <;> rfl

/-! ## What an examination declares -/

section Closed

variable {P : Report → Prop} (hP : Report.Closed P)

include hP

theorem closed_loadFailure {site : Site} {block : List Char} {e : LoadError} {r : Report}
    (h : Metadata.loadFailure site block e = .ok r) : P r := by
  unfold Metadata.loadFailure at h
  split at h <;> cases h <;> exact hP.diagnostic _ nofun

omit hP in
theorem checksReport_metadata : Schema.ChecksReport P Metadata.schema := by
  refine .intro (fun _ _ h => nomatch h) ?_
  rintro t ⟨ctx, e, he, ctx', rfl⟩
  rw [List.mem_singleton.mp he]
  exact .intro (fun _ _ h => nomatch h) fun _ h => h.elim

theorem closed_metadata {site : Site} {kind : Option FileKind} {r : Report}
    (h : Metadata.read site = .ok (kind, r)) : P r := by
  unfold Metadata.read at h
  simp only at h
  split at h
  · cases h; exact hP.empty
  · split at h
    · obtain ⟨report, hf, h⟩ := Except.bind_eq_ok.mp h
      cases h
      exact closed_loadFailure hP hf
    · cases h; exact hP.empty
    · obtain ⟨report, hc, h⟩ := Except.bind_eq_ok.mp h
      cases h
      exact Schema.check_closed hP checksReport_metadata hc

theorem closed_parse {limits : Limits} {tree : Option Node} {r : Report}
    (h : doc.parse limits = .ok (tree, r)) : P r := by
  unfold parse at h
  split at h
  · cases h; exact hP.empty
  · cases h; exact hP.diagnostic _ nofun
  · cases h
  · cases h; exact hP.diagnostic _ nofun

theorem closed_colours (doc : Document) (tree : Option Node) : P (doc.colours tree) := by
  cases tree with
  | none => exact hP.empty
  | some tree => exact hP.mergeAll_map fun _ _ => hP.highlight _

end Closed

theorem schemaReport_registers {site : Site} {r : Report} (hp : doc.InPack)
    (h : doc.schemaReport depth site = .ok r) :
    r.components.RegisteredAt site.registry site.uri := by
  unfold schemaReport at h
  split at h
  · rename_i binding tree hbinding _
    obtain ⟨kind, rfl⟩ := hp binding hbinding
    obtain ⟨checked, hc, h⟩ := Except.bind_eq_ok.mp h
    cases depth with
    | alone =>
      cases h
      exact Pack.check_registers hc
    | full =>
      obtain ⟨resolved, hr, h⟩ := Except.bind_eq_ok.mp h
      cases h
      rw [Report.components_of_silent_right (Pack.resolve_closed Report.closed_silent hr)]
      exact Pack.check_registers hc
  · cases h
    exact ComponentTable.registeredAt_empty _ _

/-- **The report on a file of a pack registers components of the document only.** -/
theorem examine_registers (hp : doc.InPack) {r : Report}
    (h : (doc.examine settings data registry depth).2 = .ok r) :
    r.components.RegisteredAt registry doc.uri := by
  have hend := examined settings data registry depth doc
  generalize doc.examine settings data registry depth = outcome at hend h
  cases hend with
  | metadataFault _ => cases h
  | treeFault _ _ => cases h
  | checkFault _ _ _ => cases h
  | report hmetadata htree hcheck =>
    cases h
    have hP := Report.closed_silent.toClosed
    rw [Report.components_of_silent_left (hP.append (hP.append (closed_metadata hP hmetadata)
      (closed_parse hP htree)) (closed_colours hP doc _))]
    exact schemaReport_registers (hp.withTree _ _) hcheck

end Document

end PackLint
