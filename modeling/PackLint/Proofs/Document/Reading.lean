import PackLint.Proofs.Document.Examination
import PackLint.Proofs.Schema.Blind

/-!
# Reading and looking

An examination first reads a document: its metadata, which may bind it anew, and its tree. What is
read depends on the text and the settings only, neither on other documents nor on what an earlier
examination has left behind. Only then does the schema look at the tree, where it also sees what
other documents declare.

Results:
* `Document.examine_eq`: an examination reads the document and then looks at it.
* `Document.IsRead.of_examine`: a document that has been examined is read already.
* `Document.Kin.snd_examine`: documents that are read alike are reported on alike.
-/

namespace PackLint

/-! ## Metadata -/

/-- The schema of the metadata sees nothing but their text. -/
theorem Metadata.checksAlike_schema :
    Schema.All (Schema.ChecksAlike Site.SameText) Metadata.schema := by
  refine .intro ⟨⟨⟨sameUnder_const _, sameUnder_const _, fun ctx e he => ?_⟩, trivial⟩,
    fun _ _ _ _ => rfl⟩ ?_
  · rw [List.mem_singleton.mp he]
    exact ⟨sameUnder_const _, sameUnder_const _, sameUnder_const _, sameUnder_const _⟩
  · rintro t ⟨ctx, e, he, ctx', rfl⟩
    rw [List.mem_singleton.mp he]
    exact .intro ⟨⟨⟨sameUnder_const _, sameUnder_const _, sameUnder_const _⟩, trivial⟩,
      fun _ _ _ _ => rfl⟩ fun _ h => h.elim

/-- **What is read of the metadata depends on the text and the settings only.** -/
theorem Metadata.read_congr {site site' : Site} (h : site.SameText site') :
    Metadata.read site = Metadata.read site' := by
  have hfailure : ∀ block, loadFailure site block = loadFailure site' block := by
    intro block
    funext e
    unfold loadFailure
    rw [h.source]
  have hcheck : Metadata.schema.check site = Metadata.schema.check site' :=
    funext fun tree => Schema.check_blind (fun _ _ h => h) h checksAlike_schema tree
  unfold Metadata.read
  rw [h.source, h.settings, hcheck]
  simp only [hfailure]

namespace Document

variable {settings : Settings} {data : GameData} {registry : Registry} {depth : Depth}
variable {doc doc' : Document}

/-! ## Reading -/

/-- The metadata as they are read. -/
def metadata (settings : Settings) (doc : Document) : Except Fault (Option FileKind × Report) :=
  Metadata.read (doc.site settings {} [])

theorem metadata_eq (settings : Settings) (data : GameData) (registry : Registry)
    (doc : Document) : Metadata.read (doc.site settings data registry) = doc.metadata settings :=
  Metadata.read_congr ⟨rfl, rfl⟩

/-- The document after it has been read, and what is said of its metadata, its syntax and its
scalars. -/
def read (settings : Settings) (doc : Document) : Document × Except Fault Report :=
  match doc.metadata settings with
  | .error fault => (doc, .error fault)
  | .ok (kind, metadata) =>
    match doc.parse settings.toLimits with
    | .error fault => (doc.withFileKind kind, .error fault)
    | .ok (tree, problems) =>
      (doc.withTree kind tree, .ok (metadata ++ problems ++ doc.colours tree))

/-- The look of the schema at a document that has been read, with the report so far. -/
def lookAt (settings : Settings) (data : GameData) (registry : Registry) (depth : Depth) :
    Document × Except Fault Report → Document × Except Fault Report
  | (doc, .error fault) => (doc, .error fault)
  | (doc, .ok front) =>
    match doc.schemaReport depth (doc.site settings data registry) with
    | .error fault => (doc, .error fault)
    | .ok checked => ({ doc with report := some (front ++ checked) }, .ok (front ++ checked))

/-- **An examination reads the document and then looks at it.** -/
theorem examine_eq (settings : Settings) (data : GameData) (registry : Registry) (depth : Depth)
    (doc : Document) : doc.examine settings data registry depth =
      lookAt settings data registry depth (doc.read settings) := by
  have hend := examined settings data registry depth doc
  generalize doc.examine settings data registry depth = outcome at hend
  unfold read
  cases hend with
  | metadataFault hmetadata =>
    rw [metadata_eq] at hmetadata
    rw [hmetadata]
    rfl
  | treeFault hmetadata htree =>
    rw [metadata_eq] at hmetadata
    rw [hmetadata, htree]
    rfl
  | checkFault hmetadata htree hcheck =>
    rw [metadata_eq] at hmetadata
    rw [hmetadata, htree]
    simp only [lookAt, hcheck]
  | report hmetadata htree hcheck =>
    rw [metadata_eq] at hmetadata
    rw [hmetadata, htree]
    simp only [lookAt, hcheck]

@[simp] theorem uri_read : (doc.read settings).1.uri = doc.uri := by
  unfold read
  split
  · rfl
  · split <;> rfl

theorem InPack.read (h : doc.InPack) : (doc.read settings).1.InPack := by
  unfold Document.read
  split
  · exact h
  · split
    · exact h.withFileKind _
    · exact h.withTree _ _

theorem read_eq_ok {front : Report} : doc.read settings = (doc', .ok front) ↔
    ∃ kind metadata tree problems, doc.metadata settings = .ok (kind, metadata) ∧
      doc.parse settings.toLimits = .ok (tree, problems) ∧ doc' = doc.withTree kind tree ∧
      front = metadata ++ problems ++ doc.colours tree := by
  unfold read
  constructor
  · intro h
    split at h
    · cases h
    · rename_i kind metadata hmetadata
      split at h
      · cases h
      · rename_i tree problems htree
        cases h
        exact ⟨kind, metadata, tree, problems, hmetadata, htree, rfl, rfl⟩
  · rintro ⟨kind, metadata, tree, problems, hmetadata, htree, rfl, rfl⟩
    rw [hmetadata]
    simp only [htree]

/-! ## What is read depends on -/

theorem metadata_congr (h : doc.source = doc'.source) :
    doc.metadata settings = doc'.metadata settings :=
  Metadata.read_congr ⟨rfl, h⟩

theorem parse_congr (h : doc.source = doc'.source) (limits : Limits) :
    doc.parse limits = doc'.parse limits := by
  unfold parse problemRange
  rw [h]

theorem colours_congr (h : doc.source = doc'.source) (tree : Option Node) :
    doc.colours tree = doc'.colours tree := by
  unfold colours scalarHighlights
  rw [h]

/-! ## Looking -/

/-- The examination has a report iff the document can be read and looked at. -/
theorem examine_eq_ok {r : Report} : (doc.examine settings data registry depth).2 = .ok r ↔
    ∃ front checked, (doc.read settings).2 = .ok front ∧
      (doc.read settings).1.schemaReport depth
        ((doc.read settings).1.site settings data registry) = .ok checked ∧
      r = front ++ checked := by
  rw [examine_eq]
  generalize doc.read settings = outcome
  obtain ⟨doc, front⟩ := outcome
  cases front with
  | error fault =>
    constructor
    · intro h; cases h
    · rintro ⟨_, _, h, -⟩; cases h
  | ok front =>
    simp only [lookAt]
    cases hcheck : doc.schemaReport depth (doc.site settings data registry) with
    | error fault =>
      constructor
      · intro h; cases h
      · rintro ⟨_, _, -, h, -⟩; cases h
    | ok checked =>
      constructor
      · intro h
        cases h
        exact ⟨front, checked, rfl, rfl, rfl⟩
      · rintro ⟨_, _, hfront, hchecked, rfl⟩
        cases hfront
        cases hchecked
        rfl

/-- An examination that has a report leaves the document behind as it was read, with the report. -/
theorem fst_examine_of_ok {r : Report} (h : (doc.examine settings data registry depth).2 = .ok r) :
    (doc.examine settings data registry depth).1 =
      { (doc.read settings).1 with report := some r } := by
  obtain ⟨front, checked, hfront, hchecked, rfl⟩ := examine_eq_ok.mp h
  rw [examine_eq]
  generalize doc.read settings = outcome at hfront hchecked
  obtain ⟨doc, front'⟩ := outcome
  cases hfront
  simp only at hchecked
  simp only [lookAt, hchecked]

/-! ## Documents that have been read -/

/-- Reading the document anew changes nothing. -/
def IsRead (settings : Settings) (doc : Document) : Prop :=
  ∃ front, doc.read settings = (doc, .ok front)

theorem isRead_of_read {front : Report} (h : doc.read settings = (doc', .ok front))
    (report : Option Report) : IsRead settings { doc' with report } := by
  obtain ⟨kind, metadata, tree, problems, hmetadata, htree, rfl, -⟩ := read_eq_ok.mp h
  refine ⟨_, read_eq_ok.mpr ⟨kind, metadata, tree, problems, ?_, ?_, ?_, rfl⟩⟩
  · rw [← hmetadata]
    exact metadata_congr rfl
  · rw [← htree]
    exact parse_congr rfl _
  · cases kind <;> rfl

/-- **A document that has been examined is read already.** -/
theorem IsRead.of_examine {r : Report} (h : (doc.examine settings data registry depth).2 = .ok r) :
    IsRead settings (doc.examine settings data registry depth).1 := by
  obtain ⟨front, -, hfront, -, -⟩ := examine_eq_ok.mp h
  rw [fst_examine_of_ok h]
  exact isRead_of_read (Prod.ext rfl hfront) _

/-- Examining a document that has been read changes its report only. -/
theorem IsRead.fst_examine (hd : IsRead settings doc) {r : Report}
    (h : (doc.examine settings data registry depth).2 = .ok r) :
    (doc.examine settings data registry depth).1 = { doc with report := some r } := by
  obtain ⟨front, hread⟩ := hd
  rw [fst_examine_of_ok h, hread]

/-! ## Documents of the same text -/

/-- The binding of the document once it has been read; none if its metadata cannot be read. -/
def bound (settings : Settings) (doc : Document) : Option Binding :=
  match doc.metadata settings with
  | .ok (kind, _) => (doc.withFileKind kind).binding
  | .error _ => none

/-- Two documents that are read alike, whatever earlier examinations have left behind. -/
structure Kin (settings : Settings) (doc doc' : Document) : Prop where
  uri : doc.uri = doc'.uri
  source : doc.source = doc'.source
  bound : doc.bound settings = doc'.bound settings

namespace Kin

variable {doc'' : Document}

theorem refl (settings : Settings) (doc : Document) : Kin settings doc doc := ⟨rfl, rfl, rfl⟩

theorem symm (h : Kin settings doc doc') : Kin settings doc' doc :=
  ⟨h.uri.symm, h.source.symm, h.bound.symm⟩

theorem trans (h : Kin settings doc doc') (h' : Kin settings doc' doc'') :
    Kin settings doc doc'' :=
  ⟨h.uri.trans h'.uri, h.source.trans h'.source, h.bound.trans h'.bound⟩

/-- The metadata bind a document once and for all. -/
theorem withFileKind {kind : Option FileKind} {report : Report}
    (h : doc.metadata settings = .ok (kind, report)) (tree : Option Node)
    (last : Option Report) :
    Kin settings { doc.withFileKind kind with tree, report := last } doc := by
  refine ⟨rfl, rfl, ?_⟩
  unfold Document.bound
  have hsame : Document.metadata settings { doc.withFileKind kind with tree, report := last } =
      doc.metadata settings := metadata_congr rfl
  rw [hsame, h]
  cases kind <;> rfl

/-- An examination leaves a document as it is, but for what it has read and reported. -/
theorem fst_examine (settings : Settings) (data : GameData) (registry : Registry) (depth : Depth)
    (doc : Document) : Kin settings (doc.examine settings data registry depth).1 doc := by
  have hend := examined settings data registry depth doc
  generalize doc.examine settings data registry depth = outcome at hend ⊢
  cases hend with
  | metadataFault _ => exact .refl settings doc
  | treeFault hmetadata _ =>
    rw [metadata_eq] at hmetadata
    exact withFileKind hmetadata doc.tree doc.report
  | checkFault hmetadata _ _ =>
    rw [metadata_eq] at hmetadata
    exact withFileKind hmetadata _ doc.report
  | report hmetadata _ _ =>
    rw [metadata_eq] at hmetadata
    exact withFileKind hmetadata _ _

/-- **Documents that are read alike are reported on alike.** -/
theorem snd_examine (h : Kin settings doc doc') (data : GameData) (registry : Registry)
    (depth : Depth) : (doc.examine settings data registry depth).2 =
      (doc'.examine settings data registry depth).2 := by
  have hbound := h.bound
  unfold Document.bound at hbound
  rw [examine_eq, examine_eq]
  unfold read
  rw [metadata_congr h.source] at hbound ⊢
  cases hmetadata : doc'.metadata settings with
  | error fault => rfl
  | ok found =>
    obtain ⟨kind, metadata⟩ := found
    rw [hmetadata] at hbound
    simp only at hbound ⊢
    rw [parse_congr h.source]
    cases htree : doc'.parse settings.toLimits with
    | error fault => rfl
    | ok found =>
      obtain ⟨tree, problems⟩ := found
      have hsite : (doc.withTree kind tree).site settings data registry =
          (doc'.withTree kind tree).site settings data registry := by
        change Site.mk _ _ _ doc.uri doc.source _ = Site.mk _ _ _ doc'.uri doc'.source _
        rw [h.uri, h.source]
        rfl
      have hreport : (doc.withTree kind tree).schemaReport depth
            ((doc.withTree kind tree).site settings data registry) =
          (doc'.withTree kind tree).schemaReport depth
            ((doc'.withTree kind tree).site settings data registry) := by
        have hbinding : (doc.withTree kind tree).binding = (doc'.withTree kind tree).binding :=
          hbound
        rw [hsite]
        unfold schemaReport
        rw [hbinding]
        rfl
      simp only [lookAt, hreport, colours_congr h.source]
      split <;> rfl

end Kin

/-- Two documents that are read alike and have the same report. -/
structure Twin (settings : Settings) (doc doc' : Document) : Prop extends
    Kin settings doc doc' where
  report : doc.report = doc'.report

/-- Documents that are read alike and have the same report are so after an examination. -/
theorem Twin.examine (h : Twin settings doc doc') (data : GameData) (registry : Registry)
    (depth : Depth) : Twin settings (doc.examine settings data registry depth).1
      (doc'.examine settings data registry depth).1 where
  toKin := (Kin.fst_examine settings data registry depth doc).trans
    (h.trans (Kin.fst_examine settings data registry depth doc').symm)
  report := by
    rw [report_of_examine, report_of_examine, h.snd_examine, h.report]

end Document

end PackLint
