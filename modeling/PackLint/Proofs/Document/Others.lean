import PackLint.Proofs.Document.Entries
import PackLint.Proofs.Pack.Blind

/-!
# What a look at a document owes to the others

The other documents matter to a look at a document in two ways: they may have registered ids of its
entries, and its references lead to what they have registered. If they have registered none of its
ids, a look at the document alone does not depend on them at all, and a full one only through the
references.

Results:
* `Document.entries_examine`: a look does not change the entries of a document that is read.
* `Document.examine_unclaimed`: a look at a document alone.
* `Document.examine_related`: a full look.
-/

namespace PackLint

namespace Document

variable {settings : Settings} {data : GameData} {registry registry' : Registry} {depth : Depth}
variable {doc : Document}

/-- The entries that a look finds are those of the document as it is read. -/
theorem entries_examine (kind : ComponentKind) :
    (doc.examine settings data registry depth).1.entries kind =
      (doc.read settings).1.entries kind := by
  rw [examine_eq]
  generalize doc.read settings = outcome
  obtain ⟨doc, front⟩ := outcome
  cases front with
  | error fault => rfl
  | ok front =>
    simp only [lookAt]
    split <;> rfl

/-- The entries of a document as it is read do not depend on its last report. -/
theorem entries_read_unreported (kind : ComponentKind) :
    (Document.read settings { doc with report := none }).1.entries kind =
      (doc.read settings).1.entries kind := by
  have hmetadata : Document.metadata settings { doc with report := none } =
      doc.metadata settings := metadata_congr rfl
  have hparse : Document.parse { doc with report := none } settings.toLimits =
      doc.parse settings.toLimits := parse_congr rfl _
  unfold Document.read
  rw [hmetadata, hparse]
  split
  · rfl
  · split <;> rfl

/-- No other document has registered an id of an entry. -/
def Unclaimed (registry : Registry) (doc : Document) : Prop :=
  ∀ kind, ∀ p ∈ doc.entries kind, declaredId p.keyText ∉ registry.taken doc.uri kind

theorem Unclaimed.pack (h : doc.Unclaimed registry) {file : FileKind} {tree : Node}
    (hbinding : doc.binding = some (.kind file)) (htree : doc.tree = some tree) :
    Pack.Unclaimed file (doc.site settings data registry) tree := by
  intro p hp
  refine h file.declares p ?_
  unfold entries
  rw [hbinding, htree]
  simpa using hp

variable {Q : Report → Report → Prop} (hQ : Report.Congruence Q) (hp : doc.InPack)

include hQ hp

/-- What the schema reports on a document whose ids nobody else has registered is related if the
reports on references are. -/
theorem schemaReport_related (h : doc.Unclaimed registry) (h' : doc.Unclaimed registry')
    (href : depth = .full → ∀ ref : Reference, ref.name ≠ "" → ∀ s,
      Q (ref.report (doc.site settings data registry) s)
        (ref.report (doc.site settings data registry') s)) :
    Except.Rel Q (doc.schemaReport depth (doc.site settings data registry))
      (doc.schemaReport depth (doc.site settings data registry')) := by
  have hsite : (doc.site settings data registry).SameDocument (doc.site settings data registry') :=
    ⟨registry', rfl⟩
  unfold schemaReport
  split
  · rename_i binding tree hbinding htree
    obtain ⟨file, rfl⟩ := hp binding hbinding
    have hcheck : file.schema.check (doc.site settings data registry) tree =
        file.schema.check (doc.site settings data registry') tree :=
      Pack.check_unclaimed hsite (h.pack hbinding htree) (h'.pack hbinding htree)
    simp only [Binding.schema]
    rw [hcheck]
    refine (Except.Rel.refl hQ.refl _).bind fun r r' hr => ?_
    cases depth with
    | alone => exact .ok hr
    | full =>
      exact (Pack.resolve_related hQ hsite (href rfl)).bind fun s s' hs => .ok (hQ.merge hr hs)
  · exact .ok (hQ.refl _)

/-- **A full look at a document whose ids nobody else has registered has related reports if
references have.** -/
theorem examine_related (h : (doc.read settings).1.Unclaimed registry)
    (h' : (doc.read settings).1.Unclaimed registry')
    (href : ∀ ref : Reference, ref.name ≠ "" → ∀ s,
      Q (ref.report ((doc.read settings).1.site settings data registry) s)
        (ref.report ((doc.read settings).1.site settings data registry') s)) :
    Except.Rel Q (doc.examine settings data registry .full).2
      (doc.examine settings data registry' .full).2 := by
  have hreport : Except.Rel Q
      ((doc.read settings).1.schemaReport .full ((doc.read settings).1.site settings data registry))
      ((doc.read settings).1.schemaReport .full
        ((doc.read settings).1.site settings data registry')) :=
    schemaReport_related hQ hp.read h h' fun _ => href
  rw [examine_eq, examine_eq]
  generalize doc.read settings = outcome at hreport
  obtain ⟨doc, front⟩ := outcome
  cases front with
  | error fault => exact .error fault
  | ok front =>
    simp only [lookAt] at hreport ⊢
    generalize doc.schemaReport .full (doc.site settings data registry) = x at hreport
    generalize doc.schemaReport .full (doc.site settings data registry') = y at hreport
    cases hreport with
    | error fault => exact .error fault
    | ok hr => exact .ok (hQ.merge (hQ.refl _) hr)

omit hQ in
/-- **A look at a document alone does not depend on the other documents if these have registered
none of its ids.** -/
theorem examine_unclaimed (h : (doc.read settings).1.Unclaimed registry)
    (h' : (doc.read settings).1.Unclaimed registry') :
    doc.examine settings data registry .alone = doc.examine settings data registry' .alone := by
  have hreport :
      (doc.read settings).1.schemaReport .alone
          ((doc.read settings).1.site settings data registry) =
        (doc.read settings).1.schemaReport .alone
          ((doc.read settings).1.site settings data registry') :=
    (schemaReport_related Report.congruence_eq hp.read h h' fun hfull => by cases hfull).eq
  rw [examine_eq, examine_eq]
  generalize doc.read settings = outcome at hreport
  obtain ⟨doc, front⟩ := outcome
  cases front with
  | error fault => rfl
  | ok front =>
    simp only [lookAt] at hreport ⊢
    rw [hreport]

end Document

end PackLint
