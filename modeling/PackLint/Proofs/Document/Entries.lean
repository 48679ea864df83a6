import PackLint.Proofs.Document.Reading

/-!
# The entries of a document

The top-level pairs of the tree of a document are its entries, if it is bound to a kind of file. The
entries with a value declare components, one for each id, unless another document has registered the
id; then every entry with the id is disputed, whether or not it has a value.

Results:
* `Document.components_examine`: which components the report on a document registers.
* `Document.disputes_examine`: which entries it disputes.
* `Document.linkless_examine`: a look at a document alone makes no link.
-/

namespace PackLint

namespace Document

variable {settings : Settings} {data : GameData} {registry : Registry} {depth : Depth}
variable {doc : Document} {r : Report}

/-! ## Entries -/

/-- The top-level pairs of the tree of a document that declares components of a kind. -/
def entries (doc : Document) (kind : ComponentKind) : List Pair :=
  match doc.binding, doc.tree with
  | some (.kind file), some tree => if kind = file.declares then tree.pairs?.getD [] else []
  | _, _ => []

/-- The entries of an id that have a value. -/
def valued (doc : Document) (kind : ComponentKind) (id : String) : List Pair :=
  (doc.entries kind).filter fun p => p.value.isSome && declaredId p.keyText = id

/-- Whether an entry with a value has the id. -/
def declares (doc : Document) (kind : ComponentKind) (id : String) : Bool :=
  (doc.entries kind).any fun p => p.value.isSome && declaredId p.keyText = id

/-- The site of the document itself, apart from all that is not in it. -/
def place (doc : Document) : Site := doc.site {} {} []

/-- The component that the entries of an id declare. -/
def component (doc : Document) (kind : ComponentKind) (id : String) : Component :=
  Registration.componentOf doc.place id (doc.valued kind id)

/-- The diagnostics of the entries whose id is taken. -/
def disputesOf (doc : Document) (taken : ComponentKind → String → Bool) : List Diagnostic :=
  ComponentKind.all.flatMap fun kind =>
    ((doc.entries kind).filter fun p => taken kind (declaredId p.keyText)).map
      (Registration.dispute kind doc.place)

/-! ## What an examination registers -/

section Closed

variable {P : Report → Prop} (hP : Report.Closed P)

include hP

/-- What is said of the metadata, the syntax and the scalars has every closed property. -/
theorem closed_front {front : Report} (h : (doc.read settings).2 = .ok front) : P front := by
  obtain ⟨kind, metadata, tree, problems, hmetadata, htree, -, rfl⟩ :=
    read_eq_ok.mp (Prod.ext rfl h : doc.read settings = ((doc.read settings).1, .ok front))
  exact hP.append (hP.append (closed_metadata hP hmetadata) (closed_parse hP htree))
    (closed_colours hP doc tree)

end Closed

/-- A file of a pack is looked at by its registering check, and by checks that register and dispute
nothing. -/
theorem schemaReport_registration (hp : doc.InPack) {site : Site}
    (h : doc.schemaReport depth site = .ok r) :
    r = .empty ∧ (∀ kind, doc.entries kind = []) ∨
    ∃ file tree registering, doc.binding = some (.kind file) ∧ doc.tree = some tree ∧
      registration file.declares file.idColor site tree = .ok registering ∧
      r.components = registering.components ∧ r.disputes = registering.disputes := by
  unfold schemaReport at h
  split at h
  · rename_i binding tree hbinding htree
    obtain ⟨file, rfl⟩ := hp binding hbinding
    obtain ⟨checked, hc, h⟩ := Except.bind_eq_ok.mp h
    obtain ⟨registering, hregistering, hcomponents, hdisputes⟩ := Pack.check_registration hc
    refine Or.inr ⟨file, tree, registering, hbinding, htree, hregistering, ?_⟩
    cases depth with
    | alone =>
      cases h
      exact ⟨hcomponents, hdisputes⟩
    | full =>
      obtain ⟨resolved, hr, h⟩ := Except.bind_eq_ok.mp h
      cases h
      have hundisputed : resolved.disputes = [] := Pack.resolve_closed Report.closed_undisputed hr
      rw [Report.components_of_silent_right (Pack.resolve_closed Report.closed_silent hr),
        Report.disputes_append, hundisputed, List.append_nil]
      exact ⟨hcomponents, hdisputes⟩
  · rename_i hnone
    cases h
    refine Or.inl ⟨rfl, fun kind => ?_⟩
    unfold entries
    split
    · rename_i hbinding htree
      exact absurd htree (hnone _ _ hbinding)
    · rfl

theorem components_schemaReport (hp : doc.InPack)
    (h : doc.schemaReport depth (doc.site settings data registry) = .ok r) (kind : ComponentKind) :
    r.components.of kind = Registration.enrol doc.place
      ((doc.entries kind).filter (Registration.registers (registry.taken doc.uri kind))) := by
  rcases schemaReport_registration hp h with ⟨rfl, hentries⟩ |
    ⟨file, tree, registering, hbinding, htree, hregistering, hcomponents, -⟩
  · rw [hentries]
    exact ComponentTable.of_empty kind
  · rw [hcomponents, components_registration hregistering]
    unfold entries
    rw [hbinding, htree]
    simp only
    split
    · rename_i hkind
      rw [hkind]
      rfl
    · rfl

theorem disputes_schemaReport (hp : doc.InPack)
    (h : doc.schemaReport depth (doc.site settings data registry) = .ok r) :
    r.disputes = doc.disputesOf fun kind id => (registry.taken doc.uri kind).contains id := by
  rcases schemaReport_registration hp h with ⟨rfl, hentries⟩ |
    ⟨file, tree, registering, hbinding, htree, hregistering, -, hdisputes⟩
  · unfold disputesOf
    simp [hentries, Report.disputes, Report.empty]
  · rw [hdisputes, disputes_registration hregistering]
    unfold disputesOf entries
    rw [hbinding, htree]
    simp only
    cases file <;> simp [ComponentKind.all, FileKind.declares] <;> rfl

/-- **The report on a document registers the entries that have a value and whose id no other
document has registered.** -/
theorem components_examine (hp : doc.InPack)
    (h : (doc.examine settings data registry depth).2 = .ok r) (kind : ComponentKind) :
    let doc' := (doc.examine settings data registry depth).1
    r.components.of kind = Registration.enrol doc'.place
      ((doc'.entries kind).filter (Registration.registers (registry.taken doc.uri kind))) := by
  intro doc'
  have hdoc' : doc' = { (doc.read settings).1 with report := some r } := fst_examine_of_ok h
  obtain ⟨front, checked, hfront, hchecked, rfl⟩ := examine_eq_ok.mp h
  rw [Report.components_of_silent_left (closed_front Report.closed_silent.toClosed hfront),
    components_schemaReport hp.read hchecked, uri_read, hdoc']
  rfl

/-- **The report on a document disputes each entry whose id another document has registered, with or
without a value, and nothing else.** -/
theorem disputes_examine (hp : doc.InPack)
    (h : (doc.examine settings data registry depth).2 = .ok r) :
    r.disputes = (doc.examine settings data registry depth).1.disputesOf fun kind id =>
      (registry.taken doc.uri kind).contains id := by
  have hundisputed : ∀ {front}, (doc.read settings).2 = .ok front → front.disputes = [] :=
    closed_front Report.closed_undisputed.toClosed
  rw [fst_examine_of_ok h]
  obtain ⟨front, checked, hfront, hchecked, rfl⟩ := examine_eq_ok.mp h
  rw [Report.disputes_append, hundisputed hfront, List.nil_append,
    disputes_schemaReport hp.read hchecked, uri_read]
  rfl

/-- **A look at a document alone makes no link.** -/
theorem linkless_examine (hp : doc.InPack)
    (h : (doc.examine settings data registry .alone).2 = .ok r) : r.Linkless := by
  obtain ⟨front, checked, hfront, hchecked, rfl⟩ := examine_eq_ok.mp h
  refine Report.closed_linkless.append (closed_front Report.closed_linkless hfront) ?_
  unfold schemaReport at hchecked
  split at hchecked
  · rename_i binding tree hbinding _
    obtain ⟨file, rfl⟩ := hp.read binding hbinding
    obtain ⟨checked', hc, hchecked⟩ := Except.bind_eq_ok.mp hchecked
    cases hchecked
    obtain ⟨front, registering, back, hregistering, rfl, hclosed⟩ := Pack.check_file hc
    obtain ⟨hfront, hback⟩ := hclosed _ Report.closed_linkless
    exact Report.closed_linkless.append hfront
      (Report.closed_linkless.append (linkless_registration hregistering) hback)
  · cases hchecked
    rfl

end Document

end PackLint
