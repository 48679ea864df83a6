import PackLint.Proofs.Document.Answers
import PackLint.Proofs.Document.Entries
import PackLint.Proofs.Documentation
import PackLint.Proofs.Tree.Unfolding

/-!
# The documentation of components

A component is documented by the comment above the first of its registered keys (`register`). The
pairs of a tree keep what is taken for the comment above their keys, so this is a matter of the
lines above the key that start with the mark of a comment, metadata and lines of scalars among them.

Results:
* `Node.commentBefore_of_load`: a pair of the tree of a source keeps the comment above its key.
* `Document.exists_key_of_examine`: what documents a component that an examination registers.
* `Document.documentation_examine`: the documentation of a component by the marked lines of the
  text.
* `Document.documentation_metadata_line`: metadata that document a component.
-/

namespace PackLint

/-! ## The comments of a tree -/

namespace Yaml.Graph

variable {g : Graph} {src : Source}

theorem Unfolds.start_eq {number : Nat} {n : Node} (h : g.Unfolds src number n) :
    n.start = (g.nodes.getD number default).start.index := by
  cases h with
  | scalar hnode => rw [hnode]; rfl
  | sequence hnode => rw [hnode]; rfl
  | mapping hnode => rw [hnode]; rfl

theorem UnfoldsPair.commentBefore_eq {kv : Nat × Nat} {p : Pair} (h : g.UnfoldsPair src kv p) :
    p.commentBefore = src.commentBefore p.key.start := by
  cases h with
  | absent hkey _ => rw [hkey.start_eq]
  | present hkey _ _ => rw [hkey.start_eq]

end Yaml.Graph

/-- **A pair of the tree of a source keeps the comment above its key.** -/
theorem Node.commentBefore_of_load {limits : Limits} {src : Source} {n : Node} {p : Pair}
    (h : Node.load limits src = .ok (some n)) (hp : p ∈ n.pairs?.getD []) :
    p.commentBefore = src.commentBefore p.key.start := by
  obtain ⟨g, number, -, hunfolds⟩ := Node.exists_unfolds_of_load h .refl
  cases hunfolds with
  | scalar => cases hp
  | sequence => cases hp
  | mapping _ hpairs =>
    obtain ⟨kv, -, hpair⟩ := exists_of_forall₂_of_mem hpairs.flip hp
    exact hpair.commentBefore_eq

namespace Document

variable {settings : Settings} {data : GameData} {registry : Registry} {depth : Depth}
variable {doc : Document} {r : Report}

theorem commentBefore_of_mem_entries (h : (doc.examine settings data registry depth).2 = .ok r)
    {kind : ComponentKind} {p : Pair}
    (hp : p ∈ (doc.examine settings data registry depth).1.entries kind) :
    p.commentBefore = doc.source.commentBefore p.key.start := by
  obtain ⟨front, -, hfront, -, -⟩ := examine_eq_ok.mp h
  obtain ⟨told, metadata, tree, problems, -, htree, hread, -⟩ :=
    read_eq_ok.mp (Prod.ext rfl hfront : doc.read settings = ((doc.read settings).1, .ok front))
  rw [fst_examine_of_ok h, hread] at hp
  unfold entries at hp
  split at hp
  · rename_i file tree' _ hloaded
    obtain rfl : tree = some tree' := hloaded
    split at hp
    · rcases parse_cases htree with ⟨hload, -⟩ | ⟨_, _, -, hnone, -⟩
      · exact Node.commentBefore_of_load hload hp
      · cases hnone
    · cases hp
  · cases hp

/-- Of the pairs with an id that is free, those with a value register it. -/
theorem filter_registers (doc : Document) (kind : ComponentKind) {taken : List String} {id : String}
    (hfree : taken.contains id = false) :
    ((doc.entries kind).filter (Registration.registers taken)).filter (declaredId ·.keyText = id) =
      doc.valued kind id := by
  unfold valued Registration.registers
  rw [List.filter_filter]
  refine List.filter_congr fun p _ => ?_
  by_cases hid : declaredId p.keyText = id
  · rw [hid, hfree, Bool.not_false, Bool.and_true, Bool.and_comm]
  · rw [decide_eq_false hid, Bool.false_and, Bool.and_false]

/-- **What documents a component**: the first of the entries with a value and its id. -/
theorem exists_key_of_examine (hp : doc.InPack)
    (h : (doc.examine settings data registry depth).2 = .ok r) {kind : ComponentKind}
    {c : Component} (hc : c ∈ r.components.of kind) :
    let doc' := (doc.examine settings data registry depth).1
    ∃ p rest, doc'.valued kind c.id = p :: rest ∧
      c.declarations = (p :: rest).map (Registration.declaration doc'.place) ∧
      c.documentation = Registration.pairDocumentation p := by
  intro doc'
  have hmem : c ∈ (r.components.of kind).filter (·.id = c.id) :=
    List.mem_filter.mpr ⟨hc, decide_eq_true rfl⟩
  rw [components_examine hp h, Registration.filter_enrol_eq_componentOf] at hmem
  split at hmem
  · rename_i hany
    obtain ⟨q, hq, hid⟩ := List.any_eq_true.mp hany
    obtain ⟨-, hregisters⟩ := List.mem_filter.mp hq
    unfold Registration.registers at hregisters
    rw [of_decide_eq_true hid, Bool.and_eq_true, Bool.not_eq_true'] at hregisters
    have hvalued := doc'.filter_registers kind hregisters.2
    have hkey : q ∈ doc'.valued kind c.id := by
      rw [← hvalued]
      exact List.mem_filter.mpr ⟨hq, hid⟩
    have hcomponent := List.mem_singleton.mp hmem
    cases hfirst : doc'.valued kind c.id with
    | nil =>
      rw [hfirst] at hkey
      cases hkey
    | cons p rest =>
      rw [hvalued, hfirst] at hcomponent
      exact ⟨p, rest, rfl, congrArg Component.declarations hcomponent,
        congrArg Component.documentation hcomponent⟩
  · cases hmem

/-- **The documentation of a component is the text of the longest run of marked lines above its
first registered key**, if this comes first on its line; a component whose key does not come first
has none. Of the lines that are taken, some are comments; the others are metadata, have their mark
in a token, or hold the end of a comment. -/
theorem documentation_examine (hp : doc.InPack)
    (h : (doc.examine settings data registry depth).2 = .ok r) {kind : ComponentKind}
    {c : Component} (hc : c ∈ r.components.of kind) :
    let src := doc.source
    let doc' := (doc.examine settings data registry depth).1
    ∃ p rest, doc'.valued kind c.id = p :: rest ∧
      c.declarations = (p :: rest).map (Registration.declaration doc'.place) ∧
      ((∃ b ∈ src.lineFront p.key.start, ¬ isBlank b) → c.documentation = none) ∧
      ((∀ b ∈ src.lineFront p.key.start, isBlank b) →
        ∃ first, RunAbove src.IsMarked (src.lineOf p.key.start) first ∧
          c.documentation = src.documentationOf first (src.lineOf p.key.start) ∧
          ∀ l, first ≤ l → l < src.lineOf p.key.start →
            src.IsComment l ∨ l < metadataLineCount src.toList ∨
              (∃ t ∈ (Yaml.Token.stream src.toList).tokens,
                t.start.index ≤ src.contentStart l ∧ src.contentStart l < t.stop.index) ∨
              ∃ b ∈ trimEnd (src.content l), Yaml.isLineEnd b) := by
  intro src doc'
  obtain ⟨p, rest, hkeys, hdeclarations, hdocumentation⟩ := exists_key_of_examine hp h hc
  have hvalued : p ∈ doc'.valued kind c.id := hkeys ▸ List.mem_cons_self
  have hcomment := commentBefore_of_mem_entries h (List.mem_filter.mp hvalued).1
  rw [hdocumentation]
  refine ⟨p, rest, hkeys, hdeclarations, Registration.pairDocumentation_of_not_blank hcomment,
    fun hfront => ?_⟩
  obtain ⟨first, hrun, htext⟩ := Registration.pairDocumentation_eq hcomment hfront
  exact ⟨first, hrun, htext, fun l hfirst hlast => (hrun.all l hfirst hlast).isComment_or⟩

/-! ### Two texts -/

/-- The components of a kind that an examination without other documents registers, each with the
place of the first of its keys. -/
def keyed (doc : Document) (kind : ComponentKind) : List (Component × Nat) :=
  match doc.examine {} {} [] .alone with
  | (doc', .ok r) => (r.components.of kind).flatMap fun c =>
    (doc'.valued kind c.id).head?.toList.map fun p => (c, p.key.start)
  | _ => []

theorem exists_of_keyed {kind : ComponentKind} {P : Component → Nat → Prop}
    [∀ c, DecidablePred (P c)] (h : (doc.keyed kind).any fun (c, o) => P c o) :
    ∃ r, (doc.examine {} {} [] .alone).2 = .ok r ∧ ∃ c ∈ r.components.of kind, ∃ p rest,
      (doc.examine {} {} [] .alone).1.valued kind c.id = p :: rest ∧ P c p.key.start := by
  obtain ⟨⟨c, o⟩, hmem, hP⟩ := List.any_eq_true.mp h
  unfold keyed at hmem
  split at hmem
  · rename_i doc' r hexamine
    obtain ⟨c', hc, hmem⟩ := List.mem_flatMap.mp hmem
    cases hvalued : doc'.valued kind c'.id with
    | nil =>
      rw [hvalued] at hmem
      cases hmem
    | cons p rest =>
      rw [hvalued] at hmem
      cases List.mem_singleton.mp hmem
      rw [hexamine]
      exact ⟨r, rfl, c, hc, p, rest, hvalued, of_decide_eq_true hP⟩
  · cases hmem

/-- A comment above a skill. -/
theorem documentation_comment_above :
    let doc := skillFile "# heals\nheal: \x7bSkills: []\x7d"
    doc.InPack ∧ ∃ r, (doc.examine {} {} [] .alone).2 = .ok r ∧ ∃ c ∈ r.components.of .skills,
      c.id = "heal" ∧ (∀ b ∈ doc.source.lineFront 8, isBlank b) ∧
      c.documentation = some "heals" := by
  intro doc
  have hkeyed : (doc.keyed .skills).any fun (c, o) => c.id = "heal" ∧ o = 8 := by decide +kernel
  obtain ⟨r, hr, c, hc, p, rest, hkeys, hid, hstart⟩ :=
    exists_of_keyed (P := fun c o => c.id = "heal" ∧ o = 8) hkeyed
  have hfront : ∀ b ∈ doc.source.lineFront 8, isBlank b :=
    List.all_eq_true.mp (by decide +kernel)
  have hline : doc.source.lineOf 8 = 1 := by decide +kernel
  have hmarked : doc.source.IsMarked 0 := by decide +kernel
  have hp : doc.InPack := inPack_skillFile _
  obtain ⟨p', rest', hkeys', -, -, htext⟩ := documentation_examine hp hr hc
  rw [hkeys] at hkeys'
  cases hkeys'
  rw [hstart] at htext
  obtain ⟨first, hrun, hdocumentation, -⟩ := htext hfront
  rw [hline] at hrun hdocumentation
  obtain rfl : first = 0 := by
    by_contra hne
    have hle := hrun.le
    exact hrun.longest 0 (by omega) hmarked
  have htext : doc.source.documentationOf 0 1 = some "heals" := by decide +kernel
  exact ⟨hp, r, hr, c, hc, hid, hfront, hdocumentation.trans htext⟩

/-- A line of metadata right above a key documents its component, though it is no comment and there
is none above the key. -/
theorem documentation_metadata_line :
    let doc := skillFile "## FileType: mythic_skill\nheal:\n  Skills: []"
    (∃ r, (doc.examine {} {} [] .alone).2 = .ok r ∧ ∃ c ∈ r.components.of .skills, ∃ p rest,
      (doc.examine {} {} [] .alone).1.valued .skills c.id = p :: rest ∧
      c.id = "heal" ∧ doc.source.lineOf p.key.start = 1 ∧
      c.documentation = some "# FileType: mythic_skill") ∧
    metadataLineCount doc.source.toList = 1 ∧
    RunAbove doc.source.IsComment 1 1 ∧ doc.source.documentationOf 1 1 = none := by
  intro doc
  have hkeyed : (doc.keyed .skills).any fun (c, o) => c.id = "heal" ∧
      doc.source.lineOf o = 1 ∧ c.documentation = some "# FileType: mythic_skill" := by
    decide +kernel
  have hcount : metadataLineCount doc.source.toList = 1 := by decide +kernel
  have hmetadata : ¬ doc.source.IsComment 0 :=
    fun hcomment => absurd hcomment.behind_metadata (hcount ▸ Nat.not_succ_le_zero 0)
  obtain ⟨r, hr, c, hc, p, rest, hkeys, hid, hline, htext⟩ := exists_of_keyed
    (P := fun c o => c.id = "heal" ∧ doc.source.lineOf o = 1 ∧
      c.documentation = some "# FileType: mythic_skill") hkeyed
  exact ⟨⟨r, hr, c, hc, p, rest, hkeys, hid, hline, htext⟩, hcount, .of_not hmetadata, rfl⟩

end Document

end PackLint
