import PackLint.Proofs.Yaml.Decoding
import PackLint.Proofs.Yaml.Wording
import PackLint.Proofs.Tree.Unfolding
import PackLint.Proofs.Tree.Within
import PackLint.Proofs.SkillLine.Content
import PackLint.Proofs.SkillLine.Span
import PackLint.Schema.Resolve

/-!
# Skill lines and the strings that they are written as

A skill line is read (`parse_skill`) from what is written in the document, so that its tokens have
their places there. An item of a skill list also stands for a string, and the two are the same where
nothing is written in another way than it reads: without an anchor or a tag in front, and without an
escape between the quotes.

Results:
* `Scalar.written_eq_iff`: what is written of a scalar on a single line is its string just then.
* `Schema.skillLine_verbatim`: the skill line that is read there says what the string says.
-/

namespace PackLint

open Yaml (Piece Broken Graph PlacedNode ScalarStyle)

/-! ## Scalars in a source -/

namespace Scalar

/-- What is written of a scalar, without the quotes around it. -/
def written (s : Scalar) (src : Source) : List Char :=
  if s.isQuoted then src.slice (s.start + 1) (s.stop - 1) else src.slice s.start s.stop

/-- The scalar is plain or quoted, and written on a single line. -/
def OnOneLine (s : Scalar) (src : Source) : Prop :=
  s.isBlock = false ∧ ¬ Broken (src.slice s.start s.stop)

/-- Nothing of the scalar is written in another way than it reads: no anchor or tag stands in front,
and no escape between its quotes. -/
def IsVerbatim (s : Scalar) (src : Source) : Prop :=
  (src.slice s.start s.stop).head? ∉ [some '&', some '!'] ∧
    ∀ c ∈ s.style.escape?, c ∉ s.written src

instance (s : Scalar) (src : Source) : Decidable (s.OnOneLine src) :=
  inferInstanceAs (Decidable (_ ∧ _))

-- Only the characters of the escape are looked at, and not all that there are.
instance (s : Scalar) (src : Source) : Decidable (s.IsVerbatim src) :=
  have := Option.decidableForallMem (p := fun c => c ∉ s.written src) s.style.escape?
  inferInstanceAs (Decidable (_ ∧ _))

end Scalar

/-! ## Pieces of a source -/

variable {src : Source}

/-- What stands in a piece of the source. -/
theorem Source.slice_of_piece {i j : Nat} {raw : List Char} (h : Piece src.toList i raw j)
    (front length : Nat) (hle : front + length ≤ raw.length) :
    src.slice (i + front) (i + front + length) = (raw.drop front).take length := by
  obtain ⟨before, behind, htext, rfl, rfl⟩ := h
  rw [slice_eq, htext, ← List.drop_drop, List.drop_left,
    List.drop_append_of_le_length (by omega), List.take_append_of_le_length]
  rw [List.length_drop]
  omega

/-- What stands in the source where a piece of it stands. -/
theorem Source.slice_piece {i j : Nat} {raw : List Char} (h : Piece src.toList i raw j) :
    src.slice i j = raw := by
  have hslice := slice_of_piece h 0 raw.length (Nat.le_of_eq (Nat.zero_add _))
  obtain ⟨-, -, -, -, rfl⟩ := h
  exact hslice.trans (by rw [List.drop_zero, List.take_length])

namespace Scalar

variable {s : Scalar}

/-- Without the quotes, whatever the style. -/
theorem written_eq (s : Scalar) (src : Source) :
    s.written src = src.slice (s.start + s.style.quotes) (s.stop - s.style.quotes) := by
  unfold written isQuoted
  cases s.style <;> rfl

theorem written_of_piece {raw : List Char} (h : Piece src.toList s.start raw s.stop)
    (hle : 2 * s.style.quotes ≤ raw.length) : s.written src = s.style.inside raw := by
  have hslice := Source.slice_of_piece h s.style.quotes (raw.length - 2 * s.style.quotes) (by omega)
  obtain ⟨-, -, -, -, hstop⟩ := h
  have hend : s.stop - s.style.quotes =
      s.start + s.style.quotes + (raw.length - 2 * s.style.quotes) := by omega
  rw [written_eq, hend]
  exact hslice

/-- The scalar is written in the source where it stands. -/
def Spelt (s : Scalar) (src : Source) : Prop :=
  s.style.Spelt src.toList s.start s.stop s.string.toList

theorem isVerbatim_iff {raw : List Char} (h : Piece src.toList s.start raw s.stop)
    (hle : 2 * s.style.quotes ≤ raw.length) : s.IsVerbatim src ↔ s.style.Verbatim raw := by
  unfold IsVerbatim
  rw [written_of_piece h hle, Source.slice_piece h]
  refine ⟨fun ⟨hhead, hescape⟩ => ⟨?_, ?_, hescape⟩, fun h => ⟨?_, h.escape⟩⟩
  · exact fun heq => hhead (heq ▸ List.mem_cons_self)
  · exact fun heq => hhead (heq ▸ List.mem_cons_of_mem _ List.mem_cons_self)
  · simp only [List.mem_cons, List.not_mem_nil, or_false, not_or]
    exact ⟨h.anchor, h.tag⟩

/-- **What is written of a scalar on a single line is its string just if it is verbatim.** -/
theorem Spelt.written_eq_iff (h : s.Spelt src) (hline : s.OnOneLine src) :
    s.written src = s.string.toList ↔ s.IsVerbatim src := by
  obtain ⟨hblock, hbreaks⟩ := hline
  rcases h with ⟨hstyle, hstring, hstop⟩ | hwritten
  · have hslice : src.slice s.start s.stop = [] := by
      rw [← hstop]
      exact (src.slice_eq s.start 0).trans List.take_zero
    have hnothing : s.written src = [] := by
      rw [written_eq, hstyle]
      exact hslice
    unfold IsVerbatim
    rw [hnothing, hstring, hslice]
    exact iff_of_true rfl ⟨by decide, fun _ _ => List.not_mem_nil⟩
  · have hpiece : ∃ raw, Piece src.toList s.start raw s.stop ∧
        s.style.Tells raw s.string.toList := by
      obtain ⟨value, text, start, stop, style⟩ := s
      cases hwritten with
      | literal => cases hblock
      | folded => cases hblock
      | lines hraw hbroken => exact absurd (Source.slice_piece hraw ▸ hbroken) hbreaks
      | line hraw htells => exact ⟨_, hraw, htells⟩
    obtain ⟨raw, hraw, htells⟩ := hpiece
    have hle : 2 * s.style.quotes ≤ raw.length := Nat.le_of_add_left_le htells.length_le
    rw [written_of_piece hraw hle, htells.inside_eq_iff, isVerbatim_iff hraw hle]

end Scalar

/-! ## Scalars of a tree -/

/-- Of all values only strings have a text of their own, and it is the text of the scalar. -/
theorem Yaml.eq_of_decodeScalar {version : Yaml.Version} {tag : Yaml.ScalarTag} {text : List Char}
    {start : Yaml.Mark} {word : String}
    (h : Yaml.decodeScalar version tag text start = .ok (.str word)) :
    word = String.ofList text := by
  cases decodeScalar_eq_ok_iff.mp h
  rfl

/-- A scalar that a node of a graph unfolds to is written where the node stands. -/
theorem Yaml.Graph.Unfolds.spelt {g : Graph} {number : Nat}
    (hg : ∀ x ∈ g.nodes, x.Spelt src.toList) {s : Scalar} (h : g.Unfolds src number (.scalar s)) :
    s.Spelt src := by
  cases h with
  | @scalar _ tag text style start stop value hnode hvalue =>
    have hspelt : PlacedNode.Spelt src.toList ⟨.scalar tag text style, start, stop⟩ := by
      rw [← hnode, Array.getD_eq_getD_getElem?]
      cases hx : g.nodes[number]? with
      | none => exact .inl ⟨rfl, rfl, rfl⟩
      | some x => exact hg x (Array.mem_of_getElem? hx)
    have hstring : (Scalar.string
        ⟨value, String.ofList text, start.index, stop.index, style⟩).toList = text := by
      unfold Scalar.string
      simp only
      split
      · rw [Yaml.eq_of_decodeScalar hvalue, String.toList_ofList]
      · exact String.toList_ofList
    unfold Scalar.Spelt
    rw [hstring]
    exact hspelt

/-- **The scalars of a tree that is loaded are written in the source where they stand.** -/
theorem Node.spelt_of_load {limits : Limits} {n : Node}
    (h : load limits src = .ok (some n)) {s : Scalar} (hs : (Node.scalar s).Within n) :
    s.Spelt src := by
  obtain ⟨g, number, hg, hunfolds⟩ := exists_unfolds_of_load h hs
  exact hunfolds.spelt (Graph.spelt_of_ofText? hg)

/-! ## Skill lines -/

namespace Schema

/-- The skill line that is read from what is written of a scalar. -/
def writtenLine (supportsTriggers : Bool) (src : Source) (s : Scalar) : Mechanic :=
  .parse src (s.written src) (s.start + s.style.quotes : Nat) supportsTriggers

/-- The report on a skill line and on the skill that it refers to. -/
def lineReport (site : Site) (line : Mechanic) : Report :=
  line.report ++ (line.skillReference?.map fun token =>
    Reference.skill.report site
      (.ofString token.value token.start.toNat token.stop.toNat)).getD .empty

/-- What is said of an item is said of the skill line that is written there. -/
theorem skillLine_eq {s : Scalar} (hblock : s.isBlock = false) (supportsTriggers : Bool)
    (site : Site) : skillLine supportsTriggers site s =
      lineReport site (writtenLine supportsTriggers site.source s) := by
  have hplace : (if s.isQuoted then (s.start + 1, s.stop - 1) else (s.start, s.stop)) =
      (s.start + s.style.quotes, s.stop - s.style.quotes) := by
    unfold Scalar.isQuoted
    cases s.style <;> rfl
  unfold skillLine writtenLine
  rw [hblock, Scalar.written_eq, hplace]
  rfl

/-- **The skill line of an item that is written on a single line says what the string of the item
says**, and refers to the same skill, if the item is verbatim. What is read is another text if the
item is not. -/
theorem skillLine_verbatim {limits : Limits} {site : Site} {n : Node}
    (hload : Node.load limits site.source = .ok (some n)) {s : Scalar}
    (hs : (Node.scalar s).Within n) (hline : s.OnOneLine site.source) (supportsTriggers : Bool) :
    let line := writtenLine supportsTriggers site.source s
    skillLine supportsTriggers site s = lineReport site line ∧
      (s.written site.source = s.string.toList ↔ s.IsVerbatim site.source) ∧
      (s.IsVerbatim site.source → ∀ (src : Source) (offset : Int),
        let said := Mechanic.parse src s.string.toList offset supportsTriggers
        line.content = said.content ∧
          line.skillReference?.map (·.value) = said.skillReference?.map (·.value)) := by
  have hiff := (Node.spelt_of_load hload hs).written_eq_iff hline
  refine ⟨skillLine_eq hline.1 supportsTriggers site, hiff, fun hverbatim src offset => ?_⟩
  unfold writtenLine
  rw [hiff.mpr hverbatim]
  exact ⟨Mechanic.content_parse _ _ _ _, (Mechanic.alike_parse _ _ _ _).skillReference?_value⟩

/-! ## Items of a list -/

/-- The only item of a list. -/
def onlyItem? : Node → Option Scalar
  | .seq [.scalar s] _ _ => some s
  | _ => none

/-- A text of a list with a single item. -/
theorem exists_item_of_load {src : Source} {P : Scalar → Prop} [DecidablePred P]
    (h : ((Node.load {} src).toOption.join.bind onlyItem?).any fun s => P s) :
    ∃ n s, Node.load {} src = .ok (some n) ∧ (Node.scalar s).Within n ∧ P s := by
  obtain ⟨s, hs, hP⟩ := (Option.any_eq_true _ _).mp h
  obtain ⟨n, hn, hitem⟩ := Option.bind_eq_some_iff.mp hs
  refine ⟨n, s, ?_, ?_, of_decide_eq_true hP⟩
  · cases hload : Node.load {} src with
    | error e =>
      rw [hload] at hn
      cases hn
    | ok tree =>
      rw [hload] at hn
      cases hn
      rfl
  · unfold onlyItem? at hitem
    split at hitem
    · cases hitem
      exact .item List.mem_cons_self .refl
    · cases hitem

/-- The string of an item between quotes. -/
theorem skillLine_verbatim_quoted :
    let site : Site := {
      settings := {}, data := {}, registry := [], uri := "file:///workspace/test.yml", tree := none
      source := .ofString "- 'skill\x7bs=heal\x7d'\n" }
    ∃ n s, Node.load {} site.source = .ok (some n) ∧ (Node.scalar s).Within n ∧
      s.OnOneLine site.source ∧ s.IsVerbatim site.source ∧
      (writtenLine true site.source s).skillReference?.map (·.value) =
        (Mechanic.parse (.ofString "") s.string.toList 0).skillReference?.map (·.value) := by
  intro site
  have hitem : ((Node.load {} site.source).toOption.join.bind onlyItem?).any fun s =>
      s.OnOneLine site.source ∧ s.IsVerbatim site.source := by decide +kernel
  obtain ⟨n, s, hload, hs, hline, hverbatim⟩ := exists_item_of_load hitem
  refine ⟨n, s, hload, hs, hline, hverbatim, ?_⟩
  exact ((skillLine_verbatim hload hs hline true).2.2 hverbatim (.ofString "") 0).2

/-- A quote is written twice between quotes, so that another skill is looked up. -/
theorem skillLine_escaped :
    let src := Source.ofString "- 'skill\x7bs=it''s\x7d'\n"
    ∃ n s, Node.load {} src = .ok (some n) ∧ (Node.scalar s).Within n ∧ s.OnOneLine src ∧
      s.style = .singleQuoted ∧ s.string = "skill\x7bs=it's\x7d" ∧
      (writtenLine true src s).skillReference?.map (·.value) = some "it''s" ∧
      (Mechanic.parse src s.string.toList 0).skillReference?.map (·.value) =
        some "it's" := by
  intro src
  exact exists_item_of_load (by decide +kernel)

end Schema

end PackLint
