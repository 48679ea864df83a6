import PackLint.Document
import PackLint.Proofs.Text.Positions
import PackLint.Proofs.Tree.Unfolding
import PackLint.Proofs.Yaml.Faults
import PackLint.Proofs.Yaml.Place

/-!
# Where a syntax problem is shown

The mark of an error is one in the text. A document looks its line and its column up
(`_error_range`) among lines of its own, which end at line feeds only and count every character. If
a line feed follows every carriage return in front of a mark, both ways of counting agree on it just
if no byte order mark stands in front of it on its line. Otherwise they agree at the end of the text
only.

Results:
* `Node.load_unreadable`: the error of a source that has no tree was noticed in the source.
* `Source.offset_mark_eq_iff`: when the line and the column of a mark lead back to it.
* `Document.problem_shown_at_mark_iff`: when a syntax problem is shown where it was noticed.
-/

namespace PackLint

/-! ## The error of a source -/

/-- A scalar that has no value is noticed where it starts. -/
theorem Yaml.decodeScalar_error {text s : List Char} {version : Version} {tag : ScalarTag}
    {start : Mark} {e : Error} (hstart : start.In text)
    (h : decodeScalar version tag s start = .error e) : e.In text := by
  have hnumber : ∀ tag, (numberError version tag s).In text := fun tag => by
    unfold numberError
    simp only
    split <;> trivial
  unfold decodeScalar at h
  cases tag with
  | null => cases h
  | str => cases h
  | unknown name =>
    cases h
    exact hstart
  | bool =>
    simp only at h
    split at h <;> cases h
    trivial
  | int =>
    simp only at h
    split at h <;> cases h
    exact hnumber _
  | float =>
    simp only at h
    split at h <;> cases h
    exact hnumber _
  | binary =>
    simp only at h
    split at h <;> cases h
    exact hstart
  | timestamp =>
    simp only at h
    split at h
    · cases h
      exact hstart
    · split at h
      · split at h <;> cases h
        trivial
      · cases h
      · cases h
        trivial

/-- A graph whose nodes start in the text and that has no tree for another reason than a limit has a
scalar without a value. -/
theorem Yaml.Graph.toNode_unreadable {text : List Char} {g : Graph} {src : Source} {limits : Limits}
    {e : Error} (hg : ∀ x ∈ g.nodes, x.start.In text)
    (h : g.toNode src limits = .error (.unreadable e)) : e.In text := by
  rcases Except.bind_eq_error.mp h with hrefused | ⟨_, _, hrefused⟩
  · rcases convert_refused _ _ _ hrefused with hlimit | hscalar
    · rcases hlimit with hlimit | hlimit <;> cases hlimit
    · obtain ⟨number, tag, s, style, start, stop, e', hget, hfails, heq⟩ := hscalar
      cases heq
      rw [Array.getD_eq_getD_getElem?] at hget
      cases hx : g.nodes[number]? with
      | none =>
        -- where the graph has no node, nothing is written, which has a value
        rw [hx] at hget
        cases hget
        cases hfails
      | some x =>
        rw [hx] at hget
        cases hget
        exact decodeScalar_error (hg _ (Array.mem_of_getElem? hx)) hfails
  · cases hrefused

/-- **The error of a source that has no tree was noticed in the source.** -/
theorem Node.load_unreadable {limits : Limits} {src : Source} {e : Yaml.Error}
    (h : Node.load limits src = .error (.unreadable e)) : e.In src.toList := by
  obtain ⟨hgraph, herror⟩ := Yaml.Graph.locates_ofText? src.toList
  unfold Node.load at h
  split at h
  · cases h
  · split at h
    · rename_i e' he'
      cases h
      exact herror e he'
    · cases h
    · rename_i g hg
      cases hnode : g.toNode src limits with
      | ok n =>
        rw [hnode] at h
        cases h
      | error e' =>
        rw [hnode] at h
        cases h
        exact Yaml.Graph.toNode_unreadable (hgraph (some g) hg g rfl) hnode

/-! ## Marks and positions -/

namespace Source

variable (src : Source) {m : Yaml.Mark}

/-- **When the line and the column of a mark lead back to it.** -/
theorem offset_mark_eq_iff (hm : m.In src.toList) : src.offset ⟨m.line, m.column⟩ = m.index ↔
    if ∃ i < m.index, Yaml.LoneReturn src.toList i then m.index = src.size
    else '\uFEFF' ∉ src.slice (src.lineStart (src.lineOf m.index)) m.index := by
  obtain ⟨hindex, hmark⟩ := hm.eq_markAt
  have hsize : m.index ≤ src.size := hindex.trans_eq src.length_toList
  obtain ⟨hline, -, hend⟩ := src.lineOf_bounds hsize
  have hmarkLine := Yaml.line_markAt hindex
  rw [← hmark, ← src.lineOf_eq_count] at hmarkLine
  unfold offset
  simp only
  rw [if_neg (by omega)]
  by_cases hlone : ∃ i < m.index, Yaml.LoneReturn src.toList i
  · -- a carriage return that the mark counts as the end of a line puts it on a later line
    have hpos : Yaml.loneReturns src.toList m.index ≠ 0 := fun hzero =>
      Yaml.loneReturns_eq_zero_iff.mp hzero hlone
    rw [if_pos hlone]
    split
    · exact eq_comm
    · rename_i hthere
      have hcount : m.line < src.lineCount := by omega
      have hbehind := src.lt_lineStart hcount (o := m.index) (by omega)
      have hle := src.lineEnd_le_size m.line
      rw [lineCount_eq_length_lines] at hcount
      have hlength := lineEnd_eq hcount
      rw [Int.toNat_natCast, Int.toNat_natCast]
      exact iff_of_false (by omega) (by omega)
  · have hzero := Yaml.loneReturns_eq_zero_iff.mpr hlone
    have hcolumn := Yaml.column_markAt hindex hzero
    have hlast := src.lineStart_lineOf_add hsize
    rw [← hmark] at hcolumn
    rw [if_neg hlone, if_neg (by omega), Int.toNat_natCast, Int.toNat_natCast, hmarkLine, hzero,
      Nat.add_zero, src.slice_lineStart hsize, ← List.count_eq_zero]
    omega

end Source

/-! ## Documents -/

namespace Document

theorem parse_of_malformed (doc : Document) {limits : Limits} {problem : String}
    {mark : Option Yaml.Mark}
    (h : Node.load limits doc.source = .error (.unreadable (.malformed problem mark))) :
    doc.parse limits = .ok (none, .ofDiagnostic {
      range := doc.problemRange mark, message := problem, code := .syntaxError }) := by
  unfold parse
  rw [h]

/-- **When a syntax problem is shown where it was noticed.** Behind a carriage return that no line
feed follows it is at the end of the text only, elsewhere unless a byte order mark stands in front
of it on its line. -/
theorem problem_shown_at_mark_iff (doc : Document) {limits : Limits} {problem : String}
    {m : Yaml.Mark}
    (h : Node.load limits doc.source = .error (.unreadable (.malformed problem (some m)))) :
    m.index ≤ doc.source.size ∧ m = Yaml.markAt doc.source.toList m.index ∧
      ∃ d : Diagnostic, doc.parse limits = .ok (none, .ofDiagnostic d) ∧ d.code = .syntaxError ∧
        (d.range.start = doc.source.position m.index ↔
          if ∃ i < m.index, Yaml.LoneReturn doc.source.toList i then m.index = doc.source.size
          else '\uFEFF' ∉
            doc.source.slice (doc.source.lineStart (doc.source.lineOf m.index)) m.index) := by
  have hm : m.In doc.source.toList := Node.load_unreadable h
  obtain ⟨hindex, hmark⟩ := hm.eq_markAt
  rw [doc.source.length_toList] at hindex
  refine ⟨hindex, hmark, _, doc.parse_of_malformed h, rfl, ?_⟩
  rw [← doc.source.offset_mark_eq_iff hm]
  change doc.source.position (doc.source.offset ⟨m.line, m.column⟩) = _ ↔ _
  constructor
  · intro hposition
    have hoffset := congrArg doc.source.offset hposition
    rwa [Source.offset_position, Source.offset_position, Source.clamp_of_le _ hindex,
      Source.clamp_of_le _ (Source.offset_le _ _)] at hoffset
  · intro hoffset
    rw [hoffset]

/-! ### Two texts -/

/-- The mark of the error of a source that has no tree. -/
def problemMark? : Except LoadError (Option Node) → Option Yaml.Mark
  | .error (.unreadable (.malformed _ mark)) => mark
  | _ => none

theorem exists_malformed_of_load {src : Source} {m : Yaml.Mark}
    (h : problemMark? (Node.load {} src) = some m) :
    ∃ problem, Node.load {} src = .error (.unreadable (.malformed problem (some m))) := by
  unfold problemMark? at h
  split at h
  · rename_i problem mark hload
    exact ⟨problem, h ▸ hload⟩
  · cases h

/-- A bracket that closes nothing, behind a carriage return with its line feed. -/
theorem problem_shown_at_bracket :
    let doc : Document := { uri := "", source := .ofString "\r\n ]" }
    ∃ problem d, Node.load {} doc.source =
        .error (.unreadable (.malformed problem (some ⟨3, 1, 1⟩))) ∧
      doc.parse {} = .ok (none, .ofDiagnostic d) ∧ d.range.start = doc.source.position 3 := by
  intro doc
  obtain ⟨problem, hload⟩ : ∃ problem, Node.load {} doc.source =
      .error (.unreadable (.malformed problem (some ⟨3, 1, 1⟩))) :=
    exists_malformed_of_load (by decide +kernel)
  have hreturn : ¬ ∃ i < 3, Yaml.LoneReturn doc.source.toList i := by decide +kernel
  have hmark : '\uFEFF' ∉ doc.source.slice (doc.source.lineStart (doc.source.lineOf 3)) 3 := by
    decide +kernel
  obtain ⟨-, -, d, hparse, -, hiff⟩ := doc.problem_shown_at_mark_iff hload
  rw [if_neg hreturn] at hiff
  exact ⟨problem, d, hload, hparse, hiff.mpr hmark⟩

/-- Behind a byte order mark the same bracket is shown one character too early. -/
theorem problem_shown_before_bracket :
    let doc : Document := { uri := "", source := .ofString "\uFEFF]" }
    ∃ problem d, Node.load {} doc.source =
        .error (.unreadable (.malformed problem (some ⟨1, 0, 0⟩))) ∧
      doc.parse {} = .ok (none, .ofDiagnostic d) ∧ d.range.start = ⟨0, 0⟩ ∧
      doc.source.position 1 = ⟨0, 1⟩ := by
  intro doc
  obtain ⟨problem, hload⟩ : ∃ problem, Node.load {} doc.source =
      .error (.unreadable (.malformed problem (some ⟨1, 0, 0⟩))) :=
    exists_malformed_of_load (by decide +kernel)
  have hstart : (doc.problemRange (some ⟨1, 0, 0⟩)).start = ⟨0, 0⟩ := by decide +kernel
  exact ⟨problem, _, hload, doc.parse_of_malformed hload, hstart, by decide +kernel⟩

end Document

end PackLint
