import PackLint.Proofs.SkillLine.Clause
import PackLint.Proofs.SkillLine.Mechanic
import PackLint.Proofs.Text.Source

/-!
# Highlights of a skill line

The parts of a skill line (`SkillMechanic.parse`) follow one another, and so do the tokens of each
part. So the highlights of a line are those of tokens in order: each of them lies in the line, none
is empty and no two overlap. What is reported about the line lies in the line as well. Nothing is
assumed of the line, which may spell sentinels and have its braces in any order.

Results:
* `Mechanic.liesIn_parse`: the report on a line lies in the line.
* `Mechanic.within_parse`: the problems and highlights of a line by the offsets of the document.
-/

namespace PackLint

open SkillLine

/-! ## Spans of a document -/

/-- The range spans offsets of the document from `lo` to `hi`. -/
structure Range.Spans (src : Source) (lo hi : Nat) (r : Range) : Prop where
  lower : lo ≤ src.offset r.start
  ordered : src.offset r.start ≤ src.offset r.stop
  upper : src.offset r.stop ≤ hi

/-- The report keeps to the offsets from `lo` to `hi` of the document. -/
structure Report.Within (src : Source) (lo hi : Nat) (r : Report) : Prop where
  /-- Every problem is about a span of the offsets. -/
  diagnostics : ∀ d ∈ r.diagnostics, d.range.Spans src lo hi
  /-- Every highlight covers a span of the offsets. -/
  highlights : ∀ h ∈ r.highlights, h.range.Spans src lo hi
  /-- No highlight is empty. -/
  nonempty : ∀ h ∈ r.highlights, src.offset h.range.start < src.offset h.range.stop
  /-- Of two highlights, one ends before the other begins. -/
  apart : r.highlights.Pairwise fun h h' =>
    src.offset h.range.stop ≤ src.offset h'.range.start ∨
      src.offset h'.range.stop ≤ src.offset h.range.start

theorem Source.offset_range {src : Source} {lo hi : Nat} (hhi : hi ≤ src.size) {start stop : Int}
    (hlo : (lo : Int) ≤ start) (hle : start ≤ stop) (hstop : stop ≤ hi) :
    (src.offset (src.range start stop).start : Int) = start ∧
      (src.offset (src.range start stop).stop : Int) = stop := by
  have hlow : 0 ≤ start := Int.le_trans (Int.natCast_nonneg lo) hlo
  exact ⟨src.offset_position_of_le hlow (by omega),
    src.offset_position_of_le (by omega) (by omega)⟩

/-- A report that lies between two offsets of the document keeps to them. -/
theorem Report.LiesIn.within {src : Source} {lo hi : Nat} {r : Report} (h : r.LiesIn src lo hi)
    (hhi : hi ≤ src.size) : r.Within src lo hi := by
  have hspans : ∀ {start stop : Int}, (lo : Int) ≤ start → start ≤ stop → stop ≤ hi →
      (src.range start stop).Spans src lo hi := by
    intro start stop hlo hle hstop
    obtain ⟨hstart', hstop'⟩ := Source.offset_range hhi hlo hle hstop
    exact ⟨by omega, by omega, by omega⟩
  obtain ⟨ts, hts, hcolours⟩ := h.tokens
  -- every highlight has the range of a token that is not empty
  have htoken : ∀ x ∈ r.highlights, ∃ t ∈ ts, t.start < t.stop ∧
      x.range = src.range t.start t.stop := by
    intro x hx
    obtain ⟨t, ht, hrange⟩ := List.mem_map.mp (hcolours.mem_iff.mp (List.mem_map_of_mem hx))
    obtain ⟨ht, hlt⟩ := List.mem_filter.mp ht
    exact ⟨t, ht, of_decide_eq_true hlt, hrange.symm⟩
  refine ⟨fun d hd => ?_, fun x hx => ?_, fun x hx => ?_, ?_⟩
  · obtain ⟨start, stop, hlo, hle, hstop, hrange⟩ := h.problems d hd
    rw [hrange]
    exact hspans hlo hle hstop
  · obtain ⟨t, ht, -, hrange⟩ := htoken x hx
    obtain ⟨hlo, hle, hstop⟩ := hts.bounds ht
    rw [hrange]
    exact hspans hlo hle hstop
  · obtain ⟨t, ht, hlt, hrange⟩ := htoken x hx
    obtain ⟨hlo, hle, hstop⟩ := hts.bounds ht
    obtain ⟨hstart', hstop'⟩ := Source.offset_range hhi hlo hle hstop
    rw [hrange]
    omega
  · let disjoint (x y : Range) : Prop :=
      src.offset x.stop ≤ src.offset y.start ∨ src.offset y.stop ≤ src.offset x.start
    have hsymm : ∀ {x y : Range}, disjoint x y → disjoint y x := Or.symm
    have hranges : (r.highlights.map (·.range)).Pairwise disjoint := by
      rw [hcolours.pairwise_iff hsymm, List.pairwise_map]
      refine (hts.pairwise.filter _).imp_of_mem fun {s t} hs ht hst => Or.inl ?_
      obtain ⟨hslo, hsle, hshi⟩ := hts.bounds (List.mem_filter.mp hs).1
      obtain ⟨htlo, htle, hthi⟩ := hts.bounds (List.mem_filter.mp ht).1
      obtain ⟨-, hstop⟩ := Source.offset_range hhi hslo hsle hshi
      obtain ⟨hstart, -⟩ := Source.offset_range hhi htlo htle hthi
      omega
    exact List.pairwise_map.mp hranges

namespace Mechanic

variable {src : Source} {m : Mechanic}

/-! ## Parts in order -/

/-- The parts follow one another behind the index. -/
def InOrder (i : Nat) : List Part → Prop
  | [] => True
  | p :: ps => i ≤ p.start ∧ InOrder (p.start + p.text.length) ps

theorem inOrder_partsFrom (escaped : List Char) {i k : Nat} (run : List Char)
    (h : k + run.length ≤ i) : InOrder k (partsFrom i run escaped) := by
  induction escaped generalizing i k run with
  | nil =>
    unfold partsFrom
    split
    · trivial
    · refine ⟨?_, trivial⟩
      simp only
      omega
  | cons c cs ih =>
    unfold partsFrom
    split
    · split
      · exact ih [] (by rw [List.length_nil]; omega)
      · refine ⟨?_, ih [] ?_⟩
        · simp only
          omega
        · simp only [List.length_reverse, List.length_nil]
          omega
    · refine ih (c :: run) ?_
      rw [List.length_cons]
      omega

/-! ## Reading the parts -/

variable {escaped : List Char} {offset lo : Int}

/-- A part has its own offsets. -/
theorem Part.Fits.sourceOffset_stop {p : Part} (hp : p.Fits escaped) (offset : Int) :
    sourceOffset p.text (sourceOffset escaped offset p.start) p.text.length =
      sourceOffset escaped offset (p.start + p.text.length) := by
  have hslice := sourceOffset_slice hp.start hp.stop offset (Nat.le_refl _)
  rwa [hp.text_eq] at hslice

/-- A report that lies in a part of the line. -/
theorem Part.Fits.merge {p : Part} (hp : p.Fits escaped) {r s : Report}
    (hr : r.LiesIn src lo (sourceOffset escaped offset p.start))
    (hs : s.LiesIn src (sourceOffset escaped offset p.start)
      (sourceOffset p.text (sourceOffset escaped offset p.start) p.text.length)) :
    (r.merge s).LiesIn src lo (sourceOffset escaped offset (p.start + p.text.length)) := by
  rw [hp.sourceOffset_stop] at hs
  exact hr.merge hs

/-- The report on a line keeps in front of the part that is read next. -/
theorem liesIn_addPart {p : Part} (hp : p.Fits escaped) (supportsTriggers : Bool)
    (h : m.report.LiesIn src lo (sourceOffset escaped offset p.start)) :
    (m.addPart src p.text (sourceOffset escaped offset p.start)
      (sourceOffset escaped offset (p.start + p.text.length)) supportsTriggers).report.LiesIn src lo
        (sourceOffset escaped offset (p.start + p.text.length)) := by
  have hle := sourceOffset_mono escaped offset (Nat.le_add_right p.start p.text.length)
  have hlo := h.le
  have hproblem : ∀ {r : Report} {message : String} {code : DiagnosticCode} {severity : Severity},
      r.LiesIn src lo (sourceOffset escaped offset (p.start + p.text.length)) →
        (r.merge (.ofDiagnostic ⟨src.range (sourceOffset escaped offset p.start)
          (sourceOffset escaped offset (p.start + p.text.length)), message, code, severity⟩)).LiesIn
            src lo (sourceOffset escaped offset (p.start + p.text.length)) :=
    fun hr => hr.problem hlo hle (Int.le_refl _) rfl
  unfold addPart
  split
  · rename_i hhead
    have htargeter := hp.merge h (Targeter.liesIn_read hhead)
    unfold addTargeter
    simp only
    split
    · exact hproblem htargeter
    · exact htargeter
  · rename_i hhead
    have htrigger := hp.merge h (Trigger.liesIn_read hhead)
    unfold addTrigger
    simp only
    split
    · split
      · exact hproblem htrigger
      · exact htrigger
    · split
      · exact hproblem (hproblem htrigger)
      · exact hproblem htrigger
  · rename_i hhead
    exact hp.merge h (Condition.liesIn_read hhead)
  · simp only
    split
    · have htoken := LineToken.liesIn_highlight src .number (t := ⟨String.ofList (unescape p.text),
        sourceOffset escaped offset p.start,
        sourceOffset escaped offset (p.start + p.text.length)⟩) hle
      have hnumber := h.merge htoken
      unfold addNumber
      simp only
      split
      · exact hnumber
      · split
        · exact hproblem hnumber
        · split
          · exact hnumber
          · exact hproblem hnumber
    · exact hproblem (h.mono_right hle)

theorem liesIn_addParts {ps : List Part} {i : Nat} (hps : ∀ p ∈ ps, p.Fits escaped)
    (horder : InOrder i ps) (hi : i ≤ escaped.length) (supportsTriggers : Bool)
    (h : m.report.LiesIn src lo (sourceOffset escaped offset i)) :
    (ps.foldl (fun m p => m.addPart src p.text (sourceOffset escaped offset p.start)
      (sourceOffset escaped offset (p.start + p.text.length)) supportsTriggers) m).report.LiesIn
        src lo (sourceOffset escaped offset escaped.length) := by
  induction ps generalizing m i with
  | nil => exact h.mono_right (sourceOffset_mono escaped offset hi)
  | cons p ps ih =>
    obtain ⟨hp, hps⟩ := List.forall_mem_cons.mp hps
    obtain ⟨hip, horder⟩ := horder
    exact ih hps horder hp.stop.le_length
      (liesIn_addPart hp supportsTriggers (h.mono_right (sourceOffset_mono escaped offset hip)))

/-- The report on the part that names the mechanic lies in it. -/
theorem liesIn_ofFirst (text : List Char) (start : Int) :
    (ofFirst src text start).report.LiesIn src start (sourceOffset text start text.length) := by
  have hnone : LineToken.InOrder start start [] := Int.le_refl _
  exact (LineConfig.neat_parse text start).liesIn hnone (LineToken.colours_highlight? src _ _)
    (LineToken.diagnostics_highlight? src _ _)

/-- **The report on a line lies in the line**, wherever the line stands. -/
theorem liesIn_parse (src : Source) (line : List Char) (offset : Int) (supportsTriggers : Bool) :
    (parse src line offset supportsTriggers).report.LiesIn src offset (offset + line.length) := by
  have hfits := fits_parts (escape line)
  have horder : InOrder 0 (parts (escape line)) := inOrder_partsFrom _ [] (Nat.le_refl 0)
  have hend := sourceOffset_escape_le line offset (Nat.le_refl _)
  unfold parse
  simp only
  split
  · exact .empty src (Int.le_add_of_nonneg_right (Int.natCast_nonneg _))
  · rename_i first others hparts
    rw [hparts] at hfits horder
    obtain ⟨hfirst, hothers⟩ := List.forall_mem_cons.mp hfits
    have hstart := sourceOffset_mono (escape line) offset (Nat.zero_le first.start)
    rw [sourceOffset_zero] at hstart
    have hread : (ofFirst src _ _).report.LiesIn src _ _ :=
      liesIn_ofFirst first.text (sourceOffset (escape line) offset first.start)
    rw [hfirst.sourceOffset_stop] at hread
    exact (liesIn_addParts hothers horder.2 hfirst.stop.le_length supportsTriggers
      (hread.mono_left hstart)).mono_right hend

/-- **Wherever a skill line stands in a document, its problems and highlights are spans of it**: no
highlight is empty, and no two highlights overlap. -/
theorem within_parse (src : Source) (line : List Char) {start : Nat}
    (hline : start + line.length ≤ src.size) (supportsTriggers : Bool) :
    (parse src line start supportsTriggers).report.Within src start (start + line.length) := by
  have hreport := liesIn_parse src line start supportsTriggers
  rw [← Int.natCast_add] at hreport
  exact hreport.within hline

/-- A line with one brace too many and a second targeter, behind the dash of a list. -/
theorem within_parse_unbalanced :
    2 + ['a', '{', 'b', '=', '}', '}', ' ', '@', 'c', ' ', '@', 'd'].length ≤
        (Source.ofList
          ['-', ' ', 'a', '{', 'b', '=', '}', '}', ' ', '@', 'c', ' ', '@', 'd']).size ∧
      (parse (.ofList ['-', ' ', 'a', '{', 'b', '=', '}', '}', ' ', '@', 'c', ' ', '@', 'd'])
        ['a', '{', 'b', '=', '}', '}', ' ', '@', 'c', ' ', '@', 'd']
        (2 : Nat) true).report.Within
          (.ofList ['-', ' ', 'a', '{', 'b', '=', '}', '}', ' ', '@', 'c', ' ', '@', 'd'])
          2 14 := by
  have hline : 2 + ['a', '{', 'b', '=', '}', '}', ' ', '@', 'c', ' ', '@', 'd'].length ≤
      (Source.ofList
        ['-', ' ', 'a', '{', 'b', '=', '}', '}', ' ', '@', 'c', ' ', '@', 'd']).size := by
    decide
  exact ⟨hline, within_parse _ _ hline true⟩

end Mechanic

end PackLint
