import PackLint.Proofs.Yaml.Scan

/-!
# Scalars stand where they are read

A plain or a block scalar ends behind its last character or break, although its scanner looks
further ahead, so the loops over its lines carry the place where it ends so far.

Results:
* `Scan.reads_quoted`, `Scan.reads_plain`, `Scan.reads_block`: the tokens of scalars stand where
  they are read.
-/

namespace PackLint.Yaml

/-- The mark stands between two indices. -/
def Mark.Between (lo hi : Nat) (m : Mark) : Prop := lo ≤ m.index ∧ m.index ≤ hi

namespace Mark.Between

variable {lo hi hi' : Nat} {m m' : Mark}

theorem mono (h : m.Between lo hi) (hle : hi ≤ hi') : m.Between lo hi' :=
  ⟨h.1, Nat.le_trans h.2 hle⟩

/-- A mark further on. -/
theorem next (h : m.Between lo hi) (hle : hi ≤ hi') (hm : m'.index = hi') : m'.Between lo hi' :=
  ⟨by have := h.1; have := h.2; omega, Nat.le_of_eq hm⟩

end Mark.Between

namespace Scan

variable {k lo : Nat}

/-! ## Quoted scalars -/

theorem forward_quotedBreaks (fuel : Nat) (acc : List Char) : Forward (quotedBreaks fuel acc) := by
  induction fuel generalizing acc with
  | zero => exact .pure _
  | succ fuel ih =>
    unfold quotedBreaks
    refine forward_atDocumentBoundary.bind fun _ => .when (.fail _)
      ((forward_skipWhile _).bind fun _ => forward_lineBreak?.bind fun c => ?_)
    split
    · exact ih _
    · exact .pure _

theorem forward_quotedSpaces : Forward quotedSpaces := by
  unfold quotedSpaces
  refine (forward_span _).bind fun _ => forward_get.bind fun _ => .when (.fail _)
    (forward_lineBreak?.bind fun c => ?_)
  split
  · exact forward_size.bind fun _ => (forward_quotedBreaks _ _).bind fun _ => .pure _
  · exact .pure _

theorem forward_numericEscape (width : Nat) : Forward (numericEscape width) := by
  unfold numericEscape
  refine forward_get.bind fun _ => ?_
  split
  · exact .fail _
  · refine (forward_skip _).bind fun _ => ?_
    split
    · exact .throw _
    · split
      · refine forward_get.bind fun _ => ?_
        split
        · split
          · exact (forward_skip 6).bind fun _ => .pure _
          · exact .pure _
        · exact .pure _
      · exact .pure _

theorem forward_escapeText : Forward escapeText := by
  unfold escapeText
  refine forward_peek.bind fun c => ?_
  split
  · exact (forward_skip 1).bind fun _ => .pure _
  · exact (forward_skip 1).bind fun _ => (forward_numericEscape _).bind fun _ => .pure _
  · refine forward_lineBreak?.bind fun c => ?_
    split
    · exact forward_size.bind fun _ => forward_quotedBreaks _ _
    · exact .fail _

theorem forward_quotedRun (double : Bool) (fuel : Nat) (acc : List Char) :
    Forward (quotedRun double fuel acc) := by
  induction fuel generalizing acc with
  | zero => exact .pure _
  | succ fuel ih =>
    unfold quotedRun
    refine (forward_span _).bind fun run => forward_peek.bind fun c =>
      (forward_peekAt 1).bind fun d => ?_
    split
    · exact (forward_skip 2).bind fun _ => ih _
    · split
      · exact (forward_skip 1).bind fun _ => ih _
      · split
        · exact (forward_skip 1).bind fun _ => forward_escapeText.bind fun _ => ih _
        · exact .pure _

theorem forward_quotedText (double : Bool) (fuel : Nat) (acc : List Char) :
    Forward (quotedText double fuel acc) := by
  induction fuel generalizing acc with
  | zero => exact .pure _
  | succ fuel ih =>
    unfold quotedText
    refine forward_size.bind fun _ => (forward_quotedRun _ _ _).bind fun _ =>
      forward_peek.bind fun _ => ?_
    generalize (if double then '"' else '\'') = closing
    split
    · exact .pure _
    · exact forward_quotedSpaces.bind fun _ => ih _

theorem reads_quoted (double : Bool) : Reads k (quoted double) fun t i => t.Between k i := by
  unfold quoted
  exact .token fun start => .after (forward_skip 1) fun _ => .after forward_size fun _ =>
    .after (forward_quotedText _ _ _) fun _ => .after (forward_skip 1) fun _ =>
      reads_token_here TokenKind.noConfusion start

/-! ## Plain scalars -/

theorem forward_plainBreaks (fuel : Nat) (acc : List Char) : Forward (plainBreaks fuel acc) := by
  induction fuel generalizing acc with
  | zero => exact .pure _
  | succ fuel ih =>
    unfold plainBreaks
    refine forward_peek.bind fun _ => ?_
    split
    · exact (forward_skip 1).bind fun _ => ih _
    · refine forward_lineBreak?.bind fun c => ?_
      split
      · exact .pure _
      · refine forward_atDocumentBoundary.bind fun _ => ?_
        split
        · exact .pure _
        · exact ih _

theorem forward_plainSpaces : Forward plainSpaces := by
  unfold plainSpaces
  refine (forward_span _).bind fun _ => forward_lineBreak?.bind fun c => ?_
  split
  · exact .pure _
  · refine forward_atDocumentBoundary.bind fun _ => ?_
    split
    · exact .pure _
    · refine forward_size.bind fun _ => (forward_plainBreaks _ _).bind fun breaks => ?_
      split
      · exact .pure _
      · exact .pure _

theorem reads_plainPieces (version : Version) (inFlow : Bool) (indent fuel : Nat)
    (spaces : List Char) {acc : PlainScalar} (hacc : acc.stop.Between lo k) :
    Reads k (plainPieces version inFlow indent fuel spaces acc) fun scalar i =>
      scalar.stop.Between lo i := by
  induction fuel generalizing k spaces acc with
  | zero => exact .pure fun _ => hacc.mono
  | succ fuel ih =>
    have hdone : Reads k (pure acc) fun (scalar : PlainScalar) i => scalar.stop.Between lo i :=
      .pure fun _ => hacc.mono
    unfold plainPieces
    refine .after forward_peek fun _ => ?_
    split
    · exact hdone
    · refine .after forward_get fun _ => ?_
      simp only
      split
      · exact hdone
      · refine .after (forward_take _) fun piece => reads_mark.bind fun stop i hi hstop => ?_
        have hstop : stop.Between lo i := hacc.next hi hstop
        refine .after forward_plainSpaces fun r => .after forward_mark fun _ =>
          .after forward_peek fun _ => ?_
        split
        · exact .pure fun _ => hstop.mono
        · exact ih _ hstop

theorem reads_plain (version : Version) (inFlow : Bool) (indent : Nat) :
    Reads k (plain version inFlow indent) fun r i => r.1.Between k i := by
  unfold plain
  refine reads_mark.bind fun start i hi hstart => .after forward_size fun _ => ?_
  have hfirst : start.Between start.index i := ⟨Nat.le_refl _, Nat.le_of_eq hstart⟩
  refine (reads_plainPieces version inFlow indent _ [] hfirst).bind fun scalar j hj hscalar =>
    .pure fun l hl => ?_
  exact ⟨hstart ▸ hi, hscalar.1, Nat.le_trans hscalar.2 hl, TokenKind.noConfusion⟩

/-! ## Block scalars -/

theorem forward_indentDigit? : Forward indentDigit? := by
  unfold indentDigit?
  refine forward_peek.bind fun c => ?_
  split
  · exact .when (.fail _) ((forward_skip 1).bind fun _ => .pure _)
  · exact .pure _

theorem forward_chompingSign? : Forward chompingSign? := by
  unfold chompingSign?
  refine forward_peek.bind fun c => ?_
  split
  · exact (forward_skip 1).bind fun _ => .pure _
  · split
    · exact (forward_skip 1).bind fun _ => .pure _
    · exact .pure _

theorem forward_blockIndicators : Forward blockIndicators := by
  unfold blockIndicators
  have hend : ∀ indicators : Chomping × Option Nat, Forward (do
      let c ← peek
      if c ≠ ' ' ∧ !isLineEnd c then fail "expected chomping or indentation indicators"
      return indicators) := fun _ => forward_peek.bind fun _ => .when (.fail _) (.pure _)
  refine forward_chompingSign?.bind fun sign => ?_
  split
  · exact forward_indentDigit?.bind fun _ => hend _
  · refine forward_indentDigit?.bind fun digit => ?_
    split
    · exact forward_chompingSign?.bind fun _ => hend _
    · exact hend _

theorem reads_blockIndentation (fuel : Nat) (breaks : List Char) (first : Option Nat) (width : Nat)
    {stop : Mark} (hstop : stop.Between lo k) :
    Reads k (blockIndentation fuel breaks first width stop) fun r i => r.2.2.Between lo i := by
  induction fuel generalizing k breaks first width stop with
  | zero => exact .pure fun _ => hstop.mono
  | succ fuel ih =>
    unfold blockIndentation
    refine .after forward_peek fun _ => ?_
    split
    · exact .after (forward_skip 1) fun _ => .after forward_mark fun _ => ih _ _ _ hstop
    · refine .after forward_mark fun _ => .after forward_lineBreak? fun c => ?_
      split
      · exact reads_mark.bind fun m i hi hm => ih _ _ _ (hstop.next hi hm)
      · have hdone : Reads k (pure (breaks, width, stop)) fun (r : List Char × Nat × Mark) i =>
            r.2.2.Between lo i := .pure fun _ => hstop.mono
        simp only
        split
        · exact .when (.throw _) hdone
        · exact hdone

theorem forward_skipIndent (indent fuel : Nat) : Forward (skipIndent indent fuel) := by
  induction fuel with
  | zero => exact .pure _
  | succ fuel ih =>
    unfold skipIndent
    refine forward_mark.bind fun _ => forward_peek.bind fun _ => ?_
    split
    · exact (forward_skip 1).bind fun _ => ih
    · exact .pure _

theorem reads_blockBreaks (indent fuel : Nat) (breaks : List Char) {stop : Mark}
    (hstop : stop.Between lo k) :
    Reads k (blockBreaks indent fuel breaks stop) fun r i => r.2.Between lo i := by
  induction fuel generalizing k breaks stop with
  | zero => exact .pure fun _ => hstop.mono
  | succ fuel ih =>
    unfold blockBreaks
    refine .after (forward_skipIndent _ _) fun _ => .after forward_lineBreak? fun c => ?_
    split
    · exact reads_mark.bind fun m i hi hm => ih _ (hstop.next hi hm)
    · exact .pure fun _ => hstop.mono

theorem reads_blockLines (folded watchful : Bool) (indent fuel : Nat) {acc : BlockLines}
    (hacc : acc.stop.Between lo k) :
    Reads k (blockLines folded watchful indent fuel acc) fun lines i =>
      lines.stop.Between lo i := by
  induction fuel generalizing k acc with
  | zero => exact .pure fun _ => hacc.mono
  | succ fuel ih =>
    unfold blockLines
    refine .after forward_peek fun _ => .after (forward_span _) fun _ =>
      .after forward_lineBreak? fun _ => .after forward_size fun _ =>
        reads_mark.bind fun m i hi hm => ?_
    refine (reads_blockBreaks _ _ _ (hacc.next hi hm)).bind fun r j hj hr => ?_
    refine .after forward_mark fun _ => .after forward_atDocumentBoundary fun _ => ?_
    split
    · exact .pure fun _ => hr.mono
    · refine .after forward_mark fun _ => .after forward_get fun _ => ?_
      split
      · exact .after forward_peek fun _ => ih hr
      · exact .pure fun _ => hr.mono

theorem reads_block (folded : Bool) (minIndent : Nat) :
    Reads k (block folded minIndent) fun t i => t.Between k i := by
  unfold block
  refine .token fun start => .after (forward_skip 1) fun _ => .after forward_blockIndicators
    fun r => .after (forward_skipWhile _) fun _ => .after forward_skipComment fun _ =>
    .after forward_peek fun _ => .when (.fail _) (.after forward_lineBreak? fun _ =>
    .after forward_size fun _ => ?_)
  -- The lines are read alike whether their indentation is given or found.
  extract_lets fuel watchful finish readLines
  have hfinish : ∀ {lines : BlockLines} {j : Nat}, lines.stop.Between start.index j →
      Reads j (finish lines) fun t i => t.Between start.index i := fun h =>
    .pure fun _ hi => ⟨Nat.le_refl _, h.1, Nat.le_trans h.2 hi, TokenKind.noConfusion⟩
  have hlines : ∀ {found : Nat × List Char × Mark} {j : Nat},
      found.2.2.Between start.index j →
      Reads j (readLines found) fun t i => t.Between start.index i := by
    intro found j hstop
    refine .after forward_mark fun _ => .after forward_get fun _ => ?_
    split
    · exact .after forward_size fun _ => (reads_blockLines _ _ _ _ hstop).bind fun _ _ _ => hfinish
    · exact .pure_bind (hfinish hstop)
  clear_value readLines
  split
  · refine reads_mark.bind fun m i hi hm => ?_
    have hfirst : m.Between start.index i := ⟨hm ▸ hi, Nat.le_of_eq hm⟩
    exact (reads_blockIndentation _ _ _ _ hfirst).bind fun _ _ _ h => .pure_bind (hlines h)
  · refine reads_mark.bind fun m i hi hm => ?_
    have hfirst : m.Between start.index i := ⟨hm ▸ hi, Nat.le_of_eq hm⟩
    exact (reads_blockBreaks _ _ _ hfirst).bind fun _ _ _ h => .pure_bind (hlines h)

end Scan

end PackLint.Yaml
