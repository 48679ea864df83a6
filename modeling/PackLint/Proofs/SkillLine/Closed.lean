import PackLint.Proofs.Report.Closed
import PackLint.SkillLine.Mechanic
import Mathlib.Tactic.SplitIfs

/-!
# What is said of a skill line

The report on a skill line is made of diagnostics and highlights, so it has every closed property
(`Mechanic.closed_parse`).
-/

namespace PackLint

variable {P : Report → Prop} (hP : Report.Closed P) {src : Source}

include hP

theorem LineToken.closed_highlight (t : LineToken) (color : TextClass) :
    P (t.highlight src color) := by
  unfold highlight
  split_ifs
  · exact hP.highlight _
  · exact hP.empty

theorem LineToken.closed_highlight? (t : Option LineToken) (color : TextClass) :
    P (LineToken.highlight? src color t) := by
  cases t with
  | none => exact hP.empty
  | some t => exact t.closed_highlight hP color

namespace LineConfig

variable {c : LineConfig}

theorem closed_problem (h : P c.report) (start stop : Nat) (message : String)
    (code : DiagnosticCode) (hcode : code ≠ .duplicateComponentId := by decide) :
    P (c.problem src start stop message code).report :=
  hP.merge h (hP.diagnostic _ hcode)

theorem closed_addPiece (h : P c.report) (p : Piece) : P (c.addPiece src p).report := by
  unfold addPiece
  simp only
  split
  · exact h
  · split
    · exact closed_problem hP h _ _ _ _
    · split
      · exact closed_problem hP (c := { c with entries := _ }) h _ _ _ _
      · exact h

theorem closed_foldl_addPiece (h : P c.report) (ps : List Piece) :
    P (ps.foldl (addPiece src) c).report := by
  induction ps generalizing c with
  | nil => exact h
  | cons p ps ih => exact ih (closed_addPiece hP h p)

theorem closed_readBlock (h : P c.report) : P (c.readBlock src).report := by
  unfold readBlock
  simp only
  split
  · split_ifs
    · exact h
    · exact closed_problem hP h _ _ _ _
  · refine closed_foldl_addPiece hP ?_ _
    split_ifs
    · exact h
    · exact closed_problem hP h _ _ _ _

theorem closed_readBracket (h : P c.report) : P (c.readBracket src).report := by
  unfold readBracket
  simp only
  split
  · split_ifs
    · exact h
    · exact closed_problem hP h _ _ _ _
  · exact closed_problem hP h _ _ _ _

theorem closed_parse (text : List Char) (offset : Int) : P (parse src text offset).report := by
  unfold parse read
  simp only
  split_ifs
  · exact closed_readBlock hP hP.empty
  · exact closed_readBracket hP hP.empty
  · exact hP.empty

theorem closed_withHighlights (h : P c.report) : P (c.withHighlights src).report := by
  refine hP.merge h (hP.mergeAll fun r hr => ?_)
  rcases List.mem_cons.mp hr with rfl | hr
  · exact LineToken.closed_highlight? hP _ _
  · rcases List.mem_cons.mp hr with rfl | hr
    · exact LineToken.closed_highlight? hP _ _
    · obtain ⟨e, -, rfl⟩ := List.mem_map.mp hr
      refine hP.mergeAll fun r hr => ?_
      simp only [List.mem_cons, List.not_mem_nil, or_false] at hr
      rcases hr with rfl | rfl | rfl | rfl
      · exact LineToken.closed_highlight hP _ _
      · exact LineToken.closed_highlight hP _ _
      · exact LineToken.closed_highlight hP _ _
      · exact LineToken.closed_highlight? hP _ _

end LineConfig

theorem Targeter.closed_read (text : List Char) (offset : Int) :
    P ((Targeter.parse src text offset).withHighlights src).report := by
  refine hP.merge (LineConfig.closed_withHighlights hP (LineConfig.closed_parse hP _ _)) ?_
  refine hP.mergeAll fun r hr => ?_
  simp only [List.mem_cons, List.not_mem_nil, or_false] at hr
  rcases hr with rfl | rfl
  · exact LineToken.closed_highlight hP _ _
  · exact LineToken.closed_highlight? hP _ _

theorem Condition.closed_read (text : List Char) (offset : Int) :
    P ((Condition.parse src text offset).withHighlights src).report := by
  refine hP.merge (LineConfig.closed_withHighlights hP (LineConfig.closed_parse hP _ _)) ?_
  refine hP.mergeAll fun r hr => ?_
  simp only [List.mem_cons, List.not_mem_nil, or_false] at hr
  rcases hr with rfl | rfl | rfl | rfl
  · exact LineToken.closed_highlight hP _ _
  · exact LineToken.closed_highlight? hP _ _
  · exact LineToken.closed_highlight? hP _ _
  · exact LineToken.closed_highlight? hP _ _

theorem Trigger.closed_read (text : List Char) (offset : Int) :
    P ((Trigger.parse text offset).withHighlights src).report := by
  have h : P (Trigger.parse text offset).report := by
    unfold Trigger.parse
    simp only
    split <;> exact hP.empty
  refine hP.merge h (hP.mergeAll fun r hr => ?_)
  simp only [List.mem_cons, List.not_mem_nil, or_false] at hr
  rcases hr with rfl | rfl | rfl | rfl
  · exact LineToken.closed_highlight hP _ _
  · exact LineToken.closed_highlight hP _ _
  · exact LineToken.closed_highlight? hP _ _
  · exact LineToken.closed_highlight? hP _ _

namespace Mechanic

variable {m : Mechanic}

theorem closed_problem (h : P m.report) (start stop : Int) (message : String)
    (code : DiagnosticCode) (severity : Severity)
    (hcode : code ≠ .duplicateComponentId := by decide) :
    P (m.problem src start stop message code severity).report :=
  hP.merge h (hP.diagnostic _ hcode)

theorem closed_addTargeter (h : P m.report) (text : List Char) (start stop : Int) :
    P (m.addTargeter src text start stop).report := by
  have ha : P (m.adding ((Targeter.parse src text start).withHighlights src).report).report :=
    hP.merge h (Targeter.closed_read hP text start)
  unfold addTargeter
  simp only
  split_ifs
  · exact closed_problem hP ha _ _ _ _ _
  · exact ha

theorem closed_addTrigger (h : P m.report) (text : List Char) (start stop : Int)
    (supportsTriggers : Bool) :
    P (m.addTrigger src text start stop supportsTriggers).report := by
  have ha : P (m.adding ((Trigger.parse text start).withHighlights src).report).report :=
    hP.merge h (Trigger.closed_read hP text start)
  unfold addTrigger
  simp only
  split_ifs
  · exact closed_problem hP ha _ _ _ _ _
  · exact ha
  · exact closed_problem hP (closed_problem hP ha _ _ _ _ _) _ _ _ _ _
  · exact closed_problem hP ha _ _ _ _ _

theorem closed_addNumber (h : P m.report) (token : LineToken) :
    P (m.addNumber src token).report := by
  have ha : P (m.adding (token.highlight src .number)).report :=
    hP.merge h (token.closed_highlight hP _)
  unfold addNumber
  simp only
  split_ifs
  · exact ha
  · exact closed_problem hP ha _ _ _ _ _
  · exact ha
  · exact closed_problem hP (m := { m.adding _ with chance := _ }) ha _ _ _ _ _

theorem closed_addPart (h : P m.report) (text : List Char) (start stop : Int)
    (supportsTriggers : Bool) : P (m.addPart src text start stop supportsTriggers).report := by
  unfold addPart
  split
  · exact closed_addTargeter hP h _ _ _
  · exact closed_addTrigger hP h _ _ _ _
  · exact hP.merge h (Condition.closed_read hP text start)
  · simp only
    split_ifs
    · exact closed_addNumber hP h _
    · exact closed_problem hP h _ _ _ _ _

/-- **The report on a skill line has every closed property.** -/
theorem closed_parse (line : List Char) (offset : Int) (supportsTriggers : Bool) :
    P (parse src line offset supportsTriggers).report := by
  unfold parse
  simp only
  split
  · exact hP.empty
  · refine List.foldlRecOn (motive := fun m : Mechanic => P m.report) _ _ ?_ ?_
    · exact hP.merge (LineConfig.closed_withHighlights hP (LineConfig.closed_parse hP _ _))
        (LineToken.closed_highlight? hP _ _)
    · exact fun m h p _ => closed_addPart hP h _ _ _ _

end Mechanic

end PackLint
