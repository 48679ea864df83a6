import PackLint.Proofs.SkillLine.InOrder
import PackLint.Proofs.SkillLine.Config
import PackLint.SkillLine.Clause

/-!
# Reports on clauses

A report lies between two offsets if its problems do and its highlights are those of tokens that
follow one another between them. The reports on targeters, triggers and conditions lie in the
clause they are about. All that they tell of problems is what their configurations do.

Results:
* `Targeter.liesIn_read`, `Trigger.liesIn_read`, `Condition.liesIn_read`: the report on a clause
  lies in the clause.
* `Targeter.diagnostics_read`, `Trigger.diagnostics_read`, `Condition.diagnostics_read`: its
  problems are those of its configuration.
-/

namespace PackLint

open SkillLine

/-! ## Reports between two offsets -/

/-- The report lies between two offsets: so do its problems, and its highlights are those of tokens
in order. -/
structure Report.LiesIn (src : Source) (lo hi : Int) (r : Report) : Prop where
  tokens : ∃ ts, LineToken.InOrder lo hi ts ∧ r.Colours src ts
  problems : ∀ d ∈ r.diagnostics, ∃ start stop : Int,
    lo ≤ start ∧ start ≤ stop ∧ stop ≤ hi ∧ d.range = src.range start stop

namespace Report.LiesIn

variable {src : Source} {lo mid hi hi' : Int} {r s : Report}

theorem le (h : r.LiesIn src lo hi) : lo ≤ hi := by
  obtain ⟨ts, hts, -⟩ := h.tokens
  exact hts.le

theorem empty (src : Source) (h : lo ≤ hi) : LiesIn src lo hi .empty where
  tokens := ⟨[], h, .of_nil rfl⟩
  problems _ h := nomatch h

theorem merge (hr : r.LiesIn src lo mid) (hs : s.LiesIn src mid hi) :
    (r.merge s).LiesIn src lo hi where
  tokens := by
    obtain ⟨ts, hts, hr⟩ := hr.tokens
    obtain ⟨us, hus, hs⟩ := hs.tokens
    exact ⟨ts ++ us, hts.append hus, hr.merge hs⟩
  problems d hd := by
    rcases List.mem_append.mp hd with hd | hd
    · obtain ⟨start, stop, hlo, hle, hhi, hrange⟩ := hr.problems d hd
      exact ⟨start, stop, hlo, hle, Int.le_trans hhi hs.le, hrange⟩
    · obtain ⟨start, stop, hlo, hle, hhi, hrange⟩ := hs.problems d hd
      exact ⟨start, stop, Int.le_trans hr.le hlo, hle, hhi, hrange⟩

/-- One more problem between the offsets. -/
theorem problem (h : r.LiesIn src lo hi) {start stop : Int} (hlo : lo ≤ start)
    (hle : start ≤ stop) (hhi : stop ≤ hi) {d : Diagnostic} (hd : d.range = src.range start stop) :
    (r.merge (.ofDiagnostic d)).LiesIn src lo hi where
  tokens := h.tokens
  problems d' hd' := by
    rcases List.mem_append.mp hd' with hd' | hd'
    · exact h.problems d' hd'
    · rw [List.mem_singleton.mp hd']
      exact ⟨start, stop, hlo, hle, hhi, hd⟩

theorem mono_left (h : r.LiesIn src mid hi) (hlo : lo ≤ mid) : r.LiesIn src lo hi := by
  have hmerge := (empty src hlo).merge h
  rwa [Report.empty_merge] at hmerge

theorem mono_right (h : r.LiesIn src lo hi) (hhi : hi ≤ hi') : r.LiesIn src lo hi' where
  tokens := by
    obtain ⟨ts, hts, hr⟩ := h.tokens
    exact ⟨ts, hts.mono_right hhi, hr⟩
  problems d hd := by
    obtain ⟨start, stop, hlo, hle, hstop, hrange⟩ := h.problems d hd
    exact ⟨start, stop, hlo, hle, Int.le_trans hstop hhi, hrange⟩

end Report.LiesIn

/-- The highlight of a token lies in the token. -/
theorem LineToken.liesIn_highlight (src : Source) (color : TextClass) {t : LineToken}
    (h : t.start ≤ t.stop) : (t.highlight src color).LiesIn src t.start t.stop where
  tokens := ⟨[t], inOrder_singleton (Int.le_refl _) h (Int.le_refl _),
    t.colours_highlight src color⟩
  problems d hd := by
    unfold highlight at hd
    split at hd <;> cases hd

/-! ## Reports without problems -/

theorem Report.diagnostics_mergeAll {rs : List Report} (h : ∀ r ∈ rs, r.diagnostics = []) :
    (mergeAll rs).diagnostics = [] := by
  induction rs with
  | nil => rfl
  | cons r rs ih =>
    obtain ⟨hr, hrs⟩ := List.forall_mem_cons.mp h
    rw [mergeAll_cons, merge, hr, ih hrs]
    rfl

@[simp] theorem LineToken.diagnostics_highlight (src : Source) (color : TextClass) (t : LineToken) :
    (t.highlight src color).diagnostics = [] := by
  unfold highlight
  split <;> rfl

@[simp] theorem LineToken.diagnostics_highlight? (src : Source) (color : TextClass)
    (t : Option LineToken) : (LineToken.highlight? src color t).diagnostics = [] := by
  cases t with
  | none => rfl
  | some t => exact t.diagnostics_highlight src color

namespace LineConfig

variable {src : Source}

theorem diagnostics_entryHighlights (e : ConfigEntry) :
    (entryHighlights src e).diagnostics = [] := by
  exact Report.diagnostics_mergeAll (by simp)

/-- Highlights add no problems. -/
theorem diagnostics_withHighlights (c : LineConfig) {more : Report} (h : more.diagnostics = []) :
    ((c.withHighlights src).report.merge more).diagnostics = c.report.diagnostics := by
  have hall : (c.highlights src).diagnostics = [] := by
    refine Report.diagnostics_mergeAll fun r hr => ?_
    rcases List.mem_cons.mp hr with rfl | hr
    · exact LineToken.diagnostics_highlight? src _ _
    · rcases List.mem_cons.mp hr with rfl | hr
      · exact LineToken.diagnostics_highlight? src _ _
      · obtain ⟨e, -, rfl⟩ := List.mem_map.mp hr
        exact diagnostics_entryHighlights e
  rw [Report.merge, h, List.append_nil, withHighlights, Report.merge, hall, List.append_nil]

/-- A configuration with its name and its block highlighted, behind some marks. -/
theorem Neat.liesIn {lo mid hi : Int} {c : LineConfig} (h : c.Neat src mid hi)
    {marks : List LineToken} (hmarks : LineToken.InOrder lo mid marks) {more : Report}
    (hcolours : more.Colours src (marks ++ c.main.toList)) (hsilent : more.diagnostics = []) :
    ((c.withHighlights src).report.merge more).LiesIn src lo hi where
  tokens := by
    refine ⟨marks ++ (c.main.toList ++ c.blockTokens), hmarks.append h.tokens, ?_⟩
    refine ((colours_withHighlights h.highlights).merge hcolours).perm ?_
    rw [← List.append_assoc marks c.main.toList]
    exact List.perm_append_comm
  problems d hd := by
    rw [diagnostics_withHighlights c hsilent] at hd
    obtain ⟨start, stop, hlo, hle, hhi, hrange⟩ := (h.problems d hd).range
    exact ⟨start, stop, Int.le_trans hmarks.le hlo, hle, hhi, hrange⟩

end LineConfig

/-! ## Clauses -/

variable {src : Source} {text : List Char} {offset : Int}

theorem boundary_mark {x : Char} (hx : Outer x) (hhead : text.head? = some x) : Boundary text 1 :=
  (boundary_of_outer hx (by rwa [← List.head?_eq_getElem?])).2

/-- The configuration behind a boundary of the text. -/
theorem LineConfig.neat_drop {i : Nat} (hi : Boundary text i) :
    (LineConfig.parse src (text.drop i) (sourceOffset text offset i)).Neat src
      (sourceOffset text offset i) (sourceOffset text offset text.length) := by
  have hneat : Neat src _ _ _ := neat_parse (text.drop i) (sourceOffset text offset i)
  rwa [sourceOffset_drop hi, List.length_drop, Nat.add_sub_of_le hi.le_length] at hneat

/-- The mark that a clause starts with. -/
theorem inOrder_mark (text : List Char) (offset : Int) (value : String) :
    LineToken.InOrder offset (sourceOffset text offset 1)
      [⟨value, offset, sourceOffset text offset 1⟩] := by
  have hle := sourceOffset_mono text offset (Nat.zero_le 1)
  rw [sourceOffset_zero] at hle
  exact LineToken.inOrder_singleton (Int.le_refl _) hle (Int.le_refl _)

/-- The problems of a targeter are those of its configuration. -/
theorem Targeter.diagnostics_read (src : Source) (text : List Char) (offset : Int) :
    ((Targeter.parse src text offset).withHighlights src).report.diagnostics =
      (Targeter.parse src text offset).config.report.diagnostics :=
  LineConfig.diagnostics_withHighlights _ (Report.diagnostics_mergeAll (by simp))

/-- The report on a targeter lies in it. -/
theorem Targeter.liesIn_read (hhead : text.head? = some '@') :
    ((Targeter.parse src text offset).withHighlights src).report.LiesIn src offset
      (sourceOffset text offset text.length) := by
  have hb := boundary_mark (by decide : Outer '@') hhead
  refine (LineConfig.neat_drop hb).liesIn (inOrder_mark text offset "@") ?_ ?_
  · rw [Report.mergeAll_cons, Report.mergeAll_cons, Report.mergeAll_nil, Report.merge_empty]
    exact (LineToken.colours_highlight src _ _).merge (LineToken.colours_highlight? src _ _)
  · exact Report.diagnostics_mergeAll (by simp)

/-- A trigger has no problems. -/
theorem Trigger.diagnostics_read (src : Source) (text : List Char) (offset : Int) :
    ((Trigger.parse text offset).withHighlights src).report.diagnostics = [] := by
  have hmore : ∀ t : Trigger, (Report.mergeAll
      [t.tilde.highlight src .operator, t.name.highlight src .event,
        LineToken.highlight? src .operator t.colon,
        LineToken.highlight? src .string t.argument]).diagnostics = [] :=
    fun t => Report.diagnostics_mergeAll (by simp)
  unfold Trigger.withHighlights Trigger.parse
  split
  · exact hmore _
  · exact hmore _

/-- The report on a trigger lies in it. -/
theorem Trigger.liesIn_read (hhead : text.head? = some '~') :
    ((Trigger.parse text offset).withHighlights src).report.LiesIn src offset
      (sourceOffset text offset text.length) := by
  have hlength : 1 ≤ text.length := (boundary_mark (by decide : Outer '~') hhead).le_length
  have hzero := Int.le_of_eq (sourceOffset_zero text offset).symm
  have htilde := sourceOffset_mono text offset (Nat.zero_le 1)
  refine ⟨?_, fun d hd => ?_⟩
  · unfold Trigger.parse Trigger.withHighlights
    simp only [Report.mergeAll_cons, Report.mergeAll_nil, Report.merge_empty]
    cases hcolon : text.findIdx? (· = ':') with
    | none =>
      have hname := sourceOffset_mono text offset hlength
      refine ⟨[.covering text offset 0 1, .covering text offset 1 text.length],
        ⟨hzero, htilde, Int.le_refl _, hname, Int.le_refl _⟩, ?_⟩
      exact (Report.Colours.of_nil rfl).merge ((LineToken.colours_highlight src _ _).merge
        ((LineToken.colours_highlight src _ _).merge (.of_nil rfl)))
    | some i =>
      obtain ⟨hlt, hi, -⟩ := List.findIdx?_eq_some_iff_getElem.mp hcolon
      have hpos : 1 ≤ i := LineConfig.findIdx?_pos hcolon hhead (by decide)
      have hname := sourceOffset_mono text offset hpos
      have hmark := sourceOffset_mono text offset (Nat.le_succ i)
      have hargument := sourceOffset_mono text offset hlt
      refine ⟨[.covering text offset 0 1, .covering text offset 1 i,
          .covering text offset i (i + 1), .covering text offset (i + 1) text.length],
        ⟨hzero, htilde, Int.le_refl _, hname, Int.le_refl _, hmark, Int.le_refl _, hargument,
          Int.le_refl _⟩, ?_⟩
      exact (Report.Colours.of_nil rfl).merge ((LineToken.colours_highlight src _ _).merge
        ((LineToken.colours_highlight src _ _).merge
          ((LineToken.colours_highlight? src _ (some _)).merge
            (LineToken.colours_highlight? src _ (some _)))))
  · rw [diagnostics_read] at hd
    cases hd

/-- The problems of a condition are those of its configuration. -/
theorem Condition.diagnostics_read (src : Source) (text : List Char) (offset : Int) :
    ((Condition.parse src text offset).withHighlights src).report.diagnostics =
      (Condition.parse src text offset).config.report.diagnostics :=
  LineConfig.diagnostics_withHighlights _ (Report.diagnostics_mergeAll (by simp))

/-- The mark of a condition, if it is there, and where the text goes on. -/
theorem Condition.inOrder_markAt? (offset : Int) {i : Nat} (hi : Boundary text i) {x : Char}
    (hx : Outer x) :
    LineToken.InOrder (sourceOffset text offset i)
      (sourceOffset text offset (if (markAt? text offset i x).isSome then i + 1 else i))
      (markAt? text offset i x).toList ∧
    Boundary text (if (markAt? text offset i x).isSome then i + 1 else i) := by
  unfold markAt?
  split
  · rename_i hmark
    refine ⟨?_, (boundary_of_outer hx hmark).2⟩
    exact LineToken.inOrder_singleton (Int.le_refl _)
      (sourceOffset_mono text offset (Nat.le_succ i)) (Int.le_refl _)
  · exact ⟨Int.le_refl _, hi⟩

/-- The report on a condition lies in it. -/
theorem Condition.liesIn_read (hhead : text.head? = some '?') :
    ((Condition.parse src text offset).withHighlights src).report.LiesIn src offset
      (sourceOffset text offset text.length) := by
  have hb := boundary_mark (by decide : Outer '?') hhead
  obtain ⟨htilde, hb⟩ := inOrder_markAt? offset hb (by decide : Outer '~')
  obtain ⟨hnegation, hb⟩ := inOrder_markAt? offset hb (by decide : Outer '!')
  have hmarks := ((inOrder_mark text offset "?").append htilde).append hnegation
  refine (LineConfig.neat_drop hb).liesIn hmarks ?_ ?_
  · simp only [Report.mergeAll_cons, Report.mergeAll_nil, Report.merge_empty, List.append_assoc]
    exact (LineToken.colours_highlight src _ _).merge ((LineToken.colours_highlight? src _ _).merge
      ((LineToken.colours_highlight? src _ _).merge (LineToken.colours_highlight? src _ _)))
  · exact Report.diagnostics_mergeAll (by simp)

end PackLint
