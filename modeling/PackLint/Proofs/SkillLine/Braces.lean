import PackLint.Proofs.SkillLine.Block
import PackLint.Proofs.SkillLine.Roles
import PackLint.Proofs.SkillLine.Units

/-!
# Mismatched braces

The braces of a skill line are counted run by run, in the escaped text (`_parse_block`). In a closed
block the braces outside of quotes are balanced and those in quotes are hidden, so only braces that
are units of their own can be out of balance. A line with nested braces has no such units unless a
quotation hides a brace from the search for the end of a block (`_block_end`); where an apostrophe
does so, the block falls apart at its spaces and its braces are reported although they match.

Results:
* `LineConfig.mismatches_parse`: a configuration reports its braces once if they are not balanced.
* `Mechanic.mismatches_eq`: the configured runs of a line with unbalanced braces are reported.
* `SkillLine.countP_unbalanced_of_nested`: none of a line with nested braces and no quotes is.
-/

namespace PackLint

open SkillLine

/-- How often mismatched braces are reported. -/
def Report.mismatches (r : Report) : Nat := r.diagnostics.countP (·.code = .mismatchedBraces)

namespace Report

theorem mismatches_merge (r s : Report) :
    (r.merge s).mismatches = r.mismatches + s.mismatches :=
  List.countP_append

theorem mismatches_eq_zero {r : Report} (h : ∀ d ∈ r.diagnostics, d.code ≠ .mismatchedBraces) :
    r.mismatches = 0 :=
  List.countP_eq_zero.mpr fun d hd hcode => h d hd (of_decide_eq_true hcode)

theorem mismatches_ofDiagnostic (d : Diagnostic) :
    (ofDiagnostic d).mismatches = if d.code = .mismatchedBraces then 1 else 0 := by
  simp only [mismatches, ofDiagnostic, List.countP_singleton, decide_eq_true_eq]

end Report

/-! ## Configurations -/

namespace LineConfig

variable {src : Source}

/-- The problems of the pieces of a body say nothing of braces. -/
theorem mismatches_foldl_addPiece (c : LineConfig) (ps : List Piece) :
    (ps.foldl (addPiece src) c).report.mismatches = c.report.mismatches := by
  have hproblems : (Report.ofDiagnostics
      (Reading.problems src c.keys (ps.map c.reading))).mismatches = 0 := by
    refine Report.mismatches_eq_zero fun d hd => ?_
    obtain ⟨-, -, -, -, -, h | h⟩ := Reading.of_mem_problems hd
    · rw [h]
      decide
    · rw [h]
      decide
  rw [foldl_addPiece, taking, Report.mismatches_merge, hproblems, Nat.add_zero]

theorem mismatches_problem (c : LineConfig) (start stop : Nat) (message : String)
    (code : DiagnosticCode) :
    (c.problem src start stop message code).report.mismatches =
      c.report.mismatches + if code = .mismatchedBraces then 1 else 0 := by
  rw [problem, Report.mismatches_merge, Report.mismatches_ofDiagnostic]

/-- **A configuration reports its braces once if they are not balanced.** -/
theorem mismatches_parse (text : List Char) (offset : Int) :
    (parse src text offset).report.mismatches =
      if text.count '{' = text.count '}' then 0 else 1 := by
  unfold parse read
  simp only
  split
  · unfold readBlock
    simp only
    generalize hc : (if text.count '{' = text.count '}' then _ else _ : LineConfig) = c
    have hmismatches : c.report.mismatches =
        if text.count '{' = text.count '}' then 0 else 1 := by
      rw [← hc]
      split
      · rfl
      · rw [mismatches_problem, if_pos rfl]
        rfl
    split
    · exact hmismatches
    · rw [mismatches_foldl_addPiece]
      exact hmismatches
  · rename_i hbrace
    have hnone : ∀ x ∈ ['{', '}'], text.count x = 0 := by
      intro x hx
      rw [List.count_eq_zero]
      intro hmem
      refine hbrace ?_
      rw [Bool.or_eq_true, List.contains_iff_mem, List.contains_iff_mem]
      rcases List.mem_cons.mp hx with rfl | hx
      · exact .inl hmem
      · exact .inr (List.mem_singleton.mp hx ▸ hmem)
    rw [hnone '{' (by decide), hnone '}' (by decide), if_pos rfl]
    split
    · unfold readBracket
      simp only
      split
      · split
        · rfl
        · rw [mismatches_problem, if_neg (by decide)]
          rfl
      · rw [mismatches_problem, if_neg (by decide)]
        rfl
    · rfl

end LineConfig

/-! ## Parts -/

/-- The text has as many opening braces as closing ones. -/
abbrev Balanced (text : List Char) : Prop := text.count '{' = text.count '}'

/-- Characters other than braces count for nothing. -/
theorem balanced_drop_iff {text : List Char} {i : Nat} {x : Char} (h : text[i]? = some x)
    (hx : x ≠ '{' ∧ x ≠ '}') : Balanced (text.drop (i + 1)) ↔ Balanced (text.drop i) := by
  obtain ⟨hi, rfl⟩ := List.getElem?_eq_some_iff.mp h
  rw [List.drop_eq_getElem_cons hi, Balanced, Balanced, List.count_cons_of_ne hx.1,
    List.count_cons_of_ne hx.2]

theorem Condition.balanced_markAt? (text : List Char) (offset : Int) (i : Nat) {x : Char}
    (hx : x ≠ '{' ∧ x ≠ '}') :
    Balanced (text.drop (if (markAt? text offset i x).isSome then i + 1 else i)) ↔
      Balanced (text.drop i) := by
  unfold markAt?
  split
  · rename_i h
    exact balanced_drop_iff h hx
  · exact Iff.rfl

theorem Targeter.mismatches_read (src : Source) {text : List Char} (offset : Int)
    (hhead : text.head? = some '@') :
    ((Targeter.parse src text offset).withHighlights src).report.mismatches =
      if Balanced text then 0 else 1 := by
  have hfirst : text[0]? = some '@' := by rwa [← List.head?_eq_getElem?]
  have hbalanced := balanced_drop_iff hfirst (by decide)
  rw [Nat.zero_add, List.drop_zero] at hbalanced
  have hparse : ((Targeter.parse src text offset).config.report).mismatches =
      if Balanced (text.drop 1) then 0 else 1 := LineConfig.mismatches_parse _ _
  rw [Report.mismatches, Targeter.diagnostics_read, ← Report.mismatches, hparse]
  exact if_congr hbalanced rfl rfl

theorem Condition.mismatches_read (src : Source) {text : List Char} (offset : Int)
    (hhead : text.head? = some '?') :
    ((Condition.parse src text offset).withHighlights src).report.mismatches =
      if Balanced text then 0 else 1 := by
  have hfirst : text[0]? = some '?' := by rwa [← List.head?_eq_getElem?]
  have hquestion := balanced_drop_iff hfirst (by decide)
  have htilde := balanced_markAt? text offset 1 (x := '~') (by decide)
  have hparse : ((Condition.parse src text offset).config.report).mismatches =
      if Balanced (text.drop _) then 0 else 1 := LineConfig.mismatches_parse _ _
  rw [Report.mismatches, Condition.diagnostics_read, ← Report.mismatches, hparse]
  refine if_congr ?_ rfl rfl
  refine (balanced_markAt? text offset _ (x := '!') (by decide)).trans (htilde.trans ?_)
  exact hquestion

namespace Mechanic

variable {src : Source} {m : Mechanic}

/-- What is reported about the roles of parts says nothing of braces. -/
theorem mismatches_of_roleCodes {ds : List Diagnostic} (h : ∀ d ∈ ds, d.code ∈ roleCodes) :
    (Report.ofDiagnostics ds).mismatches = 0 := by
  have hapart : .mismatchedBraces ∉ roleCodes := by decide
  refine Report.mismatches_eq_zero fun d hd hcode => hapart ?_
  rw [← hcode]
  exact h d hd

/-- A part that is read as a configuration reports its braces. -/
theorem mismatches_addPart (text : List Char) (start stop : Int) (supportsTriggers : Bool) :
    (m.addPart src text start stop supportsTriggers).report.mismatches = m.report.mismatches +
      if (text.head? = some '@' ∨ text.head? = some '?') ∧ ¬ Balanced text then 1 else 0 := by
  have hcode : ∀ code ∈ roleCodes, ∀ {range : Range} {message : String} {severity : Severity},
      ({ range, message, code, severity } : Diagnostic).code ∈ roleCodes :=
    fun _ hcode _ _ _ => hcode
  unfold addPart
  split
  · rename_i hhead
    rw [addTargeter_eq]
    simp only [Report.mismatches_merge, Targeter.mismatches_read src start hhead, hhead]
    rw [mismatches_of_roleCodes]
    · by_cases hbalanced : Balanced text <;> simp [hbalanced]
    · split
      · exact List.forall_mem_singleton.mpr (hcode .tooManyTargeters (by decide))
      · exact List.forall_mem_nil _
  · rename_i hhead
    have hnone : ((Trigger.parse text start).withHighlights src).report.mismatches = 0 := by
      rw [Report.mismatches, Trigger.diagnostics_read, List.countP_nil]
    rw [addTrigger_eq]
    simp only [Report.mismatches_merge, hnone, hhead]
    rw [mismatches_of_roleCodes]
    · simp
    · refine List.forall_mem_append.mpr ⟨?_, ?_⟩
      · split
        · exact List.forall_mem_nil _
        · exact List.forall_mem_singleton.mpr (hcode .triggersNotAllowed (by decide))
      · split
        · exact List.forall_mem_singleton.mpr (hcode .tooManyTriggers (by decide))
        · exact List.forall_mem_nil _
  · rename_i hhead
    rw [addCondition, adding]
    simp only [Report.mismatches_merge, Condition.mismatches_read src start hhead, hhead]
    by_cases hbalanced : Balanced text <;> simp [hbalanced]
  · rename_i htargeter _ hcondition
    have hhead : ¬ ((text.head? = some '@' ∨ text.head? = some '?') ∧ ¬ Balanced text) := by
      rintro ⟨h | h, -⟩
      · exact htargeter h
      · exact hcondition h
    rw [if_neg hhead, Nat.add_zero]
    simp only
    split
    · have hhighlight : ∀ t : LineToken, (t.highlight src .number).mismatches = 0 := fun t => by
        rw [Report.mismatches, LineToken.diagnostics_highlight, List.countP_nil]
      rw [addNumber_eq]
      simp only [Report.mismatches_merge, hhighlight]
      rw [mismatches_of_roleCodes]
      · rfl
      · split
        · exact List.forall_mem_singleton.mpr (hcode .tooManyChances (by decide))
        · split
          · exact List.forall_mem_nil _
          · split
            · exact List.forall_mem_nil _
            · exact List.forall_mem_singleton.mpr (hcode .invalidChance (by decide))
    · rw [Mechanic.problem, Report.mismatches_merge, Report.mismatches_ofDiagnostic, if_neg,
        Nat.add_zero]
      rintro ⟨⟩

theorem mismatches_addParts (escaped : List Char) (offset : Int) (supportsTriggers : Bool)
    (ps : List Part) :
    (ps.foldl (fun m p => m.addPart src p.text (sourceOffset escaped offset p.start)
      (sourceOffset escaped offset (p.start + p.text.length))
        supportsTriggers) m).report.mismatches =
      m.report.mismatches + (ps.map (·.text)).countP fun text =>
        (text.head? = some '@' ∨ text.head? = some '?') ∧ ¬ Balanced text := by
  induction ps generalizing m with
  | nil => rfl
  | cons p ps ih =>
    rw [List.foldl_cons, ih, mismatches_addPart, List.map_cons, List.countP_cons, Nat.add_assoc,
      Nat.add_comm (ite _ _ _)]
    simp only [decide_eq_true_eq]

end Mechanic

/-! ## Runs -/

namespace SkillLine

/-- The braces of a closed block are balanced once it is hidden. -/
theorem IsBlock.balanced {block : List Char} (h : IsBlock block) :
    Balanced (hideFrom none block) := by
  obtain ⟨hopen, hclosed⟩ := h
  cases block with
  | nil => cases hopen
  | cons c cs =>
    cases hopen
    have hinner : blockLengthFrom 1 none cs = some cs.length := by
      obtain ⟨n, hn, hlength⟩ := Option.map_eq_some_iff.mp hclosed
      exact hn.trans (congrArg some (Nat.succ.inj hlength))
    obtain ⟨hcount, -⟩ := balanced_of_blockLengthFrom (Nat.le_refl 1) none_quotes hinner
    have hhidden : hideFrom none ('{' :: cs) = '{' :: hideFrom none cs := by
      rw [hideFrom, hide_mark (by decide)]
      rfl
    rw [Balanced, hhidden, List.count_cons_self, List.count_cons_of_ne (by decide)]
    exact hcount

/-- A run whose single braces are not balanced. -/
def Unbalanced (run : List (List Char)) : Prop := run.count ['{'] ≠ run.count ['}']

instance (run : List (List Char)) : Decidable (Unbalanced run) :=
  inferInstanceAs (Decidable (_ ≠ _))

/-- The runs that are read as configurations: the first one, and the targeters and conditions. -/
def configured : List (List (List Char)) → List (List (List Char))
  | [] => []
  | first :: others =>
    first :: others.filter fun run => run.head? = some ['@'] ∨ run.head? = some ['?']

/-- A run is shown with balanced braces if its single braces are balanced. -/
theorem balanced_flatMap_iff {run : List (List Char)}
    (hrun : ∀ u ∈ run, (∃ c, u = [c]) ∨ IsBlock u) :
    Balanced (run.flatMap shownUnit) ↔ ¬ Unbalanced run := by
  have hcount : (run.flatMap shownUnit).count '{' + run.count ['}'] =
      (run.flatMap shownUnit).count '}' + run.count ['{'] := by
    induction run with
    | nil => rfl
    | cons u run ih =>
      obtain ⟨hu, hrun⟩ := List.forall_mem_cons.mp hrun
      have hrest := ih hrun
      rw [List.flatMap_cons, List.count_append, List.count_append, List.count_cons,
        List.count_cons]
      rcases hu with ⟨c, rfl⟩ | hblock
      · rw [shownUnit_char, List.count_singleton, List.count_singleton]
        simp only [beq_iff_eq, List.cons.injEq, and_true]
        omega
      · have hbalanced := hblock.balanced
        have hlength := hblock.two_le_length
        have hne : ∀ c, ¬ (u == [c]) = true := by
          intro c hu
          rw [beq_iff_eq.mp hu] at hlength
          exact absurd hlength (by simp)
        rw [shownUnit_block hblock, if_neg (hne _), if_neg (hne _)]
        rw [Balanced] at hbalanced
        omega
  unfold Unbalanced Balanced
  omega

/-- What a run is shown with in front tells its first unit. -/
theorem head?_flatMap_iff {run : List (List Char)}
    (hrun : ∀ u ∈ run, (∃ c, u = [c]) ∨ IsBlock u) {x : Char} (hx : x ≠ '{') :
    (run.flatMap shownUnit).head? = some x ↔ run.head? = some [x] := by
  cases run with
  | nil => simp
  | cons u run =>
    rcases (List.forall_mem_cons.mp hrun).1 with ⟨c, rfl⟩ | hblock
    · simp [shownUnit_char]
    · have hlength := hblock.two_le_length
      have hhead : ((u :: run).flatMap shownUnit).head? = some '{' := by
        rw [List.flatMap_cons, List.head?_append, head?_shownUnit_block hblock]
        rfl
      rw [hhead, List.head?_cons, Option.some_inj, Option.some_inj]
      constructor
      · intro h
        exact absurd h.symm hx
      · rintro rfl
        exact absurd hlength (by simp)

end SkillLine

/-! ## Nested braces -/

namespace SkillLine

/-- Whether the braces of a text, in front of which `depth` are open, are properly nested. -/
def nested (depth : Nat) : List Char → Bool
  | [] => depth = 0
  | c :: cs =>
    if c = '{' then nested (depth + 1) cs
    else if c = '}' then 0 < depth && nested (depth - 1) cs
    else nested depth cs

/-- Where there are no quotes, nested braces are closed, and the text behind them is nested. -/
theorem exists_blockLengthFrom {depth : Nat} {cs : List Char} (hdepth : 0 < depth)
    (hnested : nested depth cs) (hquotes : ∀ c ∈ cs, isQuote c = false) :
    ∃ n, blockLengthFrom depth none cs = some n ∧ nested 0 (cs.drop n) := by
  induction cs generalizing depth with
  | nil =>
    rw [nested, decide_eq_true_eq] at hnested
    omega
  | cons c cs ih =>
    obtain ⟨hc, hcs⟩ := List.forall_mem_cons.mp hquotes
    have hquote : quoteAfter none c = none := if_neg (by rw [hc]; exact Bool.false_ne_true)
    have hbehind : ∀ {depth' : Nat}, 0 < depth' → nested depth' cs →
        ∃ n, (blockLengthFrom depth' none cs).map (· + 1) = some n ∧
          nested 0 ((c :: cs).drop n) := by
      intro depth' hdepth' hnested'
      obtain ⟨n, hn, hrest⟩ := ih hdepth' hnested' hcs
      exact ⟨n + 1, by rw [hn, Option.map_some], hrest⟩
    rw [nested] at hnested
    unfold blockLengthFrom
    simp only [hquote, Option.isNone_none, Bool.true_and, decide_eq_true_eq]
    split at hnested
    · rename_i hopen
      rw [if_pos hopen]
      exact hbehind (Nat.succ_pos depth) hnested
    · rename_i hopen
      rw [if_neg hopen]
      split at hnested
      · rename_i hclose
        obtain ⟨-, hnested⟩ := Bool.and_eq_true_iff.mp hnested
        rw [if_pos hclose]
        split
        · have hone : depth - 1 = 0 := by omega
          rw [hone] at hnested
          exact ⟨1, rfl, hnested⟩
        · exact hbehind (by omega) hnested
      · rename_i hclose
        rw [if_neg hclose]
        exact hbehind hdepth hnested

theorem exists_blockLength? {cs : List Char} (hopen : cs.head? = some '{') (hnested : nested 0 cs)
    (hquotes : ∀ c ∈ cs, isQuote c = false) :
    ∃ n, blockLength? cs = some n ∧ nested 0 (cs.drop n) := by
  cases cs with
  | nil => cases hopen
  | cons c cs =>
    cases hopen
    obtain ⟨n, hn, hrest⟩ := exists_blockLengthFrom Nat.one_pos hnested
      (List.forall_mem_cons.mp hquotes).2
    refine ⟨n + 1, ?_, hrest⟩
    change (blockLengthFrom 1 none cs).map (· + 1) = _
    rw [hn, Option.map_some]

/-- Where there are no quotes, every nested brace belongs to a closed block. -/
theorem no_brace_of_nested {line : List Char} (hnested : nested 0 line)
    (hquotes : ∀ c ∈ line, isQuote c = false) : ∀ u ∈ units line, u ≠ ['{'] ∧ u ≠ ['}'] := by
  induction line using units_induction with
  | nil => exact List.forall_mem_nil _
  | char c cs hc ih =>
    obtain ⟨-, hcs⟩ := List.forall_mem_cons.mp hquotes
    rw [nested, if_neg hc] at hnested
    rw [units_char hc]
    by_cases hclose : c = '}'
    · rw [if_pos hclose] at hnested
      cases hnested
    · rw [if_neg hclose] at hnested
      refine List.forall_mem_cons.mpr ⟨⟨?_, ?_⟩, ih hnested hcs⟩
      · simpa using hc
      · simpa using hclose
  | block block rest hblock ih =>
    have hlength := hblock.two_le_length
    have hhead : (block ++ rest).head? = some '{' := by
      rw [List.head?_append, hblock.opens]
      rfl
    obtain ⟨n, hn, hbehind⟩ := exists_blockLength? hhead hnested hquotes
    have hwhole : blockLength? (block ++ rest) = some block.length :=
      blockLengthFrom_append hblock.closes rest
    rw [hwhole] at hn
    cases hn
    rw [List.drop_left] at hbehind
    rw [units_block hblock]
    refine List.forall_mem_cons.mpr ⟨⟨?_, ?_⟩, ih hbehind (List.forall_mem_append.mp hquotes).2⟩
    · rintro rfl
      exact absurd hlength (by decide)
    · rintro rfl
      exact absurd hlength (by decide)
  | unclosed cs hnone =>
    obtain ⟨n, hn, -⟩ := exists_blockLength? rfl hnested hquotes
    rw [hn] at hnone
    cases hnone

/-- **No run of a line with nested braces and without quotes is unbalanced.** -/
theorem countP_unbalanced_of_nested {line : List Char} (hnested : nested 0 line)
    (hquotes : ∀ c ∈ line, isQuote c = false) : (configured (runs line)).countP Unbalanced = 0 := by
  have hbalanced : ∀ run ∈ runs line, ¬ Unbalanced run := by
    intro run hrun hunbalanced
    have hnone : ∀ u ∈ run, u ≠ ['{'] ∧ u ≠ ['}'] := fun u hu =>
      no_brace_of_nested hnested hquotes u (mem_units_of_mem_runs hrun hu)
    refine hunbalanced ?_
    rw [List.count_eq_zero.mpr fun h => (hnone _ h).1 rfl,
      List.count_eq_zero.mpr fun h => (hnone _ h).2 rfl]
  rw [List.countP_eq_zero]
  intro run hrun hunbalanced
  refine hbalanced run ?_ (of_decide_eq_true hunbalanced)
  generalize runs line = rs at hrun
  cases rs with
  | nil => exact hrun
  | cons first others =>
    rcases List.mem_cons.mp hrun with rfl | hrun
    · exact List.mem_cons_self
    · exact List.mem_cons_of_mem first (List.mem_filter.mp hrun).1

end SkillLine

namespace Mechanic

/-- **Mismatched braces are reported once for each run that is read as a configuration and in which
the single braces are not balanced**, and for nothing else. -/
theorem mismatches_eq (src : Source) (line : List Char) (offset : Int) (supportsTriggers : Bool) :
    (parse src line offset supportsTriggers).report.diagnostics.countP
        (·.code = .mismatchedBraces) =
      (configured (runs line)).countP Unbalanced := by
  have hunits : ∀ run ∈ runs line, ∀ u ∈ run, (∃ c, u = [c]) ∨ IsBlock u :=
    fun run hrun u hu => of_mem_units (mem_units_of_mem_runs hrun hu)
  have htexts := texts_parts line
  change (parse src line offset supportsTriggers).report.mismatches = _
  unfold parse
  simp only
  generalize hparts : parts (escape line) = ps at htexts
  generalize runs line = rs at htexts hunits
  cases ps with
  | nil =>
    rw [List.map_nil, eq_comm, List.map_eq_nil_iff] at htexts
    rw [htexts]
    rfl
  | cons first others =>
    cases rs with
    | nil => cases htexts
    | cons run rs =>
      obtain ⟨hfirst, hothers⟩ := List.cons_eq_cons.mp htexts
      change first.text = run.flatMap shownUnit at hfirst
      obtain ⟨hrun, hrs⟩ := List.forall_mem_cons.mp hunits
      have hofFirst : (ofFirst src first.text (sourceOffset (escape line) offset
          first.start)).report.mismatches = if Balanced first.text then 0 else 1 := by
        rw [Report.mismatches, ofFirst, LineConfig.diagnostics_withHighlights _
          (LineToken.diagnostics_highlight? src .function _), ← Report.mismatches]
        exact LineConfig.mismatches_parse _ _
      rw [mismatches_addParts, hofFirst, hothers, configured, List.countP_cons, List.countP_filter,
        List.countP_map, hfirst, Nat.add_comm]
      congr 1
      · refine List.countP_congr fun run hmem => ?_
        have hat := head?_flatMap_iff (hrs run hmem) (x := '@') (by decide)
        have hquestion := head?_flatMap_iff (hrs run hmem) (x := '?') (by decide)
        simp only [Function.comp_apply, decide_eq_true_eq, Bool.and_eq_true,
          balanced_flatMap_iff (hrs run hmem), hat, hquestion, not_not]
        exact and_comm
      · simp only [balanced_flatMap_iff hrun, decide_eq_true_eq]
        by_cases hbalanced : Unbalanced run <;> simp [hbalanced]

/-- Braces that match are reported where an apostrophe opens a quotation that nothing closes. -/
theorem mismatched_apostrophe :
    ¬ ∀ (src : Source) (line : List Char) (offset : Int) (supportsTriggers : Bool),
      nested 0 line →
        ∀ d ∈ (parse src line offset supportsTriggers).report.diagnostics,
          d.code ≠ .mismatchedBraces := by
  intro h
  have hline := h (.ofList ['m', '{', 'a', '=', '\'', ' ', 'b', '}'])
    ['m', '{', 'a', '=', '\'', ' ', 'b', '}'] 0 true (by decide)
  revert hline
  decide

end Mechanic

end PackLint
