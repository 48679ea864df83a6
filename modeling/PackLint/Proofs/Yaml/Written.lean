import PackLint.Proofs.Yaml.Piece

/-!
# What is written of a scalar

On a single line spaces stay as they are, so the text of a plain scalar is what is written, and the
text of a quoted scalar is what stands between the quotes, unless there is an escape, which makes
the text shorter.

Results:
* `Scan.passes_quoted`: what is written of a quoted scalar.
* `Scan.passes_plain`: what is written of a plain scalar.
-/

namespace PackLint.Yaml.Scan

variable {c : Cursor}

/-! ## Quoted scalars -/

/-- How a piece between quotes and what is read from it belong together: on a single line they are
the same, unless the piece has the character that starts an escape. An escape makes the text
shorter. -/
def Reading (escape : Char) (raw text : List Char) : Prop :=
  Broken raw ∨ (escape ∉ raw ∧ text = raw) ∨ (escape ∈ raw ∧ text.length < raw.length)

namespace Reading

variable {escape : Char} {raw raw' text text' : List Char}

theorem literally (h : escape ∉ raw) : Reading escape raw raw := .inr (.inl ⟨h, rfl⟩)

theorem nil : Reading escape [] [] := literally List.not_mem_nil

theorem length_le (h : Reading escape raw text) : Broken raw ∨ text.length ≤ raw.length := by
  rcases h with h | ⟨-, rfl⟩ | ⟨-, h⟩
  · exact .inl h
  · exact .inr (Nat.le_refl _)
  · exact .inr (Nat.le_of_lt h)

theorem append (h : Reading escape raw text) (h' : Reading escape raw' text') :
    Reading escape (raw ++ raw') (text ++ text') := by
  have hle := h.length_le
  have hle' := h'.length_le
  rcases h with h | ⟨hraw, rfl⟩ | ⟨hraw, h⟩
  · exact .inl (h.append_left _)
  · rcases h' with h' | ⟨hraw', rfl⟩ | ⟨hraw', h'⟩
    · exact .inl (h'.append_right _)
    · exact literally fun hmem => (List.mem_append.mp hmem).elim hraw hraw'
    · refine .inr (.inr ⟨List.mem_append_right _ hraw', ?_⟩)
      simp only [List.length_append]
      omega
  · rcases hle' with h' | h'
    · exact .inl (h'.append_right _)
    · refine .inr (.inr ⟨List.mem_append_left _ hraw, ?_⟩)
      simp only [List.length_append]
      omega

end Reading

/-- The character that starts an escape between quotes. -/
def escapeOf (double : Bool) : Char := if double then '\\' else '\''

theorem passes_escapeText : Passes c escapeText fun text raw _ =>
    Broken raw ∨ text.length ≤ raw.length := by
  unfold escapeText
  refine .peek ?_
  split
  · rename_i d hd
    refine (Passes.skip 1).bind fun _ raw _ _ hraw => .pure (.inr ?_)
    rw [List.append_nil, hraw, Cursor.take_one rfl fun heq => by rw [heq] at hd; cases hd]
    exact Nat.le_refl _
  · rename_i width _ hwidth
    refine (Passes.skip 1).bind fun _ raw c' _ hraw => ?_
    refine (forward_numericEscape width).passes.bind fun _ raw' _ _ _ => .pure (.inr ?_)
    rw [hraw, Cursor.take_one rfl fun heq => by rw [heq] at hwidth; cases hwidth]
    exact Nat.le_add_left _ _
  · refine passes_lineBreak?.bind fun r raw _ _ hr => ?_
    cases r with
    | none => exact .fail _
    | some _ =>
      refine .size ((forward_quotedBreaks _ _).passes.imp fun _ raw' _ _ _ => ?_)
      exact .inl (Broken.append_left hr raw')

/-- No character that a quoted scalar may hold as it is starts an escape, and no space does. -/
theorem escapeOf_notMem_takeWhile (double : Bool) {p : Char → Bool}
    (hp : p (escapeOf double) = false) (cs : List Char) : escapeOf double ∉ cs.takeWhile p := by
  intro hmem
  rw [List.all_eq_true.mp List.all_takeWhile _ hmem] at hp
  cases hp

/-- Spaces are read as they are. The text goes on behind them. -/
theorem passes_quotedSpaces (double : Bool) : Passes c quotedSpaces fun text raw c' =>
    Reading (escapeOf double) raw text ∧ (Broken raw ∨ c'.rest ≠ []) := by
  unfold quotedSpaces
  refine (Passes.span _).bind fun spaces raw c' _ hraw => .get ?_
  refine .guard fun hne => ?_
  refine passes_lineBreak?.bind fun r raw' c'' hspans hr => ?_
  cases r with
  | some _ =>
    refine .size ((forward_quotedBreaks _ _).passes.bind fun _ raw'' _ _ _ => .pure ?_)
    have hbroken : Broken (raw ++ (raw' ++ (raw'' ++ []))) :=
      (Broken.append_left hr _).append_right raw
    exact ⟨.inl hbroken, .inl hbroken⟩
  | none =>
    subst hr
    obtain ⟨rfl, hspaces⟩ := hraw
    have hrest : c'.rest = c''.rest := hspans.rest
    rw [hrest, List.isEmpty_iff] at hne
    refine .pure ⟨?_, .inr hne⟩
    rw [List.append_nil, List.append_nil, hspaces]
    exact .literally (escapeOf_notMem_takeWhile double (by cases double <;> decide) _)

theorem passes_quotedRun (double : Bool) (fuel : Nat) (acc : List Char) :
    Passes c (quotedRun double fuel acc) fun text raw _ =>
      ∃ more, text = acc ++ more ∧ Reading (escapeOf double) raw more := by
  induction fuel generalizing c acc with
  | zero => exact .pure ⟨[], (List.append_nil acc).symm, .nil⟩
  | succ fuel ih =>
    unfold quotedRun
    refine (Passes.span _).bind fun run raw c' _ hraw => ?_
    obtain ⟨rfl, hrun⟩ := hraw
    have hfirst : Reading (escapeOf double) raw raw :=
      .literally (hrun ▸ escapeOf_notMem_takeWhile double (by cases double <;> decide) _)
    -- What is read next is put behind the run.
    have hnext : ∀ {piece raw' : List Char} {c'' : Cursor},
        Reading (escapeOf double) raw' piece →
        Passes c'' (quotedRun double fuel (acc ++ raw ++ piece)) fun text raw'' _ =>
          ∃ more, text = acc ++ more ∧ Reading (escapeOf double) (raw ++ (raw' ++ raw'')) more := by
      intro piece raw' c'' hpiece
      refine (ih _).imp fun text raw'' _ _ h => ?_
      obtain ⟨more, rfl, hmore⟩ := h
      refine ⟨raw ++ (piece ++ more), by simp, hfirst.append (hpiece.append hmore)⟩
    refine .peek (.peekAt ?_)
    split
    · rename_i hc
      refine (Passes.skip 2).bind fun _ raw' _ _ hraw' => hnext ?_
      simp only [Bool.and_eq_true, Bool.not_eq_true', decide_eq_true_eq] at hc
      obtain ⟨⟨rfl, hc⟩, hd⟩ := hc
      rw [hraw', Cursor.take_two hc (by decide) hd (by decide)]
      exact .inr (.inr ⟨List.mem_cons_self, Nat.one_lt_two⟩)
    · split
      · rename_i hc
        refine (Passes.skip 1).bind fun _ raw' _ _ hraw' => hnext ?_
        have hne : c'.peek 0 ≠ endChar ∧ escapeOf double ≠ c'.peek 0 := by
          simp only [Bool.or_eq_true, Bool.and_eq_true, Bool.not_eq_true', decide_eq_true_eq] at hc
          rcases hc with ⟨rfl, hc⟩ | ⟨rfl, hc | hc⟩ <;> rw [hc] <;> decide
        rw [hraw', Cursor.take_one rfl hne.1]
        exact .literally fun hmem => hne.2 (List.mem_singleton.mp hmem)
      · split
        · rename_i hc
          refine (Passes.skip 1).bind fun _ raw' _ _ hraw' => ?_
          refine passes_escapeText.bind fun piece raw'' _ _ hpiece => ?_
          have hescape : Reading (escapeOf double) (raw' ++ raw'') piece := by
            simp only [Bool.and_eq_true, decide_eq_true_eq] at hc
            obtain ⟨rfl, hc⟩ := hc
            rw [hraw', Cursor.take_one hc (by decide)]
            rcases hpiece with hpiece | hpiece
            · exact .inl (hpiece.append_right _)
            · exact .inr (.inr ⟨List.mem_cons_self, Nat.lt_succ_of_le hpiece⟩)
          exact (hnext hescape).imp fun _ _ _ _ h => by rwa [List.append_assoc] at h
        · exact .pure ⟨raw, rfl, by simpa using hfirst⟩

/-- The text of a quoted scalar ends at its closing quote, and not at the end of all text. -/
theorem passes_quotedText (double : Bool) (fuel : Nat) (acc : List Char) :
    Passes c (quotedText double fuel acc) fun text raw c' =>
      (∃ more, text = acc ++ more ∧ Reading (escapeOf double) raw more) ∧
        (c.rest ≠ [] ∨ 0 < fuel → Broken raw ∨ c'.rest ≠ []) := by
  induction fuel generalizing c acc with
  | zero =>
    refine .pure ⟨⟨[], (List.append_nil acc).symm, .nil⟩, fun h => .inr ?_⟩
    exact h.resolve_right (Nat.lt_irrefl 0)
  | succ fuel ih =>
    unfold quotedText
    refine .size ((passes_quotedRun double _ _).bind fun run raw c' _ hrun => .peek ?_)
    obtain ⟨_, rfl, hrun⟩ := hrun
    have hclosing : (if double then '"' else '\'') ≠ endChar := by cases double <;> decide
    generalize (if double then '"' else '\'') = closing at hclosing ⊢
    split
    · rename_i hquote
      obtain ⟨rest, hrest⟩ := Cursor.rest_eq_cons hquote hclosing
      refine .pure ⟨⟨run, rfl, by simpa using hrun⟩, fun _ => .inr ?_⟩
      rw [hrest]
      exact List.cons_ne_nil _ _
    · refine (passes_quotedSpaces double).bind fun spaces raw' c'' _ hspaces => ?_
      refine (ih _).imp fun text raw'' _ _ h => ?_
      obtain ⟨⟨more, rfl, hmore⟩, hend⟩ := h
      refine ⟨⟨run ++ (spaces ++ more), by simp, hrun.append (hspaces.1.append hmore)⟩, fun _ => ?_⟩
      rcases hspaces.2 with h | h
      · exact .inl ((h.append_left _).append_right _)
      · exact (hend (.inl h)).imp_left fun h => (h.append_right _).append_right _

/-- What is written of a quoted scalar is what its text is read from, between two characters. -/
theorem passes_quoted (double : Bool) {quote : Char} (hquote : c.peek 0 = quote)
    (hne : quote ≠ endChar) : Passes c (quoted double) fun t raw c' =>
      t.start = c.mark ∧ t.stop = c'.mark ∧ ∃ text,
        t.kind = .scalar text (if double then .doubleQuoted else .singleQuoted) ∧
          (Broken raw ∨ ∃ inner last, raw = quote :: (inner ++ [last]) ∧
            Reading (escapeOf double) inner text) := by
  unfold quoted
  refine .mark ((Passes.skip 1).bind fun _ raw _ _ hraw => .size ?_)
  obtain rfl : raw = [quote] := hraw.trans (Cursor.take_one hquote hne)
  refine (passes_quotedText double _ _).bind fun text inner c' _ htext => ?_
  obtain ⟨⟨_, rfl, hreading⟩, hend⟩ := htext
  refine (Passes.skip 1).bind fun _ raw' c'' _ hraw' => .mark (.pure ⟨rfl, rfl, text, rfl, ?_⟩)
  rcases hend (.inr (Nat.succ_pos _)) with hbroken | hrest
  · exact .inl ((hbroken.append_left _).append_right _)
  · obtain ⟨last, rest, hrest⟩ := List.exists_cons_of_ne_nil hrest
    rw [hrest] at hraw'
    refine .inr ⟨inner, last, ?_, hreading⟩
    rw [hraw', List.append_nil]
    rfl

/-! ## Plain scalars -/

/-- The spaces behind a piece of a plain scalar, as they are on a single line. -/
theorem passes_plainSpaces : Passes c plainSpaces fun r raw _ => Broken raw ∨ r.1 = raw := by
  unfold plainSpaces
  refine (Passes.span _).bind fun spaces raw _ _ hraw => ?_
  refine passes_lineBreak?.bind fun r raw' c' _ hr => ?_
  cases r with
  | none =>
    subst hr
    refine .pure (.inr ?_)
    rw [List.append_nil, List.append_nil, hraw.1]
  | some _ =>
    have hbroken : ∀ more, Broken (raw ++ (raw' ++ more)) := fun more =>
      (Broken.append_left hr more).append_right raw
    refine forward_atDocumentBoundary.passes.bind fun _ _ _ _ _ => ?_
    split
    · exact .pure (.inl (hbroken _))
    · refine .size ((forward_plainBreaks _ _).passes.bind fun breaks _ _ _ _ => ?_)
      split <;> exact .pure (.inl (hbroken _))

/-- What a plain scalar is read from: a piece of the text behind a cursor. -/
def PlainScalar.From (c : Cursor) (scalar : PlainScalar) : Prop :=
  ∃ raw, raw <+: c.rest ∧ scalar.stop.index = c.mark.index + raw.length ∧
    (Broken raw ∨ scalar.text = raw)

theorem PlainScalar.From.of_spans {first : Cursor} {scalar : PlainScalar} {raw gap : List Char}
    (hspans : first.Spans (raw ++ gap) c)
    (hstop : scalar.stop.index = first.mark.index + raw.length)
    (htext : Broken raw ∨ scalar.text = raw) : scalar.From first := by
  refine ⟨raw, ?_, hstop, htext⟩
  rw [hspans.rest, List.append_assoc]
  exact List.prefix_append _ _

/-- Behind the pieces that have been read stands a gap. -/
theorem passes_plainPieces (version : Version) (inFlow : Bool) (indent fuel : Nat)
    {first : Cursor} {spaces : List Char} {acc : PlainScalar} {raw gap : List Char}
    (hspans : first.Spans (raw ++ gap) c)
    (hstop : acc.stop.index = first.mark.index + raw.length)
    (htext : Broken raw ∨ acc.text = raw) (hspaces : Broken gap ∨ spaces = gap) :
    Passes c (plainPieces version inFlow indent fuel spaces acc) fun scalar _ _ =>
      scalar.From first := by
  induction fuel generalizing c spaces acc raw gap with
  | zero => exact .pure (.of_spans hspans hstop htext)
  | succ fuel ih =>
    have hdone : Passes c (pure acc) fun scalar _ _ => scalar.From first :=
      .pure (.of_spans hspans hstop htext)
    unfold plainPieces
    refine .peek ?_
    split
    · exact hdone
    · refine .get ?_
      simp only
      split
      · exact hdone
      · refine (Passes.take _).bind fun piece raw' c' hspans' hpiece => .mark ?_
        obtain ⟨rfl, -⟩ := hpiece
        refine passes_plainSpaces.bind fun r gap' c'' hspans'' hr => .mark (.peek ?_)
        have hall := hspans.append hspans'
        have htext : Broken (raw ++ gap ++ raw') ∨
            acc.text ++ spaces ++ raw' = raw ++ gap ++ raw' := by
          rcases htext with h | h
          · exact .inl ((h.append_left _).append_left _)
          · rcases hspaces with h' | h'
            · exact .inl ((h'.append_right _).append_left _)
            · exact .inr (by rw [h, h'])
        split
        · exact .pure (.of_spans (hall.append (.refl _)) hall.index htext)
        · exact ih (hall.append hspans'') hall.index htext hr

/-- What is written of a plain scalar is its text. -/
theorem passes_plain (version : Version) (inFlow : Bool) (indent : Nat) :
    Passes c (plain version inFlow indent) fun r _ _ => r.1.start = c.mark ∧ ∃ raw, raw <+: c.rest ∧
      r.1.stop.index = c.mark.index + raw.length ∧ ∃ text, r.1.kind = .scalar text .plain ∧
        (Broken raw ∨ text = raw) := by
  unfold plain
  refine .mark (.size ?_)
  have hfirst : c.Spans ([] ++ []) c := .refl c
  refine (passes_plainPieces version inFlow indent _ hfirst rfl (.inr rfl) (.inr rfl)).bind
    fun scalar _ _ _ hscalar => .pure ?_
  obtain ⟨raw, hraw, hstop, htext⟩ := hscalar
  exact ⟨rfl, raw, hraw, hstop, scalar.text, rfl, htext⟩

end PackLint.Yaml.Scan
