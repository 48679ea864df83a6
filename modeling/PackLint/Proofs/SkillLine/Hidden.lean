import PackLint.Proofs.SkillLine.Direct
import PackLint.Proofs.SkillLine.Offset
import PackLint.Proofs.SkillLine.Span

/-!
# Stretches of an escaped block

Inside a closed block every character is hidden by itself, as the quotation that is open in front of
it has it. The characters that a block is cut at stay as they are just where no quotation is open,
and are in no sentinel; so cutting the escaped text finds the same places as cutting the line
outside of quotes. A stretch that begins and ends outside of quotes is also trimmed alike, since a
blank at its ends is either hidden as a block space or stays.

Results:
* `SkillLine.mem_hide_mark`: a mark in the escaped text is a mark of the line outside of quotes.
* `SkillLine.trimSpan_hideFrom`: an escaped stretch is trimmed as the stretch of the line is.
* `SkillLine.findIdx?_hideFrom`: the first equals sign is found at the same place.
-/

namespace PackLint.SkillLine

/-! ## Hiding a text -/

/-- What the characters of a block are escaped to; `quote` is open in front of them. -/
def hideFrom (quote : Option Char) : List Char → List Char
  | [] => []
  | c :: cs => hide quote c ++ hideFrom (quoteAfter quote c) cs

theorem hideFrom_append (quote : Option Char) (cs ds : List Char) :
    hideFrom quote (cs ++ ds) = hideFrom quote cs ++ hideFrom (quoteOver quote cs) ds := by
  induction cs generalizing quote with
  | nil => rfl
  | cons c cs ih =>
    rw [List.cons_append, hideFrom, hideFrom, ih, List.append_assoc]
    rfl

theorem hideFrom_singleton (quote : Option Char) (c : Char) :
    hideFrom quote [c] = hide quote c := by
  rw [hideFrom, hideFrom, List.append_nil]

theorem flatten_piecesFrom_inside (quote : Option Char) (cs : List Char) :
    (piecesFrom (.inside cs.length quote) cs).flatten = hideFrom quote cs := by
  induction cs generalizing quote with
  | nil => rfl
  | cons c cs ih =>
    rw [List.length_cons, piecesFrom, Place.settle, List.flatten_cons, ih, hideFrom]

/-! ## Escaped texts -/

/-- The text is what the characters of the line are escaped to. -/
def EscapesTo (line escaped : List Char) : Prop :=
  ∃ ps, List.Forall₂ HidesAs line ps ∧ escaped = ps.flatten

namespace EscapesTo

variable {line line' escaped escaped' : List Char}

theorem self (line : List Char) : EscapesTo line line := by
  refine ⟨line.map ([·]), ?_, ?_⟩
  · induction line with
    | nil => exact .nil
    | cons c line ih => exact .cons (.inl rfl) ih
  · simpa using (flatten_singletons_append line []).symm

theorem append (h : EscapesTo line escaped) (h' : EscapesTo line' escaped') :
    EscapesTo (line ++ line') (escaped ++ escaped') := by
  obtain ⟨ps, hps, rfl⟩ := h
  obtain ⟨ps', hps', rfl⟩ := h'
  exact ⟨ps ++ ps', List.rel_append hps hps', List.flatten_append.symm⟩

theorem hideFrom (quote : Option Char) (cs : List Char) :
    EscapesTo cs (SkillLine.hideFrom quote cs) := by
  induction cs generalizing quote with
  | nil => exact ⟨[], .nil, rfl⟩
  | cons c cs ih =>
    obtain ⟨ps, hps, heq⟩ := ih (quoteAfter quote c)
    refine ⟨hide quote c :: ps, .cons (hidesAs_hide quote c) hps, ?_⟩
    rw [SkillLine.hideFrom, heq, List.flatten_cons]

theorem unescape_eq (h : EscapesTo line escaped) (hplain : Plain line) :
    unescape escaped = line := by
  obtain ⟨ps, hps, rfl⟩ := h
  rw [(aligned_of_hidesAs hps).unescape_flatten, unescape_of_plain hplain]

end EscapesTo

theorem Plain.of_infix {line part : List Char} (h : Plain line) (hpart : part <:+: line) :
    Plain part :=
  fun e he hin => h e he (hin.trans hpart)

theorem Plain.not_speltAt {line : List Char} (h : Plain line) (i : Nat) : ¬ SpeltAt line i := by
  intro hspelt
  obtain ⟨e, he⟩ := Option.isSome_iff_exists.mp hspelt
  obtain ⟨hmem, hpre⟩ := sentinel?_eq_some.mp he
  exact h e hmem (hpre.isInfix.trans (List.drop_suffix i line).isInfix)

/-- The characters of the line in front of a place are counted. -/
theorem EscapesTo.sourceCount_eq {front rest hiddenFront hiddenRest : List Char}
    (hfront : EscapesTo front hiddenFront) (hrest : EscapesTo rest hiddenRest)
    (hplain : Plain (front ++ rest)) :
    sourceCount (hiddenFront ++ hiddenRest) hiddenFront.length = front.length := by
  obtain ⟨ps, hps, rfl⟩ := hfront
  obtain ⟨qs, hqs, rfl⟩ := hrest
  have hle : front.length ≤ (front ++ rest).length := by
    rw [List.length_append]
    omega
  have haligned := (aligned_of_hidesAs (List.rel_append hps hqs)).sourceCount_flatten hle
  rw [hps.length_eq, List.take_left, List.flatten_append] at haligned
  rw [haligned, ← hps.length_eq, sourceCount_eq_self_iff hle]
  intro i hi
  exact absurd hi (hplain.not_speltAt i)

/-! ## Marks -/

/-- The characters that a block is cut at. -/
def marks : List Char := ['{', '}', '[', ']', ';', '=']

/-- What can be decided of each mark holds of all of them. -/
theorem forall_marks {P : Char → Prop}
    (h : P '{' ∧ P '}' ∧ P '[' ∧ P ']' ∧ P ';' ∧ P '=') : ∀ x ∈ marks, P x := by
  simpa [marks] using h

/-- Outside of quotes a mark stays. -/
theorem hide_mark {x : Char} (hx : x ∈ marks) : hide none x = [x] := by
  have hall : ∀ x ∈ marks, hide none x = [x] := forall_marks (by decide)
  exact hall x hx

/-- **A mark in the escaped text is a mark of the line outside of quotes.** -/
theorem mem_hide_mark {quote : Option Char} (hquote : ∀ q ∈ quote, isQuote q) {c x : Char}
    (hx : x ∈ marks) (h : x ∈ hide quote c) : quote = none ∧ c = x := by
  have houter : ∀ x ∈ marks, Outer x := forall_marks (by decide)
  cases quote with
  | none =>
    refine ⟨rfl, ?_⟩
    unfold hide hideUnquoted at h
    simp only at h
    split at h
    · exact absurd h (houter x hx _ LineConfig.mem_blockSpace)
    · split at h
      · rename_i hdash
        have hdashed : ∀ x ∈ marks, x ∉ hideQuoted '-' := forall_marks (by decide)
        rw [hdash] at h
        exact absurd h (hdashed x hx)
      · exact (List.mem_singleton.mp h).symm
  | some q =>
    unfold hide at h
    simp only at h
    split at h
    · rename_i hq
      have hplain : ∀ x ∈ marks, isQuote x = false := forall_marks (by decide)
      have hquoted := hquote q rfl
      rw [← hq, ← List.mem_singleton.mp h, hplain x hx] at hquoted
      cases hquoted
    · rcases hidesAs_hideQuoted c with hkept | hs
      · have hhidden : ∀ x ∈ marks, hideQuoted x ≠ [x] := forall_marks (by decide)
        rw [hkept] at h
        rw [← List.mem_singleton.mp h] at hkept
        exact absurd hkept (hhidden x hx)
      · exact absurd h (houter x hx _ hs)

theorem findIdx?_hideFrom {quote : Option Char} (hquote : ∀ q ∈ quote, isQuote q)
    (cs : List Char) :
    (hideFrom quote cs).findIdx? (· = '=') =
      (splitEquals quote cs).map fun p => (hideFrom quote p.1).length := by
  induction cs generalizing quote with
  | nil => rfl
  | cons c cs ih =>
    rw [hideFrom, splitEquals]
    by_cases hmark : quote = none ∧ c = '='
    · obtain ⟨rfl, rfl⟩ := hmark
      rw [if_pos ⟨rfl, rfl⟩, hide_mark (by decide)]
      rfl
    · have hnone : (hide quote c).findIdx? (· = '=') = none := by
        rw [List.findIdx?_eq_none_iff]
        intro x hx
        rw [decide_eq_false_iff_not]
        rintro rfl
        exact hmark (mem_hide_mark hquote (by decide) hx)
      rw [if_neg hmark, List.findIdx?_append, hnone, Option.none_or,
        ih (isQuote_of_quoteAfter hquote c), Option.map_map, Option.map_map]
      congr 1
      funext p
      simp only [Function.comp, hideFrom, List.length_append]
      omega

/-! ## Trimming -/

theorem unescape_concat_blank {front : List Char} {x : Char} (hx : isBlank x) :
    unescape (front ++ [x]) = unescape front ++ [x] := by
  have houter := LineConfig.outer_of_isBlank hx
  have hlast : (front ++ [x])[front.length]? = some x := List.getElem?_concat_length
  have hread := unescape_take_append_drop (boundary_of_outer houter hlast).1
  rw [List.take_left, List.drop_left, unescape_outer houter] at hread
  exact hread.symm

theorem unescape_append_blockSpace (front : List Char) :
    unescape (front ++ blockSpace) = unescape front ++ [' '] := by
  have hmark : (front ++ blockSpace)[front.length]? = some '<' := by
    rw [List.getElem?_append_right (Nat.le_refl _), Nat.sub_self]
    rfl
  have hread := unescape_take_append_drop (boundary_of_mark hmark)
  rw [List.take_left, List.drop_left] at hread
  exact hread.symm

/-- A text that is read as one with a blank in front of nothing starts with no blank. -/
theorem leadingBlanks_of_unescape {text rest : List Char} {c : Char}
    (hread : unescape text = c :: rest) (hc : ¬ isBlank c) :
    LineConfig.leadingBlanks blockSpace 0 text = 0 := by
  cases text with
  | nil => rfl
  | cons x xs =>
    rw [LineConfig.leadingBlanks]
    split
    · rename_i hx
      have hnone := (unescape_outer (LineConfig.outer_of_isBlank hx))
      have hb := (boundary_of_outer (LineConfig.outer_of_isBlank hx)
        (show (x :: xs)[0]? = some x from rfl)).2
      have hfirst := unescape_take_append_drop hb
      rw [List.take_succ_cons, List.take_zero, hnone, hread] at hfirst
      cases hfirst
      exact absurd hx hc
    · split
      · rename_i hpre
        obtain ⟨ys, hys⟩ := List.isPrefixOf_iff_prefix.mp hpre
        rw [← hys, unescape_sentinel LineConfig.mem_blockSpace] at hread
        cases hread
        exact absurd (by decide) hc
      · rfl

theorem trailingBlanks_of_unescape {text front : List Char} {c : Char}
    (hread : unescape text = front ++ [c]) (hc : ¬ isBlank c) :
    LineConfig.leadingBlanks blockSpace.reverse 0 text.reverse = 0 := by
  rcases List.eq_nil_or_concat text with rfl | ⟨ys, x, rfl⟩
  · rfl
  · rw [List.concat_eq_append] at hread ⊢
    rw [List.reverse_append, List.reverse_singleton, List.singleton_append,
      LineConfig.leadingBlanks]
    split
    · rename_i hx
      rw [unescape_concat_blank hx] at hread
      rw [(List.append_singleton_inj.mp hread).2] at hx
      exact absurd hx hc
    · split
      · rename_i hpre
        have hsuffix : blockSpace <:+ ys ++ [x] := by
          rw [← List.reverse_prefix, List.reverse_append]
          exact List.isPrefixOf_iff_prefix.mp hpre
        obtain ⟨zs, hzs⟩ := hsuffix
        rw [← hzs, unescape_append_blockSpace] at hread
        rw [← (List.append_singleton_inj.mp hread).2] at hc
        exact absurd (by decide) hc
      · rfl

/-- A blank of a block is a block space, or stays. -/
theorem hide_blank {c : Char} (hc : isBlank c) : hide none c = blockSpace ∨ hide none c = [c] := by
  unfold hide hideUnquoted
  simp only
  split
  · exact Or.inl rfl
  · split
    · rename_i hdash
      rw [hdash] at hc
      exact absurd hc (by decide)
    · exact Or.inr rfl

theorem leadingBlanks_hide {c : Char} (hc : isBlank c) (rest : List Char) :
    LineConfig.leadingBlanks blockSpace 0 (hide none c ++ rest) =
      (hide none c).length + LineConfig.leadingBlanks blockSpace 0 rest := by
  rcases hide_blank hc with h | h
  · rw [h, LineConfig.leadingBlanks_space (by decide)]
  · rw [h, List.singleton_append, LineConfig.leadingBlanks, if_pos hc, List.length_singleton]
    omega

theorem trailingBlanks_hide {c : Char} (hc : isBlank c) (front : List Char) :
    LineConfig.leadingBlanks blockSpace.reverse 0 (front ++ hide none c).reverse =
      (hide none c).length + LineConfig.leadingBlanks blockSpace.reverse 0 front.reverse := by
  rw [List.reverse_append]
  rcases hide_blank hc with h | h
  · rw [h, LineConfig.leadingBlanks_space (by decide), List.length_reverse]
  · rw [h, List.reverse_singleton, List.singleton_append, LineConfig.leadingBlanks, if_pos hc,
      List.length_singleton]
    omega

theorem none_quotes : ∀ q ∈ (none : Option Char), isQuote q := fun _ h => nomatch h

theorem leadingBlanks_hideFrom {cs : List Char} (hplain : Plain cs) :
    LineConfig.leadingBlanks blockSpace 0 (hideFrom none cs) =
      (hideFrom none (cs.takeWhile isBlank)).length := by
  induction cs with
  | nil => rfl
  | cons c cs ih =>
    by_cases hc : isBlank c
    · have hrest : Plain cs := hplain.of_infix (List.suffix_cons c cs).isInfix
      rw [List.takeWhile_cons_of_pos hc, hideFrom, hideFrom, quoteAfter_blank none_quotes hc,
        leadingBlanks_hide hc, ih hrest, List.length_append]
    · rw [List.takeWhile_cons_of_neg hc]
      exact leadingBlanks_of_unescape ((EscapesTo.hideFrom none _).unescape_eq hplain) hc

/-- The blanks at the end of an escaped text, in front of which no quotation is open. -/
theorem trailingBlanks_append {trail : List Char} (htrail : ∀ c ∈ trail, isBlank c)
    (front : List Char) :
    LineConfig.leadingBlanks blockSpace.reverse 0 (front ++ hideFrom none trail).reverse =
      (hideFrom none trail).length +
        LineConfig.leadingBlanks blockSpace.reverse 0 front.reverse := by
  induction trail generalizing front with
  | nil => rw [hideFrom, List.append_nil, List.length_nil, Nat.zero_add]
  | cons c trail ih =>
    obtain ⟨hc, htrail⟩ := List.forall_mem_cons.mp htrail
    rw [hideFrom, quoteAfter_blank none_quotes hc, ← List.append_assoc, ih htrail,
      trailingBlanks_hide hc, List.length_append]
    omega

/-- What is left of a stretch outside of quotes without its blanks stands outside of quotes. -/
theorem quoteOver_trim {seg trail : List Char} (hquote : quoteOver none seg = none)
    (hseg : seg = seg.takeWhile isBlank ++ trim seg ++ trail) (htrail : ∀ c ∈ trail, isBlank c) :
    quoteOver none (trim seg) = none := by
  have hlead : quoteOver none (seg.takeWhile isBlank) = none :=
    quoteOver_blanks none_quotes fun c hc => List.mem_takeWhile_imp hc
  rw [hseg, quoteOver_append, quoteOver_append, hlead] at hquote
  rwa [quoteOver_blanks (isQuote_of_quoteOver none_quotes _) htrail] at hquote

/-- **An escaped stretch is trimmed as the stretch of the line is.** -/
theorem trimSpan_hideFrom {seg : List Char} (hplain : Plain seg)
    (hquote : quoteOver none seg = none) (before after : List Char) :
    LineConfig.trimSpan (before ++ hideFrom none seg ++ after) before.length
        (before.length + (hideFrom none seg).length) =
      (before.length + (hideFrom none (seg.takeWhile isBlank)).length,
        before.length + (hideFrom none (seg.takeWhile isBlank)).length +
          (hideFrom none (trim seg)).length) := by
  obtain ⟨trail, hseg, htrail, hlast⟩ := Stretch.trimmed_text seg
  have hlead : quoteOver none (seg.takeWhile isBlank) = none :=
    quoteOver_blanks none_quotes fun c hc => List.mem_takeWhile_imp hc
  have hmiddle := quoteOver_trim hquote hseg htrail
  have hsplit : hideFrom none seg = hideFrom none (seg.takeWhile isBlank) ++
      (hideFrom none (trim seg) ++ hideFrom none trail) := by
    conv => lhs; rw [hseg]
    rw [hideFrom_append, hideFrom_append, quoteOver_append, hlead, hmiddle, List.append_assoc]
  have hspan : ((before ++ hideFrom none seg ++ after).take
      (before.length + (hideFrom none seg).length)).drop before.length = hideFrom none seg := by
    rw [← List.length_append, List.take_left, List.drop_left]
  -- behind the leading blanks nothing but the trailing ones is left out
  have hback : LineConfig.leadingBlanks blockSpace.reverse 0
      (hideFrom none (trim seg) ++ hideFrom none trail).reverse =
        (hideFrom none trail).length := by
    rw [trailingBlanks_append htrail]
    by_cases hempty : trim seg = []
    · rw [hempty]
      rfl
    · have hread := (EscapesTo.hideFrom none (trim seg)).unescape_eq
        (hplain.of_infix ⟨seg.takeWhile isBlank, trail, hseg.symm⟩)
      rw [trailingBlanks_of_unescape (hread.trans (List.dropLast_append_getLast hempty).symm)
        (hlast hempty), Nat.add_zero]
  unfold LineConfig.trimSpan
  simp only [hspan, leadingBlanks_hideFrom hplain]
  rw [hsplit, List.drop_left, hback, List.length_append, List.length_append]
  congr 1
  omega

end PackLint.SkillLine
