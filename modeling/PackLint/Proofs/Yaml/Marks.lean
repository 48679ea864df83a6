import PackLint.Proofs.Yaml.Scalar

/-!
# Marks stand in the text

The marks that a reader yields, and those of the errors with which it gives up, are places that its
cursor came to. So far only what is yielded has been looked at; `Locates` also says where an error
is noticed.

Results:
* `Scan.locates_tag`, `Scan.locates_anchor`, `Scan.locates_directive`, `Scan.locates_quoted`,
  `Scan.locates_plain`, `Scan.locates_block`: the readers of tokens.
-/

namespace PackLint.Yaml

/-! ## Places in a text -/

/-- The cursor stands in the text. -/
def Cursor.In (text : List Char) (c : Cursor) : Prop := c.Follows { rest := text }

/-- The mark is the place of a cursor in the text. -/
def Mark.In (text : List Char) (m : Mark) : Prop := ∃ c : Cursor, c.In text ∧ c.mark = m

/-- The error was noticed in the text, if there is a place where it was noticed. -/
def Error.In (text : List Char) : Error → Prop
  | .malformed _ (some m) => m.In text
  | _ => True

/-- The token starts and ends in the text. -/
structure Token.In (text : List Char) (t : Token) : Prop where
  start : t.start.In text
  stop : t.stop.In text

variable {text : List Char}

/-! ## Outcomes -/

/-- A computation locates what goes wrong: it yields what has the property, or an error that was
noticed in the text. -/
def Locates {α : Type} (text : List Char) (x : Except Error α) (P : α → Prop) : Prop :=
  Ensures x P ∧ ∀ e, x = .error e → e.In text

namespace Locates

variable {α β : Type} {x : Except Error α} {f : α → Except Error β} {P : α → Prop} {Q : β → Prop}

theorem pure {a : α} (h : P a) : Locates text (pure a) P := ⟨.pure h, by rintro e ⟨⟩⟩

theorem throw {e : Error} (h : e.In text) : Locates text (throw e) P :=
  ⟨.throw e, by rintro e ⟨⟩; exact h⟩

theorem bind (hx : Locates text x P) (hf : ∀ a, P a → Locates text (f a) Q) :
    Locates text (x >>= f) Q := by
  cases x with
  | error e => exact throw (hx.2 e rfl)
  | ok a => exact hf a (hx.1 a rfl)

/-- A condition on which the computation fails. -/
theorem guard {p : Prop} [Decidable p] {e : Error} {rest : PUnit → Except Error α} (he : e.In text)
    (h : Locates text (rest ()) P) :
    Locates text (if p then MonadExcept.throw e >>= rest else rest ()) P := by
  split
  · exact (throw he : Locates text _ fun _ => False).bind fun _ h => h.elim
  · exact h

theorem ite {p : Prop} [Decidable p] {y : Except Error α} (hx : Locates text x P)
    (hy : Locates text y P) : Locates text (if p then x else y) P := by
  split
  · exact hx
  · exact hy

end Locates

namespace Scan

variable {α β : Type} {s : Scan α} {f : α → Scan β} {post : α → Prop} {mid : α → Prop}

/-- In the text, the reader moves on in the text and locates what goes wrong there; `post` holds of
what it reads. -/
def Locates (text : List Char) (s : Scan α) (post : α → Prop) : Prop :=
  ∀ c : Cursor, c.In text → Yaml.Locates text (s c) fun r => r.2.In text ∧ post r.1

namespace Locates

theorem bind {post : β → Prop} (hs : Locates text s mid)
    (hf : ∀ a, mid a → Locates text (f a) post) :
    Locates text (s >>= f) post :=
  fun c hc => Yaml.Locates.bind (hs c hc) fun r hr => hf r.1 hr.2 r.2 hr.1

/-- What is passed over first. -/
theorem after {post : β → Prop} (hs : Locates text s mid) (hf : ∀ a, Locates text (f a) post) :
    Locates text (s >>= f) post :=
  hs.bind fun a _ => hf a

theorem pure {a : α} (h : post a) : Locates text (pure a) post := fun _ hc => .pure ⟨hc, h⟩

theorem done {a : α} : Locates text (Pure.pure a) fun _ => True := .pure trivial

theorem throw {e : Error} (h : e.In text) : Locates text (throw e : Scan α) post :=
  fun _ _ => .throw h

theorem fail (problem : String) : Locates text (fail problem : Scan α) post :=
  fun c hc => .throw ⟨c, hc, rfl⟩

/-- A condition on which the reader gives up. -/
theorem guard {p : Prop} [Decidable p] {problem : String} {rest : PUnit → Scan α}
    (h : Locates text (rest ()) post) :
    Locates text (if p then Scan.fail problem >>= rest else rest ()) post := by
  split
  · exact after (fail problem : Locates text _ fun _ => False) fun _ => h
  · exact h

/-- What is read first on a condition only. -/
theorem when {p : Prop} [Decidable p] {first : Scan PUnit} {rest : PUnit → Scan α}
    {mid : PUnit → Prop} (hfirst : Locates text first mid) (h : Locates text (rest ()) post) :
    Locates text (if p then first >>= rest else rest ()) post := by
  split
  · exact .after hfirst fun _ => h
  · exact h

end Locates

/-! ## Steps -/

theorem locates_get : Locates text (get : Scan Cursor) fun c => c.In text :=
  fun _ hc => .pure ⟨hc, hc⟩

theorem locates_peekAt (n : Nat) : Locates text (peekAt n) fun _ => True :=
  fun _ hc => .pure ⟨hc, trivial⟩

theorem locates_peek : Locates text peek fun _ => True := locates_peekAt 0

theorem locates_size : Locates text size fun _ => True := fun _ hc => .pure ⟨hc, trivial⟩

theorem locates_mark : Locates text mark fun m => m.In text :=
  fun c hc => .pure ⟨hc, c, hc, rfl⟩

theorem locates_skip (n : Nat) : Locates text (skip n) fun _ => True :=
  fun _ hc => .pure ⟨Cursor.Follows.trans ⟨n, rfl⟩ hc, trivial⟩

theorem locates_span (p : Char → Bool) : Locates text (span p) fun _ => True :=
  fun c hc => .pure ⟨Cursor.Follows.trans ⟨_, c.span_eq_skip p⟩ hc, trivial⟩

theorem locates_take (n : Nat) : Locates text (take n) fun _ => True :=
  fun _ hc => .pure ⟨Cursor.Follows.trans ⟨n, rfl⟩ hc, trivial⟩

theorem locates_skipWhile (p : Char → Bool) : Locates text (skipWhile p) fun _ => True :=
  (locates_span p).after fun _ => .done

theorem locates_lineBreak? : Locates text lineBreak? fun _ => True := by
  unfold lineBreak?
  refine locates_peek.after fun c => ?_
  split
  · exact (locates_peekAt 1).after fun d => (locates_skip _).after fun _ => .done
  · split
    · exact (locates_skip 1).after fun _ => .done
    · exact .done

theorem locates_skipComment : Locates text skipComment fun _ => True := by
  unfold skipComment
  refine locates_peek.after fun c => ?_
  split
  · exact locates_skipWhile _
  · exact .done

theorem locates_atDocumentMark (c : Char) : Locates text (atDocumentMark c) fun _ => True := by
  unfold atDocumentMark
  exact locates_peek.after fun _ => (locates_peekAt 1).after fun _ => (locates_peekAt 2).after
    fun _ => (locates_peekAt 3).after fun _ => .done

theorem locates_atDocumentBoundary : Locates text atDocumentBoundary fun _ => True :=
  (locates_atDocumentMark '-').after fun _ => (locates_atDocumentMark '.').after fun _ => .done

/-! ## Tags and anchors -/

/-- A run of escapes that is no text is an error at its start. -/
theorem locates_skipUriEscapes {start : Mark} (hstart : start.In text) (fuel : Nat)
    (bytes : List Nat) : Locates text (skipUriEscapes start fuel bytes) fun _ => True := by
  induction fuel generalizing bytes with
  | zero => exact .done
  | succ fuel ih =>
    unfold skipUriEscapes
    refine locates_peek.after fun c => ?_
    split
    · split
      · exact .throw hstart
      · exact .done
    · refine (locates_skip 1).after fun _ => locates_peek.after fun _ => (locates_peekAt 1).after
        fun _ => ?_
      split
      · exact (locates_skip 2).after fun _ => ih _
      · exact .fail _

theorem locates_uriChars (version : Version) (fuel : Nat) (acc : List Char) :
    Locates text (uriChars version fuel acc) fun _ => True := by
  induction fuel generalizing acc with
  | zero => exact .done
  | succ fuel ih =>
    unfold uriChars
    refine locates_peek.after fun c => ?_
    split
    · exact locates_get.bind fun before hbefore => locates_size.after fun _ =>
        (locates_skipUriEscapes ⟨before, hbefore, rfl⟩ _ _).after fun _ => locates_mark.after
          fun _ => ih _
    · split
      · exact (locates_span _).after fun _ => ih _
      · exact .done

theorem locates_tagUri (version : Version) : Locates text (tagUri version) fun _ => True := by
  unfold tagUri
  exact locates_size.after fun _ => (locates_uriChars version _ _).after fun _ => .guard .done

theorem locates_tagSuffix (version : Version) : Locates text (tagSuffix version) fun _ => True :=
  (locates_tagUri version).after fun _ => .done

theorem locates_tagHandle : Locates text tagHandle fun _ => True := by
  unfold tagHandle
  refine locates_peek.after fun _ => .guard ?_
  refine (locates_skip 1).after fun _ => locates_peek.after fun _ => ?_
  split
  · exact .done
  · exact (locates_span _).after fun _ => locates_peek.after fun _ =>
      .guard ((locates_skip 1).after fun _ => .done)

/-! ## Tokens -/

/-- A token that ends where the cursor stands. -/
theorem locates_token_here {kind : TokenKind} {start : Mark} (hstart : start.In text) :
    Locates text (do return (⟨kind, start, ← mark⟩ : Token)) fun t => t.In text :=
  locates_mark.bind fun _ hstop => .pure ⟨hstart, hstop⟩

theorem locates_tag (version : Version) : Locates text (tag version) fun t => t.In text := by
  unfold tag
  refine locates_mark.bind fun start hstart => (locates_peekAt 1).after fun c => ?_
  have hend : ∀ kind, Locates text (do
      let c ← peek
      if c ≠ ' ' ∧ !isLineEnd c then fail "expected a space behind a tag"
      return (⟨kind, start, ← mark⟩ : Token)) fun t => t.In text :=
    fun kind => locates_peek.after fun _ => .guard (locates_token_here hstart)
  refine .when (locates_skip 1) ((locates_peekAt 1).after fun d => ?_)
  split
  · exact (locates_skip 2).after fun _ => (locates_tagSuffix version).after fun _ =>
      locates_peek.after fun _ => .guard ((locates_skip 1).after fun _ => hend _)
  · split
    · exact (locates_skip 1).after fun _ => hend _
    · have hsuffix : ∀ handle, Locates text _ _ := fun handle =>
        (locates_tagSuffix version).after fun suffix => hend (.tag (some handle) suffix)
      refine locates_get.after fun before => ?_
      simp only
      split
      · exact locates_tagHandle.after hsuffix
      · exact (locates_skip 1).after fun _ => hsuffix _

theorem locates_anchor (kind : String → TokenKind) :
    Locates text (anchor kind) fun t => t.In text := by
  unfold anchor
  exact locates_mark.bind fun start hstart => (locates_skip 1).after fun _ =>
    (locates_span _).after fun _ => .guard (locates_peek.after fun _ =>
      .guard (locates_token_here hstart))

/-! ## Directives -/

theorem locates_directiveNumber : Locates text directiveNumber fun _ => True := by
  unfold directiveNumber
  exact (locates_span _).after fun _ => .guard .done

theorem locates_directiveEnd : Locates text directiveEnd fun _ => True := by
  unfold directiveEnd
  refine locates_peek.after fun _ => ?_
  split
  · exact .fail _
  · exact .done

theorem locates_versionDirective : Locates text versionDirective fun _ => True := by
  unfold versionDirective
  exact (locates_skipWhile _).after fun _ => locates_directiveNumber.after fun _ =>
    locates_peek.after fun _ => .guard ((locates_skip 1).after fun _ =>
      locates_directiveNumber.after fun _ => locates_directiveEnd.after fun _ => .done)

theorem locates_tagDirective (version : Version) :
    Locates text (tagDirective version) fun _ => True := by
  unfold tagDirective
  exact (locates_skipWhile _).after fun _ => locates_tagHandle.after fun _ =>
    locates_peek.after fun _ => .guard ((locates_skipWhile _).after fun _ =>
      (locates_tagUri version).after fun _ => locates_directiveEnd.after fun _ => .done)

theorem locates_directiveLine {start : Mark} (hstart : start.In text) (kind : TokenKind) :
    Locates text (directiveLine start kind) fun t => t.In text := by
  unfold directiveLine
  exact locates_mark.bind fun stop hstop => .when (locates_skipWhile _) <|
    (locates_skipWhile _).after fun _ => locates_skipComment.after fun _ =>
      locates_peek.after fun _ => .guard (locates_lineBreak?.after fun _ => .pure ⟨hstart, hstop⟩)

theorem locates_directive (version : Version) :
    Locates text (directive version) fun t => t.In text := by
  unfold directive
  refine locates_mark.bind fun start hstart => (locates_skip 1).after fun _ =>
    (locates_span _).after fun name => .guard (locates_directiveEnd.after fun _ => ?_)
  split
  · exact locates_versionDirective.after (locates_directiveLine hstart)
  · exact (locates_tagDirective version).after (locates_directiveLine hstart)
  · exact Locates.after .done (locates_directiveLine hstart)

/-! ## Quoted scalars -/

theorem locates_quotedBreaks (fuel : Nat) (acc : List Char) :
    Locates text (quotedBreaks fuel acc) fun _ => True := by
  induction fuel generalizing acc with
  | zero => exact .done
  | succ fuel ih =>
    unfold quotedBreaks
    refine locates_atDocumentBoundary.after fun _ => .guard ((locates_skipWhile _).after fun _ =>
      locates_lineBreak?.after fun c => ?_)
    split
    · exact ih _
    · exact .done

theorem locates_quotedSpaces : Locates text quotedSpaces fun _ => True := by
  unfold quotedSpaces
  refine (locates_span _).after fun _ => locates_get.after fun _ =>
    .guard (locates_lineBreak?.after fun c => ?_)
  split
  · exact locates_size.after fun _ => (locates_quotedBreaks _ _).after fun _ => .done
  · exact .done

theorem locates_numericEscape (width : Nat) :
    Locates text (numericEscape width) fun _ => True := by
  unfold numericEscape
  refine locates_get.after fun _ => ?_
  split
  · exact .fail _
  · refine (locates_skip _).after fun _ => ?_
    split
    · exact .throw trivial
    · split
      · refine locates_get.after fun _ => ?_
        split
        · split
          · exact (locates_skip 6).after fun _ => .done
          · exact .done
        · exact .done
      · exact .done

theorem locates_escapeText : Locates text escapeText fun _ => True := by
  unfold escapeText
  refine locates_peek.after fun c => ?_
  split
  · exact (locates_skip 1).after fun _ => .done
  · exact (locates_skip 1).after fun _ => (locates_numericEscape _).after fun _ => .done
  · refine locates_lineBreak?.after fun c => ?_
    split
    · exact locates_size.after fun _ => locates_quotedBreaks _ _
    · exact .fail _

theorem locates_quotedRun (double : Bool) (fuel : Nat) (acc : List Char) :
    Locates text (quotedRun double fuel acc) fun _ => True := by
  induction fuel generalizing acc with
  | zero => exact .done
  | succ fuel ih =>
    unfold quotedRun
    refine (locates_span _).after fun run => locates_peek.after fun c =>
      (locates_peekAt 1).after fun d => ?_
    split
    · exact (locates_skip 2).after fun _ => ih _
    · split
      · exact (locates_skip 1).after fun _ => ih _
      · split
        · exact (locates_skip 1).after fun _ => locates_escapeText.after fun _ => ih _
        · exact .done

theorem locates_quotedText (double : Bool) (fuel : Nat) (acc : List Char) :
    Locates text (quotedText double fuel acc) fun _ => True := by
  induction fuel generalizing acc with
  | zero => exact .done
  | succ fuel ih =>
    unfold quotedText
    refine locates_size.after fun _ => (locates_quotedRun _ _ _).after fun _ =>
      locates_peek.after fun _ => ?_
    generalize (if double then '"' else '\'') = closing
    split
    · exact .done
    · exact locates_quotedSpaces.after fun _ => ih _

theorem locates_quoted (double : Bool) : Locates text (quoted double) fun t => t.In text := by
  unfold quoted
  exact locates_mark.bind fun start hstart => (locates_skip 1).after fun _ =>
    locates_size.after fun _ => (locates_quotedText _ _ _).after fun _ =>
      (locates_skip 1).after fun _ => locates_token_here hstart

/-! ## Plain scalars -/

theorem locates_plainBreaks (fuel : Nat) (acc : List Char) :
    Locates text (plainBreaks fuel acc) fun _ => True := by
  induction fuel generalizing acc with
  | zero => exact .done
  | succ fuel ih =>
    unfold plainBreaks
    refine locates_peek.after fun _ => ?_
    split
    · exact (locates_skip 1).after fun _ => ih _
    · refine locates_lineBreak?.after fun c => ?_
      split
      · exact .done
      · refine locates_atDocumentBoundary.after fun _ => ?_
        split
        · exact .done
        · exact ih _

theorem locates_plainSpaces : Locates text plainSpaces fun _ => True := by
  unfold plainSpaces
  refine (locates_span _).after fun _ => locates_lineBreak?.after fun c => ?_
  split
  · exact .done
  · refine locates_atDocumentBoundary.after fun _ => ?_
    split
    · exact .done
    · refine locates_size.after fun _ => (locates_plainBreaks _ _).after fun breaks => ?_
      split
      · exact .done
      · exact .done

theorem locates_plainPieces (version : Version) (inFlow : Bool) (indent fuel : Nat)
    (spaces : List Char) {acc : PlainScalar} (hacc : acc.stop.In text) :
    Locates text (plainPieces version inFlow indent fuel spaces acc) fun scalar =>
      scalar.stop.In text := by
  induction fuel generalizing spaces acc with
  | zero => exact .pure hacc
  | succ fuel ih =>
    unfold plainPieces
    refine locates_peek.after fun _ => ?_
    split
    · exact .pure hacc
    · refine locates_get.after fun _ => ?_
      simp only
      split
      · exact .pure hacc
      · refine (locates_take _).after fun piece => locates_mark.bind fun stop hstop =>
          locates_plainSpaces.after fun r => locates_mark.after fun _ => locates_peek.after
            fun _ => ?_
        split
        · exact .pure hstop
        · exact ih _ hstop

theorem locates_plain (version : Version) (inFlow : Bool) (indent : Nat) :
    Locates text (plain version inFlow indent) fun r => r.1.In text := by
  unfold plain
  exact locates_mark.bind fun start hstart => locates_size.after fun _ =>
    (locates_plainPieces version inFlow indent _ [] hstart).bind fun _ hstop =>
      .pure ⟨hstart, hstop⟩

/-! ## Block scalars -/

theorem locates_indentDigit? : Locates text indentDigit? fun _ => True := by
  unfold indentDigit?
  refine locates_peek.after fun c => ?_
  split
  · exact .guard ((locates_skip 1).after fun _ => .done)
  · exact .done

theorem locates_chompingSign? : Locates text chompingSign? fun _ => True := by
  unfold chompingSign?
  refine locates_peek.after fun c => ?_
  split
  · exact (locates_skip 1).after fun _ => .done
  · split
    · exact (locates_skip 1).after fun _ => .done
    · exact .done

theorem locates_blockIndicators : Locates text blockIndicators fun _ => True := by
  unfold blockIndicators
  have hend : ∀ indicators : Chomping × Option Nat, Locates text (do
      let c ← peek
      if c ≠ ' ' ∧ !isLineEnd c then fail "expected chomping or indentation indicators"
      return indicators) fun _ => True := fun _ => locates_peek.after fun _ => .guard .done
  refine locates_chompingSign?.after fun sign => ?_
  split
  · exact locates_indentDigit?.after fun _ => hend _
  · refine locates_indentDigit?.after fun digit => ?_
    split
    · exact locates_chompingSign?.after fun _ => hend _
    · exact hend _

theorem locates_blockIndentation (fuel : Nat) (breaks : List Char) (first : Option Nat)
    (width : Nat) {stop : Mark} (hstop : stop.In text) :
    Locates text (blockIndentation fuel breaks first width stop) fun r => r.2.2.In text := by
  induction fuel generalizing breaks first width stop with
  | zero => exact .pure hstop
  | succ fuel ih =>
    unfold blockIndentation
    refine locates_peek.after fun _ => ?_
    split
    · exact (locates_skip 1).after fun _ => locates_mark.after fun _ => ih _ _ _ hstop
    · refine locates_mark.after fun _ => locates_lineBreak?.after fun c => ?_
      split
      · exact locates_mark.bind fun m hm => ih _ _ _ hm
      · simp only
        have hnowhere : ∀ problem, Locates text (throw (.malformed problem none) : Scan PUnit)
            fun _ => True := fun _ => .throw trivial
        split
        · exact .when (hnowhere _) (.pure hstop)
        · exact .pure hstop

theorem locates_skipIndent (indent fuel : Nat) :
    Locates text (skipIndent indent fuel) fun _ => True := by
  induction fuel with
  | zero => exact .done
  | succ fuel ih =>
    unfold skipIndent
    refine locates_mark.after fun _ => locates_peek.after fun _ => ?_
    split
    · exact (locates_skip 1).after fun _ => ih
    · exact .done

theorem locates_blockBreaks (indent fuel : Nat) (breaks : List Char) {stop : Mark}
    (hstop : stop.In text) :
    Locates text (blockBreaks indent fuel breaks stop) fun r => r.2.In text := by
  induction fuel generalizing breaks stop with
  | zero => exact .pure hstop
  | succ fuel ih =>
    unfold blockBreaks
    refine (locates_skipIndent _ _).after fun _ => locates_lineBreak?.after fun c => ?_
    split
    · exact locates_mark.bind fun m hm => ih _ hm
    · exact .pure hstop

theorem locates_blockLines (folded watchful : Bool) (indent fuel : Nat) {acc : BlockLines}
    (hacc : acc.stop.In text) :
    Locates text (blockLines folded watchful indent fuel acc) fun lines => lines.stop.In text := by
  induction fuel generalizing acc with
  | zero => exact .pure hacc
  | succ fuel ih =>
    unfold blockLines
    refine locates_peek.after fun _ => (locates_span _).after fun _ => locates_lineBreak?.after
      fun _ => locates_size.after fun _ => locates_mark.bind fun m hm => ?_
    refine (locates_blockBreaks _ _ _ hm).bind fun r hr => ?_
    refine locates_mark.after fun _ => locates_atDocumentBoundary.after fun _ => ?_
    split
    · exact .pure hr
    · refine locates_mark.after fun _ => locates_get.after fun _ => ?_
      split
      · exact locates_peek.after fun _ => ih hr
      · exact .pure hr

theorem locates_block (folded : Bool) (minIndent : Nat) :
    Locates text (block folded minIndent) fun t => t.In text := by
  unfold block
  refine locates_mark.bind fun start hstart => (locates_skip 1).after fun _ =>
    locates_blockIndicators.after fun r => (locates_skipWhile _).after fun _ =>
    locates_skipComment.after fun _ => locates_peek.after fun _ => .guard
      (locates_lineBreak?.after fun _ => locates_size.after fun _ => ?_)
  extract_lets fuel watchful finish readLines
  have hfinish : ∀ lines : BlockLines, lines.stop.In text →
      Locates text (finish lines) fun t => t.In text := fun lines h => .pure ⟨hstart, h⟩
  have hlines : ∀ found : Nat × List Char × Mark, found.2.2.In text →
      Locates text (readLines found) fun t => t.In text := by
    intro found hstop
    refine locates_mark.after fun _ => locates_get.after fun _ => ?_
    split
    · exact locates_size.after fun _ => (locates_blockLines _ _ _ _ hstop).bind hfinish
    · exact hfinish _ hstop
  clear_value readLines
  split
  · exact locates_mark.bind fun m hm =>
      (locates_blockIndentation _ _ _ _ hm).bind fun _ h => hlines _ h
  · exact locates_mark.bind fun m hm => (locates_blockBreaks _ _ _ hm).bind fun _ h => hlines _ h

end Scan

end PackLint.Yaml
