import PackLint.Proofs.Yaml.Lexer
import PackLint.Proofs.Yaml.Written
import Mathlib.Data.List.InsertIdx

/-!
# What is written of a token

An anchor starts with `&` and a tag with `!`. What is written of a scalar on a single line tells its
text, unless there is an escape in it.

Results:
* `Token.spelt_stream`: the tokens of a text are spelt where they stand.
-/

namespace PackLint.Yaml

/-! ## Pieces of the text -/

/-- The piece stands in the text from one index up to another. -/
def Piece (text : List Char) (i : Nat) (raw : List Char) (j : Nat) : Prop :=
  ∃ front behind, text = front ++ (raw ++ behind) ∧ i = front.length ∧ j = i + raw.length

/-! ## Scalars -/

namespace ScalarStyle

/-- The number of quotes on either side of the text. -/
def quotes : ScalarStyle → Nat
  | singleQuoted | doubleQuoted => 1
  | _ => 0

/-- The character that starts an escape. -/
def escape? : ScalarStyle → Option Char
  | singleQuoted => some '\''
  | doubleQuoted => some '\\'
  | _ => none

/-- What is written between the quotes. -/
def inside (style : ScalarStyle) (raw : List Char) : List Char :=
  (raw.drop style.quotes).take (raw.length - 2 * style.quotes)

/-- Nothing is written in another way than it reads: no anchor or tag stands in front of the text,
and no escape in it. -/
structure Verbatim (style : ScalarStyle) (raw : List Char) : Prop where
  anchor : raw.head? ≠ some '&'
  tag : raw.head? ≠ some '!'
  escape : ∀ x ∈ style.escape?, x ∉ style.inside raw

/-- What is written on a single line tells the text of a scalar just if it is verbatim. -/
structure Tells (style : ScalarStyle) (raw text : List Char) : Prop where
  length_le : text.length + 2 * style.quotes ≤ raw.length
  inside_eq_iff : style.inside raw = text ↔ style.Verbatim raw

theorem length_inside (style : ScalarStyle) (raw : List Char) :
    (style.inside raw).length = raw.length - 2 * style.quotes := by
  unfold inside
  rw [List.length_take, List.length_drop]
  omega

/-- A plain scalar is what is written. -/
theorem tells_plain {raw : List Char} (hanchor : raw.head? ≠ some '&')
    (htag : raw.head? ≠ some '!') : plain.Tells raw raw where
  length_le := Nat.le_refl _
  inside_eq_iff := ⟨fun _ => ⟨hanchor, htag, nofun⟩, fun _ => List.take_length⟩

/-- The style of a scalar between quotes. -/
def quoted (double : Bool) : ScalarStyle := if double then doubleQuoted else singleQuoted

theorem tells_quoted (double : Bool) {first last : Char} {inner text : List Char}
    (hanchor : first ≠ '&') (htag : first ≠ '!')
    (h : Scan.Reading (Scan.escapeOf double) inner text) (hline : ¬ Broken inner) :
    (quoted double).Tells (first :: (inner ++ [last])) text := by
  have hquotes : (quoted double).quotes = 1 := by cases double <;> rfl
  have hescape : (quoted double).escape? = some (Scan.escapeOf double) := by cases double <;> rfl
  have hinside : (quoted double).inside (first :: (inner ++ [last])) = inner := by
    unfold inside
    rw [hquotes]
    simp
  have hverbatim : (quoted double).Verbatim (first :: (inner ++ [last])) ↔
      Scan.escapeOf double ∉ inner := by
    refine ⟨fun h => ?_, fun h => ⟨?_, ?_, ?_⟩⟩
    · have := h.escape _ hescape
      rwa [hinside] at this
    · simpa using hanchor
    · simpa using htag
    · intro x hx
      rw [hescape] at hx
      cases hx
      rwa [hinside]
  have hle : text.length ≤ inner.length := h.length_le.resolve_left hline
  refine ⟨?_, ?_⟩
  · simp only [hquotes, List.length_cons, List.length_append, List.length_nil]
    omega
  · rw [hverbatim, hinside]
    rcases h with h | ⟨hmem, rfl⟩ | ⟨hmem, hlt⟩
    · exact absurd h hline
    · exact iff_of_true rfl hmem
    · refine iff_of_false (fun heq => ?_) (not_not_intro hmem)
      rw [heq] at hlt
      exact Nat.lt_irrefl _ hlt

end ScalarStyle

/-! ## Tokens -/

/-- What holds of the piece of the text that a token is written as, if it matters. A scalar may have
line breaks. -/
def TokenKind.spelling? : TokenKind → Option (List Char → Prop)
  | anchor _ => some fun raw => raw.head? = some '&'
  | tag _ _ => some fun raw => raw.head? = some '!'
  | scalar _ .literal | scalar _ .folded => none
  | scalar text style => some fun raw => Broken raw ∨ style.Tells raw text
  | _ => none

/-- The token is written in the text as it must be. -/
def Token.Spelt (text : List Char) (t : Token) : Prop :=
  ∀ P ∈ t.kind.spelling?, ∃ raw, Piece text t.start.index raw t.stop.index ∧ P raw

/-- The token is written behind a cursor as it must be. -/
def Token.SpeltAt (c : Cursor) (t : Token) : Prop :=
  ∀ P ∈ t.kind.spelling?, ∃ raw, t.start = c.mark ∧ raw <+: c.rest ∧
    t.stop.index = c.mark.index + raw.length ∧ P raw

variable {text : List Char} {c : Cursor} {t : Token}

theorem Token.spelt_of_none (h : t.kind.spelling? = none) : t.Spelt text := by
  intro P hP
  rw [h] at hP
  cases hP

theorem Token.SpeltAt.spelt (h : t.SpeltAt c) (hc : c.Follows { rest := text }) :
    t.Spelt text := by
  intro P hP
  obtain ⟨raw, hstart, ⟨behind, hraw⟩, hstop, hP⟩ := h P hP
  obtain ⟨front, hspans⟩ := hc.spans
  have hindex : c.mark.index = front.length := hspans.index.trans (Nat.zero_add _)
  refine ⟨raw, ⟨front, behind, ?_, ?_, ?_⟩, hP⟩
  · rw [hraw]
    exact hspans.rest
  · rw [hstart, hindex]
  · rw [hstop, hstart]

theorem Token.Begins.speltAt {c' : Cursor} (h : t.Begins c c'.mark.index) (hc : c'.Follows c)
    (hP : ∀ P ∈ t.kind.spelling?, ∀ raw : List Char, raw.head? = c.rest.head? → P raw) :
    t.SpeltAt c := by
  obtain ⟨raw, hraw, hstop, hhead⟩ := h.piece hc
  exact fun P hmem => ⟨raw, h.start, hraw, hstop, hP P hmem raw hhead⟩

namespace Scan

/-! ## Readers of tokens -/

theorem spelt_anchor {kind : String → TokenKind} (hc : c.peek 0 ≠ endChar)
    (hkind : ∀ name, ∀ P ∈ (kind name).spelling?, ∀ raw : List Char,
      raw.head? = some (c.peek 0) → P raw) :
    Ensures (anchor kind c) fun r => r.1.SpeltAt c := by
  obtain ⟨rest, hrest⟩ := Cursor.rest_eq_cons rfl hc
  refine (readsAt_anchor kind (hrest ▸ List.cons_ne_nil _ _)).imp fun r hr => ?_
  obtain ⟨hfollows, ⟨name, hname⟩, hbegins⟩ := hr
  refine hbegins.speltAt hfollows ?_
  rw [hname, hrest]
  exact hkind name

theorem spelt_tag (version : Version) (hc : c.peek 0 = '!') :
    Ensures (tag version c) fun r => r.1.SpeltAt c := by
  obtain ⟨rest, hrest⟩ := Cursor.rest_eq_cons hc (by decide)
  refine (readsAt_tag version (hrest ▸ List.cons_ne_nil _ _)).imp fun r hr => ?_
  obtain ⟨hfollows, ⟨handle, suffix, hkind⟩, hbegins⟩ := hr
  refine hbegins.speltAt hfollows ?_
  rw [hkind, hrest]
  rintro P ⟨⟩ raw hraw
  exact hraw

theorem spelt_quoted (double : Bool) (hc : c.peek 0 = if double then '"' else '\'') :
    Ensures (quoted double c) fun r => r.1.SpeltAt c := by
  have hquote : (if double then '"' else '\'') ≠ endChar := by cases double <;> decide
  refine Ensures.imp (passes_quoted double hc hquote) fun r hr => ?_
  obtain ⟨raw, hspans, hstart, hstop, text, hkind, hraw⟩ := hr
  have hP : ∀ P ∈ r.1.kind.spelling?, P = fun raw =>
      Broken raw ∨ (ScalarStyle.quoted double).Tells raw text := by
    rw [hkind]
    cases double <;> rintro P ⟨⟩ <;> rfl
  intro P hmem
  refine ⟨raw, hstart, ⟨_, hspans.rest.symm⟩, hstop ▸ hspans.index, ?_⟩
  rw [hP P hmem]
  rcases hraw with hbroken | ⟨inner, last, rfl, hreading⟩
  · exact .inl hbroken
  · by_cases hline : Broken inner
    · exact .inl ((hline.append_left [last]).append_right [_])
    · exact .inr (ScalarStyle.tells_quoted double (by cases double <;> decide)
        (by cases double <;> decide) hreading hline)

theorem spelt_plain (version : Version) (inFlow : Bool) (indent : Nat) (hanchor : c.peek 0 ≠ '&')
    (htag : c.peek 0 ≠ '!') : Ensures (plain version inFlow indent c) fun r => r.1.1.SpeltAt c := by
  refine Ensures.imp (passes_plain version inFlow indent) fun r hr => ?_
  obtain ⟨-, -, hstart, raw, hraw, hstop, text, hkind, htext⟩ := hr
  intro P hP
  rw [hkind] at hP
  cases hP
  refine ⟨raw, hstart, hraw, hstop, htext.imp_right ?_⟩
  rintro rfl
  -- What a plain scalar starts with stands at the cursor.
  have hhead : ∀ x, c.peek 0 ≠ x → text.head? ≠ some x := by
    intro x hx hhead
    obtain ⟨behind, hbehind⟩ := hraw
    refine hx ?_
    unfold Cursor.peek
    rw [← hbehind, ← List.head?_eq_getElem?, List.head?_append, hhead]
    rfl
  exact ScalarStyle.tells_plain (hhead _ hanchor) (hhead _ htag)

/-! ## Readers of other tokens -/

/-- What the reader yields has the property. -/
def Yields {α : Type} (s : Scan α) (post : α → Prop) : Prop := ∀ c, Ensures (s c) fun r => post r.1

namespace Yields

variable {α β : Type} {s : Scan α} {post : α → Prop} {post' : β → Prop}

theorem bind {f : α → Scan β} (hs : Yields s post) (hf : ∀ a, post a → Yields (f a) post') :
    Yields (s >>= f) post' :=
  fun c => Ensures.bind (hs c) fun r hr => hf r.1 hr r.2

theorem after {f : α → Scan β} (hf : ∀ a, Yields (f a) post') : Yields (s >>= f) post' := by
  have hs : Yields s fun _ => True := fun _ => .anyhow _
  exact hs.bind fun a _ => hf a

theorem pure {a : α} (h : post a) : Yields (pure a) post := fun _ => .pure h

theorem when {p : Prop} [Decidable p] {first : Scan PUnit} {rest : PUnit → Scan α}
    (h : Yields (rest ()) post) : Yields (if p then first >>= rest else rest ()) post := by
  split
  · exact .after fun _ => h
  · exact h

theorem speltAt {s : Scan Token} (hs : Yields s fun t => t.kind.spelling? = none) :
    Ensures (s c) fun r => r.1.SpeltAt c := by
  refine (hs c).imp fun r hr P hP => ?_
  rw [hr] at hP
  cases hP

end Yields

theorem yields_block (folded : Bool) (minIndent : Nat) :
    Yields (block folded minIndent) fun t => t.kind.spelling? = none := by
  unfold block
  refine .after fun start => .after fun _ => .after fun r => .after fun _ => .after fun _ =>
    .after fun _ => .when (.after fun _ => .after fun _ => ?_)
  extract_lets fuel watchful finish readLines
  have hfinish : ∀ lines, Yields (finish lines) fun t => t.kind.spelling? = none := fun lines =>
    .pure (by cases folded <;> rfl)
  have hlines : ∀ found, Yields (readLines found) fun t => t.kind.spelling? = none := by
    intro found
    refine .after fun _ => .after fun _ => ?_
    split
    · exact .after fun _ => .after hfinish
    · exact .after hfinish
  clear_value readLines
  split
  · exact .after fun _ => .after fun _ => .after hlines
  · exact .after fun _ => .after fun _ => .after hlines

theorem yields_versionDirective :
    Yields versionDirective fun kind => kind.spelling? = none := by
  unfold versionDirective
  exact .after fun _ => .after fun _ => .after fun _ => .when (.after fun _ => .after fun _ =>
    .after fun _ => .pure rfl)

theorem yields_tagDirective (version : Version) :
    Yields (tagDirective version) fun kind => kind.spelling? = none := by
  unfold tagDirective
  exact .after fun _ => .after fun _ => .after fun _ => .when (.after fun _ => .after fun _ =>
    .after fun _ => .pure rfl)

theorem yields_directiveLine (start : Mark) (kind : TokenKind) (hkind : kind.spelling? = none) :
    Yields (directiveLine start kind) fun t => t.kind.spelling? = none := by
  unfold directiveLine
  exact .after fun _ => .when (.after fun _ => .after fun _ => .after fun _ =>
    .when (.after fun _ => .pure hkind))

theorem yields_directive (version : Version) :
    Yields (directive version) fun t => t.kind.spelling? = none := by
  unfold directive
  refine .after fun start => .after fun _ => .after fun name => .when (.after fun _ => ?_)
  split
  · exact yields_versionDirective.bind (yields_directiveLine start)
  · exact (yields_tagDirective version).bind (yields_directiveLine start)
  · have hkind : Yields (pure .otherDirective) fun kind : TokenKind => kind.spelling? = none :=
      .pure rfl
    exact hkind.bind (yields_directiveLine start)

end Scan

/-! ## Lexers -/

namespace Lexer

variable {lx : Lexer}

/-- The lexer reads the text, and what it has read is spelt there. -/
structure Spelt (text : List Char) (lx : Lexer) : Prop where
  follows : lx.cursor.Follows { rest := text }
  tokens : ∀ t ∈ lx.tokens, t.Spelt text

/-- A token is read from where the lexer stands. -/
theorem ensures_scan_at {α : Type} {s : Scan α} {P : α → Prop} (hforward : Scan.Forward s)
    (hs : Ensures (s lx.cursor) fun r => P r.1) : Ensures (lx.scan s) fun r =>
      ∃ cursor, r.2 = { lx with cursor } ∧ cursor.Follows lx.cursor ∧ P r.1 := by
  intro r hr
  unfold Lexer.scan at hr
  cases hc : s lx.cursor with
  | error e =>
    rw [hc] at hr
    cases hr
  | ok b =>
    rw [hc] at hr
    cases hr
    exact ⟨b.2, rfl, hforward _ _ hc, hs _ hc⟩

namespace Spelt

variable (h : lx.Spelt text)

include h

theorem push (ht : t.Spelt text) {cursor : Cursor} (hc : cursor.Follows lx.cursor) :
    Spelt text { lx.push t with cursor } where
  follows := hc.trans h.follows
  tokens := List.forall_mem_cons.mpr ⟨ht, h.tokens⟩

theorem pushMark {kind : TokenKind} (n : Nat) (hkind : kind.spelling? = none) :
    Spelt text (lx.pushMark kind n) :=
  h.push (Token.spelt_of_none hkind) ⟨n, rfl⟩

theorem unwindTo (column : Int) (indent : Int) (indents : List Int) :
    Spelt text (unwindTo column indent indents lx) := by
  induction indents generalizing indent lx with
  | nil => exact { h with }
  | cons outer indents ih =>
    unfold Lexer.unwindTo
    split
    · exact ih (h.pushMark 0 rfl) outer
    · exact { h with }

theorem unwind (column : Int) : Spelt text (lx.unwind column) := by
  unfold Lexer.unwind
  split
  · exact h
  · exact h.unwindTo column _ _

theorem dropStaleKeys : Ensures lx.dropStaleKeys (Spelt text) := by
  unfold Lexer.dropStaleKeys
  exact .guard (.pure { h with })

theorem dropKey : Ensures lx.dropKey fun lx' => lx'.Spelt text ∧ lx'.cursor = lx.cursor := by
  unfold Lexer.dropKey
  exact .guard (.pure ⟨{ h with }, rfl⟩)

theorem noteKey : Ensures lx.noteKey fun lx' => lx'.Spelt text ∧ lx'.cursor = lx.cursor := by
  unfold Lexer.noteKey
  split
  · exact h.dropKey.bind fun lx' h' => .pure ⟨{ h'.1 with }, h'.2⟩
  · exact .pure ⟨h, rfl⟩

/-! ## Reading tokens -/

theorem readStreamEnd : Ensures lx.readStreamEnd (Spelt text) := by
  unfold Lexer.readStreamEnd
  exact (h.unwind _).dropKey.bind fun lx' h' => .pure { h'.1.pushMark 0 rfl with }

/-- What is read from where the lexer stands is the next token. -/
theorem scan {s : Scan Token} (hforward : Scan.Forward s)
    (hs : Ensures (s lx.cursor) fun r => r.1.SpeltAt lx.cursor) :
    Ensures (lx.scan s) fun r => (r.2.push r.1).Spelt text := by
  refine (ensures_scan_at hforward hs).imp fun r hr => ?_
  obtain ⟨cursor, hr', hfollows, ht⟩ := hr
  rw [hr']
  exact h.push (ht.spelt h.follows) hfollows

theorem readDirective : Ensures lx.readDirective (Spelt text) := by
  unfold Lexer.readDirective
  refine (h.unwind _).dropKey.bind fun lx' h' => ?_
  have hlx : Spelt text { lx' with allowKey := false } := { h'.1 with }
  exact (hlx.scan (Scan.reads_directive _).forward (Scan.yields_directive _).speltAt).bind
    fun _ h => .pure { h with }

theorem readDocumentMark {kind : TokenKind} (hkind : kind.spelling? = none) :
    Ensures (lx.readDocumentMark kind) (Spelt text) := by
  unfold Lexer.readDocumentMark
  exact (h.unwind _).dropKey.bind fun lx' h' => .pure { h'.1.pushMark 3 hkind with }

theorem readFlowStart {kind : TokenKind} (hkind : kind.spelling? = none) (sequence : Bool) :
    Ensures (lx.readFlowStart kind sequence) (Spelt text) := by
  unfold Lexer.readFlowStart
  exact h.noteKey.bind fun lx' h' => .pure { h'.1.pushMark 1 hkind with }

theorem readFlowEnd {kind : TokenKind} (hkind : kind.spelling? = none) :
    Ensures (lx.readFlowEnd kind) (Spelt text) := by
  unfold Lexer.readFlowEnd
  exact h.dropKey.bind fun lx' h' => .pure { h'.1.pushMark 1 hkind with }

theorem readFlowEntry : Ensures lx.readFlowEntry (Spelt text) := by
  unfold Lexer.readFlowEntry
  exact h.dropKey.bind fun lx' h' => .pure { h'.1.pushMark 1 rfl with }

theorem openBlock (column : Int) : Spelt text (lx.openBlock column) := { h with }

theorem startBlock {kind : TokenKind} (hkind : kind.spelling? = none) (problem : String) :
    Ensures (lx.startBlock kind problem) (Spelt text) := by
  unfold Lexer.startBlock
  split
  · exact .pure h
  · refine .guard (.pure ?_)
    split
    · exact (h.openBlock _).pushMark 0 hkind
    · exact h

theorem readBlockEntry : Ensures lx.readBlockEntry (Spelt text) := by
  unfold Lexer.readBlockEntry
  refine (h.startBlock rfl _).bind fun lx' h' => ?_
  have hlx : Spelt text { lx' with allowKey := true } := { h' with }
  exact hlx.dropKey.bind fun _ h => .pure (h.1.pushMark 1 rfl)

theorem readKey : Ensures lx.readKey (Spelt text) := by
  unfold Lexer.readKey
  refine (h.startBlock rfl _).bind fun lx' h' => ?_
  have hlx : Spelt text { lx' with allowKey := !lx'.inFlow } := { h' with }
  exact hlx.dropKey.bind fun _ h => .pure (h.1.pushMark 1 rfl)

theorem insertToken (kind : TokenKind) (hkind : kind.spelling? = none) (i : Nat) (mark : Mark) :
    Spelt text (lx.insertToken kind i mark) where
  follows := h.follows
  tokens := by
    intro t ht
    rcases List.eq_or_mem_of_mem_insertIdx ht with rfl | ht
    · exact Token.spelt_of_none hkind
    · exact h.tokens t ht

theorem readValue : Ensures lx.readValue (Spelt text) := by
  unfold Lexer.readValue
  split
  · rename_i key hkey
    have hlx : Spelt text { lx with keys := lx.keys.filter (·.level ≠ lx.flow.length) } :=
      { h with }
    have hkey := hlx.insertToken .key rfl key.tokenIndex key.mark
    refine .pure (pushMark ?_ 1 rfl)
    split
    · have hopen := hkey.openBlock key.mark.column
      have hblock := hopen.insertToken .blockMappingStart rfl key.tokenIndex key.mark
      exact { hblock with }
    · exact { hkey with }
  · refine (h.startBlock rfl _).bind fun lx' h' => ?_
    have hlx : Spelt text { lx' with allowKey := !lx'.inFlow } := { h' with }
    exact hlx.dropKey.bind fun _ h => .pure (h.1.pushMark 1 rfl)

theorem readNode {s : Scan Token} (hforward : Scan.Forward s)
    (hs : Ensures (s lx.cursor) fun r => r.1.SpeltAt lx.cursor) :
    Ensures (lx.readNode s) (Spelt text) := by
  unfold Lexer.readNode
  refine h.noteKey.bind fun lx' h' => ?_
  have hlx : Spelt text { lx' with allowKey := false } := { h'.1 with }
  refine (hlx.scan hforward ?_).bind fun _ h => .pure h
  change Ensures (s lx'.cursor) fun r => r.1.SpeltAt lx'.cursor
  rw [h'.2]
  exact hs

theorem readPlain (hanchor : lx.cursor.peek 0 ≠ '&') (htag : lx.cursor.peek 0 ≠ '!') :
    Ensures lx.readPlain (Spelt text) := by
  unfold Lexer.readPlain
  refine h.noteKey.bind fun lx' h' => ?_
  rw [← h'.2] at hanchor htag
  refine (ensures_scan_at (P := fun r => r.1.SpeltAt lx'.cursor) (Scan.reads_plain _ _ _).forward
    (Scan.spelt_plain _ _ _ hanchor htag)).bind fun r hr => ?_
  obtain ⟨⟨token, ended⟩, lx''⟩ := r
  obtain ⟨cursor, rfl, hfollows, ht⟩ := hr
  exact .pure { h'.1.push (ht.spelt h'.1.follows) hfollows with }

theorem readBlockScalar (folded : Bool) : Ensures (lx.readBlockScalar folded) (Spelt text) := by
  unfold Lexer.readBlockScalar
  have hlx : Spelt text { lx with allowKey := true } := { h with }
  refine hlx.dropKey.bind fun lx' h' => ?_
  exact (h'.1.scan (Scan.reads_block _ _).forward (Scan.yields_block _ _).speltAt).bind
    fun _ h => .pure h

theorem readToken (afterValue : Bool) : Ensures (lx.readToken afterValue) (Spelt text) := by
  unfold Lexer.readToken
  refine .ite h.readStreamEnd fun _ => .ite h.readDirective fun _ => ?_
  refine (Ensures.anyhow _).bind fun _ _ => .ite (h.readDocumentMark rfl) fun _ => ?_
  refine (Ensures.anyhow _).bind fun _ _ => .ite (h.readDocumentMark rfl) fun _ => ?_
  refine .ite (h.readFlowStart rfl _) fun _ => .ite (h.readFlowStart rfl _) fun _ => ?_
  refine .ite (h.readFlowEnd rfl) fun _ => .ite (h.readFlowEnd rfl) fun _ => ?_
  refine .ite h.readFlowEntry fun _ => .ite h.readBlockEntry fun _ => .ite h.readKey fun _ => ?_
  refine .ite h.readValue fun _ => ?_
  have hnovalue : ∀ name, TokenKind.aliasOf name ≠ .value := fun _ => TokenKind.noConfusion
  have hnovalue' : ∀ name, TokenKind.anchor name ≠ .value := fun _ => TokenKind.noConfusion
  refine .cases (fun hc => ?_) fun _ => .cases (fun hc => ?_) fun hanchor => ?_
  · refine h.readNode (Scan.reads_anchor hnovalue).forward (Scan.spelt_anchor ?_ ?_)
    · rw [hc]; decide
    · rintro name P ⟨⟩
  · refine h.readNode (Scan.reads_anchor hnovalue').forward (Scan.spelt_anchor ?_ ?_)
    · rw [hc]; decide
    · rintro name P ⟨⟩ raw hraw
      rwa [hc] at hraw
  refine .cases (fun hc => ?_) fun htag => ?_
  · exact h.readNode (Scan.reads_tag _).forward (Scan.spelt_tag _ hc)
  refine .ite (h.readBlockScalar _) fun _ => .ite (h.readBlockScalar _) fun _ => ?_
  refine .cases (fun hc => ?_) fun _ => .cases (fun hc => ?_) fun _ => ?_
  · exact h.readNode (Scan.reads_quoted _).forward (Scan.spelt_quoted _ hc)
  · exact h.readNode (Scan.reads_quoted _).forward (Scan.spelt_quoted _ hc)
  · exact .ite (h.readPlain hanchor htag) fun _ => .throw _

theorem toNextToken : Ensures lx.toNextToken (Spelt text) := by
  refine ensures_toNextToken.imp fun lx' hlx' => ?_
  obtain ⟨cursor, allowKey, rfl, hfollows⟩ := hlx'
  exact { h with follows := hfollows.trans h.follows }

/-- A step keeps the tokens spelt. -/
theorem step : Ensures lx.step (Spelt text) := by
  unfold Lexer.step
  exact h.toNextToken.bind fun _ h => h.dropStaleKeys.bind fun _ h => (h.unwind _).readToken _

/-- However far a lexer runs, its tokens are spelt. -/
theorem run (fuel sure : Nat) : ∀ t ∈ (Lexer.run fuel sure lx).tokens, t.Spelt text := by
  induction fuel generalizing sure lx with
  | zero => exact fun t ht => h.tokens t (List.mem_reverse.mp ht)
  | succ fuel ih =>
    unfold Lexer.run
    split
    · exact fun t ht => h.tokens t (List.mem_reverse.mp ht)
    · split
      · exact fun t ht => h.tokens t (List.mem_reverse.mp (List.mem_of_mem_take ht))
      · rename_i lx' hlx'
        have h' := h.dropStaleKeys lx' hlx'
        split
        · exact fun t ht => h'.tokens t (List.mem_reverse.mp (List.mem_of_mem_take ht))
        · rename_i next hnext
          exact ih (h'.step next hnext) _

end Spelt

end Lexer

/-- **The tokens of a text are spelt where they stand.** -/
theorem Token.spelt_stream (text : List Char) : ∀ t ∈ (stream text).tokens, t.Spelt text := by
  unfold stream
  split
  · exact Lexer.Spelt.run ⟨.refl _, List.forall_mem_nil _⟩ _ _
  · exact List.forall_mem_nil _

end PackLint.Yaml
