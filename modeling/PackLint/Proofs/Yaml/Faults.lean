import PackLint.Proofs.Yaml.Marks
import PackLint.Proofs.Yaml.Wording
import Mathlib.Data.List.InsertIdx

/-!
# Faults are noticed in the text

Lexer, parser and composer give up at their cursor, or at the start of a token, of an event or of
the place of a key. All of these are marks in the text, which each step keeps.

Results:
* `Token.located_stream`: the tokens of a text, and the fault that ends them.
* `Event.located_stream`: the events of a text, and the fault that ends them.
* `Graph.locates_ofText?`: the nodes of a text, and the error of a text that has none.
-/

namespace PackLint.Yaml

variable {text : List Char}

/-! ## Lexers -/

namespace Lexer

variable {lx : Lexer}

/-- The lexer stands in the text, as do its tokens and the places of its keys. -/
structure Located (text : List Char) (lx : Lexer) : Prop where
  cursor : lx.cursor.In text
  tokens : ∀ t ∈ lx.tokens, t.In text
  keys : ∀ key ∈ lx.keys, key.mark.In text

theorem locates_gaps (inFlow : Bool) (fuel : Nat) (ended : Bool) :
    Scan.Locates text (gaps inFlow fuel ended) fun _ => True := by
  induction fuel generalizing ended with
  | zero => exact .done
  | succ fuel ih =>
    unfold gaps
    refine (Scan.locates_skipWhile _).after fun _ => Scan.locates_skipComment.after fun _ =>
      Scan.locates_lineBreak?.after fun c => ?_
    split
    · exact ih _
    · exact .done

namespace Located

variable (h : lx.Located text)

include h

theorem fail {α : Type} {P : α → Prop} (problem : String) :
    Locates text (lx.fail problem : Except Error α) P :=
  .throw ⟨lx.cursor, h.cursor, rfl⟩

/-- A condition on which the lexer gives up. -/
theorem guard {α : Type} {P : α → Prop} {p : Prop} [Decidable p] {problem : String}
    {rest : PUnit → Except Error α} (hrest : Locates text (rest ()) P) :
    Locates text (if p then lx.fail problem >>= rest else rest ()) P :=
  Locates.guard (e := .malformed problem (some lx.cursor.mark)) ⟨lx.cursor, h.cursor, rfl⟩ hrest

theorem scan {α : Type} {s : Scan α} {post : α → Prop} (hs : Scan.Locates text s post) :
    Locates text (lx.scan s) fun r => r.2.Located text ∧ post r.1 :=
  (hs lx.cursor h.cursor).bind fun _ hr => .pure ⟨{ h with cursor := hr.1 }, hr.2⟩

theorem push {t : Token} (ht : t.In text) : (lx.push t).Located text :=
  { h with tokens := List.forall_mem_cons.mpr ⟨ht, h.tokens⟩ }

theorem pushMark (kind : TokenKind) (n : Nat) : (lx.pushMark kind n).Located text := by
  have hcursor : (lx.cursor.skip n).In text := Cursor.Follows.trans ⟨n, rfl⟩ h.cursor
  have ht : Token.In text ⟨kind, lx.cursor.mark, (lx.cursor.skip n).mark⟩ :=
    ⟨⟨_, h.cursor, rfl⟩, ⟨_, hcursor, rfl⟩⟩
  exact { h.push ht with cursor := hcursor }

theorem filterKeys (p : SimpleKey → Bool) : Located text { lx with keys := lx.keys.filter p } :=
  { h with keys := fun key hkey => h.keys key (List.mem_filter.mp hkey).1 }

theorem unwindTo (column : Int) (indent : Int) (indents : List Int) :
    (unwindTo column indent indents lx).Located text := by
  induction indents generalizing indent lx with
  | nil => exact { h with }
  | cons outer indents ih =>
    unfold Lexer.unwindTo
    split
    · exact ih (h.pushMark _ 0) outer
    · exact { h with }

theorem unwind (column : Int) : (lx.unwind column).Located text := by
  unfold Lexer.unwind
  split
  · exact h
  · exact h.unwindTo column _ _

theorem dropStaleKeys : Locates text lx.dropStaleKeys (Located text) := by
  unfold Lexer.dropStaleKeys
  exact h.guard (.pure (h.filterKeys _))

theorem dropKey : Locates text lx.dropKey (Located text) := by
  unfold Lexer.dropKey
  exact h.guard (.pure (h.filterKeys _))

theorem noteKey : Locates text lx.noteKey (Located text) := by
  unfold Lexer.noteKey
  split
  · refine h.dropKey.bind fun lx' h' => .pure { h' with keys := ?_ }
    exact List.forall_mem_append.mpr
      ⟨h'.keys, List.forall_mem_singleton.mpr ⟨_, h'.cursor, rfl⟩⟩
  · exact .pure h

/-! ### Reading tokens -/

theorem readStreamEnd : Locates text lx.readStreamEnd (Located text) := by
  unfold Lexer.readStreamEnd
  exact (h.unwind _).dropKey.bind fun lx' h' =>
    .pure { h'.pushMark _ 0 with keys := List.forall_mem_nil _ }

theorem readDirective : Locates text lx.readDirective (Located text) := by
  unfold Lexer.readDirective
  refine (h.unwind _).dropKey.bind fun lx' h' => ?_
  have hlx : Located text { lx' with allowKey := false } := { h' with }
  exact (hlx.scan (Scan.locates_directive _)).bind fun _ hr => .pure { hr.1.push hr.2 with }

theorem readDocumentMark (kind : TokenKind) :
    Locates text (lx.readDocumentMark kind) (Located text) := by
  unfold Lexer.readDocumentMark
  exact (h.unwind _).dropKey.bind fun lx' h' => .pure { h'.pushMark kind 3 with }

theorem readFlowStart (kind : TokenKind) (sequence : Bool) :
    Locates text (lx.readFlowStart kind sequence) (Located text) := by
  unfold Lexer.readFlowStart
  exact h.noteKey.bind fun lx' h' => .pure { h'.pushMark kind 1 with }

theorem readFlowEnd (kind : TokenKind) : Locates text (lx.readFlowEnd kind) (Located text) := by
  unfold Lexer.readFlowEnd
  exact h.dropKey.bind fun lx' h' => .pure { h'.pushMark kind 1 with }

theorem readFlowEntry : Locates text lx.readFlowEntry (Located text) := by
  unfold Lexer.readFlowEntry
  exact h.dropKey.bind fun lx' h' => .pure { h'.pushMark _ 1 with }

theorem openBlock (column : Int) : (lx.openBlock column).Located text := { h with }

theorem startBlock (kind : TokenKind) (problem : String) :
    Locates text (lx.startBlock kind problem) (Located text) := by
  unfold Lexer.startBlock
  split
  · exact .pure h
  · refine h.guard (.pure ?_)
    split
    · exact (h.openBlock _).pushMark kind 0
    · exact h

theorem readBlockEntry : Locates text lx.readBlockEntry (Located text) := by
  unfold Lexer.readBlockEntry
  refine (h.startBlock _ _).bind fun lx' h' => ?_
  have hlx : Located text { lx' with allowKey := true } := { h' with }
  exact hlx.dropKey.bind fun _ h => .pure (h.pushMark _ 1)

theorem readKey : Locates text lx.readKey (Located text) := by
  unfold Lexer.readKey
  refine (h.startBlock _ _).bind fun lx' h' => ?_
  have hlx : Located text { lx' with allowKey := !lx'.inFlow } := { h' with }
  exact hlx.dropKey.bind fun _ h => .pure (h.pushMark _ 1)

theorem insertToken (kind : TokenKind) (i : Nat) {mark : Mark} (hmark : mark.In text) :
    (lx.insertToken kind i mark).Located text := by
  refine { h with tokens := fun t ht => ?_ }
  rcases List.eq_or_mem_of_mem_insertIdx ht with rfl | ht
  · exact ⟨hmark, hmark⟩
  · exact h.tokens t ht

theorem readValue : Locates text lx.readValue (Located text) := by
  unfold Lexer.readValue
  split
  · rename_i key hkey
    have hmark := h.keys key (List.mem_of_find?_eq_some hkey)
    have hinsert := (h.filterKeys (·.level ≠ lx.flow.length)).insertToken .key key.tokenIndex hmark
    refine .pure (pushMark ?_ _ 1)
    split
    · have hopen := hinsert.openBlock key.mark.column
      exact { hopen.insertToken .blockMappingStart key.tokenIndex hmark with }
    · exact { hinsert with }
  · refine (h.startBlock _ _).bind fun lx' h' => ?_
    have hlx : Located text { lx' with allowKey := !lx'.inFlow } := { h' with }
    exact hlx.dropKey.bind fun _ h => .pure (h.pushMark _ 1)

theorem readNode {s : Scan Token} (hs : Scan.Locates text s fun t => t.In text) :
    Locates text (lx.readNode s) (Located text) := by
  unfold Lexer.readNode
  refine h.noteKey.bind fun lx' h' => ?_
  have hlx : Located text { lx' with allowKey := false } := { h' with }
  exact (hlx.scan hs).bind fun _ hr => .pure (hr.1.push hr.2)

theorem readPlain : Locates text lx.readPlain (Located text) := by
  unfold Lexer.readPlain
  exact h.noteKey.bind fun lx' h' => (h'.scan (Scan.locates_plain _ _ _)).bind fun _ hr =>
    .pure { hr.1.push hr.2 with }

theorem readBlockScalar (folded : Bool) :
    Locates text (lx.readBlockScalar folded) (Located text) := by
  unfold Lexer.readBlockScalar
  have hlx : Located text { lx with allowKey := true } := { h with }
  exact hlx.dropKey.bind fun lx' h' => (h'.scan (Scan.locates_block _ _)).bind fun _ hr =>
    .pure (hr.1.push hr.2)

theorem readToken (afterValue : Bool) : Locates text (lx.readToken afterValue) (Located text) := by
  have hmark : ∀ c, Locates text (do return (lx.cursor.mark.column = 0 : Bool) &&
      (← lx.scan (Scan.atDocumentMark c)).1) fun _ => True := fun c =>
    (h.scan (Scan.locates_atDocumentMark c)).bind fun _ _ => .pure trivial
  unfold Lexer.readToken
  refine .ite h.readStreamEnd (.ite h.readDirective ?_)
  refine (hmark _).bind fun _ _ => .ite (h.readDocumentMark _) ?_
  refine (hmark _).bind fun _ _ => .ite (h.readDocumentMark _) ?_
  refine .ite (h.readFlowStart _ _) (.ite (h.readFlowStart _ _) ?_)
  refine .ite (h.readFlowEnd _) (.ite (h.readFlowEnd _) (.ite h.readFlowEntry ?_))
  refine .ite h.readBlockEntry (.ite h.readKey (.ite h.readValue ?_))
  refine .ite (h.readNode (Scan.locates_anchor _)) (.ite (h.readNode (Scan.locates_anchor _)) ?_)
  refine .ite (h.readNode (Scan.locates_tag _)) ?_
  refine .ite (h.readBlockScalar _) (.ite (h.readBlockScalar _) ?_)
  refine .ite (h.readNode (Scan.locates_quoted _)) (.ite (h.readNode (Scan.locates_quoted _)) ?_)
  exact .ite h.readPlain (h.fail _)

theorem toNextToken : Locates text lx.toNextToken (Located text) := by
  unfold Lexer.toNextToken
  have hstart : Scan.Locates text (do
      if (← Scan.mark).index = 0 ∧ (← Scan.peek) = '\uFEFF' then Scan.skip 1) fun _ => True := by
    refine Scan.locates_mark.after fun _ => Scan.locates_peek.after fun _ => ?_
    split
    · exact Scan.locates_skip 1
    · exact .done
  refine (h.scan (hstart.after fun _ => Scan.locates_size.after fun n =>
    locates_gaps lx.inFlow (n + 1) false)).bind fun r hr => .pure ?_
  split
  · exact { hr.1 with }
  · exact hr.1

/-- A step keeps the lexer and what it has read in the text. -/
theorem step : Locates text lx.step (Located text) := by
  unfold Lexer.step
  exact h.toNextToken.bind fun _ h => h.dropStaleKeys.bind fun _ h => (h.unwind _).readToken _

end Located

end Lexer

/-- The tokens stand in the text, and the fault that ends them was noticed there. -/
structure TokenStream.Located (text : List Char) (stream : TokenStream) : Prop where
  tokens : ∀ t ∈ stream.tokens, t.In text
  fault : ∀ e ∈ stream.fault, e.In text

theorem TokenStream.Located.unfailing {tokens : List Token} (h : ∀ t ∈ tokens, t.In text) :
    Located text ⟨tokens, none⟩ :=
  ⟨h, fun e he => absurd he (Option.not_mem_none e)⟩

/-- However far a lexer runs, its tokens and its fault are in the text. -/
theorem Lexer.Located.run {lx : Lexer} (h : lx.Located text) (fuel sure : Nat) :
    (Lexer.run fuel sure lx).Located text := by
  induction fuel generalizing sure lx with
  | zero => exact .unfailing fun t ht => h.tokens t (List.mem_reverse.mp ht)
  | succ fuel ih =>
    unfold Lexer.run
    split
    · exact .unfailing fun t ht => h.tokens t (List.mem_reverse.mp ht)
    · split
      · rename_i e he
        refine ⟨fun t ht => h.tokens t (List.mem_reverse.mp (List.mem_of_mem_take ht)), ?_⟩
        rintro _ ⟨⟩
        exact h.dropStaleKeys.2 e he
      · rename_i lx' hlx'
        have h' := h.dropStaleKeys.1 lx' hlx'
        split
        · rename_i e he
          refine ⟨fun t ht => h'.tokens t (List.mem_reverse.mp (List.mem_of_mem_take ht)), ?_⟩
          rintro _ ⟨⟩
          exact h'.step.2 e he
        · rename_i next hnext
          exact ih (h'.step.1 next hnext) _

/-- **The tokens of a text stand in it, and the fault that ends them was noticed there.** -/
theorem Token.located_stream (text : List Char) : (stream text).Located text := by
  unfold stream
  split
  · have hcursor : Cursor.In text { rest := text } := .refl _
    exact Lexer.Located.run ⟨hcursor, List.forall_mem_nil _, List.forall_mem_nil _⟩ _ _
  · refine ⟨List.forall_mem_nil _, ?_⟩
    rintro _ ⟨⟩
    trivial

/-! ## Parsers -/

/-- The event starts and ends in the text. -/
structure Event.In (text : List Char) (e : Event) : Prop where
  start : e.start.In text
  stop : e.stop.In text

namespace Parser

variable {p : Parser}

/-- The tokens that the parser has yet to read are in the text, and so is their fault. -/
structure Located (text : List Char) (p : Parser) : Prop where
  tokens : ∀ t ∈ p.tokens, t.In text
  fault : ∀ e ∈ p.fault, e.In text

/-- An event in the text, and a parser that reads on. -/
structure Gives (text : List Char) (r : Event × Parser) : Prop where
  event : r.1.In text
  parser : r.2.Located text

/-- The properties of a node start and end in the text. -/
def Properties.In (text : List Char) (props : Properties) : Prop :=
  ∀ span ∈ props.span, span.1.In text ∧ span.2.In text

theorem locates_fail {α : Type} {P : α → Prop} {t : Token} (ht : t.In text) (problem : String) :
    Locates text (Parser.fail problem t : Except Error α) P := .throw ht.start

theorem locates_expandTag {t : Token} (ht : t.In text) (handle : Option String) (suffix : String) :
    Locates text (p.expandTag t handle suffix) fun _ => True := by
  unfold Parser.expandTag
  split
  · exact .pure trivial
  · split
    · exact .pure trivial
    · exact .throw ht.start

namespace Located

variable (h : p.Located text)

include h

theorem peek : Locates text p.peek fun t => t.In text := by
  unfold Parser.peek
  split
  · rename_i t ts hts
    exact .pure (h.tokens t (hts ▸ List.mem_cons_self))
  · refine .throw ?_
    cases hfault : p.fault with
    | none => trivial
    | some e => exact h.fault e hfault

theorem nextIs (kinds : List TokenKind) : Locates text (p.nextIs kinds) fun _ => True :=
  h.peek.bind fun _ _ => .pure trivial

theorem advance : p.advance.Located text :=
  { h with tokens := fun t ht => h.tokens t (List.mem_of_mem_drop ht) }

theorem finish : p.finish.Located text := by
  unfold Parser.finish
  split
  · exact { h with }
  · exact { h with }

theorem emitEmpty {mark : Mark} (hmark : mark.In text) (e : Expectation) :
    Gives text (p.emitEmpty mark e) :=
  ⟨⟨hmark, hmark⟩, { h with }⟩

/-! ### Nodes -/

theorem readProperties :
    Locates text p.readProperties fun r => r.1.In text ∧ r.2.Located text := by
  have hspan : ∀ {anchor tag : Option String} {m m' : Mark}, m.In text → m'.In text →
      Properties.In text ⟨anchor, tag, some (m, m')⟩ := by
    rintro _ _ m m' hm hm' _ ⟨⟩
    exact ⟨hm, hm'⟩
  unfold Parser.readProperties
  refine h.peek.bind fun t ht => ?_
  split
  · refine h.advance.peek.bind fun u hu => ?_
    split
    · exact (locates_expandTag hu _ _).bind fun _ _ =>
        .pure ⟨hspan ht.start hu.stop, h.advance.advance⟩
    · exact .pure ⟨hspan ht.start ht.stop, h.advance⟩
  · refine h.advance.peek.bind fun u hu => ?_
    split
    · exact (locates_expandTag hu _ _).bind fun _ _ =>
        .pure ⟨hspan hu.start hu.stop, h.advance.advance⟩
    · exact (locates_expandTag ht _ _).bind fun _ _ =>
        .pure ⟨hspan ht.start ht.stop, h.advance⟩
  · exact .pure ⟨nofun, h⟩

theorem readContent {props : Properties} (hprops : props.In text) (inBlock indentless : Bool) :
    Locates text (p.readContent inBlock indentless props) (Gives text) := by
  unfold Parser.readContent
  refine h.peek.bind fun t ht => ?_
  extract_lets start bare next opened empty
  have hstart : start.In text := by
    unfold start
    cases hspan : props.span with
    | none => exact ht.start
    | some span => exact (hprops span hspan).1
  have hempty : Locates text (empty ()) (Gives text) := by
    unfold empty
    split
    · rename_i first last hspan
      obtain ⟨hfirst, hlast⟩ := hprops _ hspan
      exact .pure ⟨⟨hfirst, hlast⟩, h.finish⟩
    · exact locates_fail ht _
  have hopened : ∀ kind e, Gives text (opened kind e) := fun _ _ =>
    ⟨⟨hstart, ht.stop⟩, { h.advance with }⟩
  split
  · exact .ite (.pure ⟨⟨hstart, ht.stop⟩, { h with }⟩) hempty
  · exact .pure ⟨⟨hstart, ht.stop⟩, h.advance.finish⟩
  · exact .pure (hopened _ _)
  · exact .pure (hopened _ _)
  · exact .ite (.pure (hopened _ _)) hempty
  · exact .ite (.pure (hopened _ _)) hempty
  · exact hempty

theorem readNode (inBlock indentless : Bool) :
    Locates text (p.readNode inBlock indentless) (Gives text) := by
  unfold Parser.readNode
  refine h.peek.bind fun t ht => ?_
  split
  · exact .pure ⟨⟨ht.start, ht.stop⟩, h.advance.finish⟩
  · exact h.readProperties.bind fun r hr => hr.2.readContent hr.1 _ _

theorem readNodeThen (inBlock indentless : Bool) (e : Expectation) :
    Locates text (p.readNodeThen inBlock indentless e) (Gives text) :=
  readNode (p := { p with pending := e :: p.pending }) { h with } inBlock indentless

/-! ### Documents -/

theorem readDirectives (fuel : Nat) (version : Option Version) :
    Locates text (readDirectives fuel version p) (Located text) := by
  induction fuel generalizing version p with
  | zero => exact .pure h
  | succ fuel ih =>
    unfold Parser.readDirectives
    have hnext : ∀ handles version, Located text { p.advance with handles, version } :=
      fun _ _ => { h.advance with }
    refine h.peek.bind fun t ht => ?_
    split
    · exact .guard ht.start (.guard ht.start (ih (hnext _ _) _))
    · exact .guard ht.start (ih (hnext _ _) _)
    · exact ih h.advance _
    · exact .pure h

theorem skipDocumentEnds : p.skipDocumentEnds.Located text :=
  { h with tokens := fun t ht => h.tokens t ((List.dropWhile_sublist _).subset ht) }

theorem readExplicitStart : Locates text p.readExplicitStart (Gives text) := by
  have hends := h.skipDocumentEnds
  unfold Parser.readExplicitStart
  refine hends.peek.bind fun t ht =>
    .ite (.pure ⟨⟨ht.start, ht.stop⟩, { hends.advance with }⟩) ?_
  have hbare : Located text { p.skipDocumentEnds with handles := [] } := { hends with }
  refine (hbare.readDirectives _ _).bind fun q hq => ?_
  have hq : Located text { q with handles := q.handles ++ defaultHandles } := { hq with }
  refine hq.peek.bind fun u hu => ?_
  split
  · exact (locates_fail hu _ : Locates text _ fun _ => False).bind fun _ h => h.elim
  · exact .pure ⟨⟨hu.start, hu.stop⟩, { hq.advance with }⟩

theorem readStart : Locates text p.readStart (Gives text) := by
  unfold Parser.readStart
  exact h.peek.bind fun t ht => .ite h.readExplicitStart
    (.pure ⟨⟨ht.start, ht.start⟩, { h with }⟩)

theorem readEnd : Locates text p.readEnd (Gives text) := by
  unfold Parser.readEnd
  exact h.peek.bind fun t ht => .ite (.pure ⟨⟨ht.start, ht.stop⟩, { h.advance with }⟩)
    (.pure ⟨⟨ht.start, ht.start⟩, { h with }⟩)

theorem readDocumentContent : Locates text p.readDocumentContent (Gives text) := by
  unfold Parser.readDocumentContent
  exact h.peek.bind fun t ht => .ite (.pure ⟨⟨ht.start, ht.start⟩, h.finish⟩) (h.readNode _ _)

/-! ### Collections -/

/-- Behind an indicator stands a node or nothing. -/
theorem readIndicated (kinds : List TokenKind) {mark : Mark} (hmark : mark.In text)
    (inBlock indentless : Bool) (e : Expectation) : Locates text (do
      if ← p.advance.nextIs kinds then return p.advance.emitEmpty mark e
      else p.advance.readNodeThen inBlock indentless e) (Gives text) :=
  (h.advance.nextIs kinds).bind fun _ _ => .ite (.pure (h.advance.emitEmpty hmark _))
    (h.advance.readNodeThen _ _ _)

/-- The end of a collection. -/
theorem emitEnd {t : Token} (ht : t.In text) (kind : EventKind) :
    Gives text (p.advance.finish.emit kind t.start t.stop) :=
  ⟨⟨ht.start, ht.stop⟩, h.advance.finish⟩

theorem readBlockSequenceEntry : Locates text p.readBlockSequenceEntry (Gives text) := by
  unfold Parser.readBlockSequenceEntry
  exact h.peek.bind fun t ht => .ite (h.readIndicated _ ht.stop _ _ _)
    (.ite (.pure (h.emitEnd ht _)) (locates_fail ht _))

theorem readIndentlessEntry : Locates text p.readIndentlessEntry (Gives text) := by
  unfold Parser.readIndentlessEntry
  exact h.peek.bind fun t ht => .ite (h.readIndicated _ ht.stop _ _ _)
    (.pure ⟨⟨ht.start, ht.start⟩, h.finish⟩)

theorem readBlockMappingKey : Locates text p.readBlockMappingKey (Gives text) := by
  unfold Parser.readBlockMappingKey
  exact h.peek.bind fun t ht => .ite (h.readIndicated _ ht.stop _ _ _)
    (.ite (.pure (h.emitEmpty ht.start _)) (.ite (.pure (h.emitEnd ht _)) (locates_fail ht _)))

theorem readBlockMappingValue : Locates text p.readBlockMappingValue (Gives text) := by
  unfold Parser.readBlockMappingValue
  exact h.peek.bind fun t ht => .ite (h.readIndicated _ ht.stop _ _ _)
    (.pure (h.emitEmpty ht.start _))

theorem afterComma (first : Bool) (closing : String) :
    Locates text (p.afterComma first closing) (Located text) := by
  unfold Parser.afterComma
  refine .ite (.pure h) (h.peek.bind fun t ht => ?_)
  split
  · exact (locates_fail ht _ : Locates text _ fun _ => False).bind fun _ h => h.elim
  · exact .pure h.advance

theorem atEntry (first : Bool) (ending : TokenKind) (closing : String) :
    Locates text (p.atEntry first ending closing) (Located text) := by
  unfold Parser.atEntry
  exact h.peek.bind fun _ _ => .ite (.pure h) (h.afterComma _ _)

theorem flowSequenceEntryHere : Locates text p.flowSequenceEntryHere (Gives text) := by
  unfold Parser.flowSequenceEntryHere
  exact h.peek.bind fun t ht => .ite (.pure (h.emitEnd ht _))
    (.ite (.pure ⟨⟨ht.start, ht.stop⟩, { h with }⟩) (h.readNodeThen _ _ _))

theorem readFlowSequenceEntry (first : Bool) :
    Locates text (p.readFlowSequenceEntry first) (Gives text) := by
  rw [readFlowSequenceEntry_eq]
  exact (h.atEntry _ _ _).bind fun _ hq => hq.flowSequenceEntryHere

theorem readFlowPairKey : Locates text p.readFlowPairKey (Gives text) := by
  unfold Parser.readFlowPairKey
  exact h.peek.bind fun t ht => h.readIndicated _ ht.stop _ _ _

theorem readFlowPairValue : Locates text p.readFlowPairValue (Gives text) := by
  unfold Parser.readFlowPairValue
  exact h.peek.bind fun t ht => .ite (h.readIndicated _ ht.stop _ _ _)
    (.pure (h.emitEmpty ht.start _))

theorem readFlowPairEnd : Locates text p.readFlowPairEnd (Gives text) := by
  unfold Parser.readFlowPairEnd
  exact h.peek.bind fun t ht => .pure ⟨⟨ht.start, ht.start⟩, { h with }⟩

theorem flowMappingKeyHere : Locates text p.flowMappingKeyHere (Gives text) := by
  unfold Parser.flowMappingKeyHere
  exact h.peek.bind fun t ht => .ite (.pure (h.emitEnd ht _))
    (.ite (h.readIndicated _ ht.stop _ _ _)
      (.ite (.pure (h.emitEmpty ht.stop _)) (h.readNodeThen _ _ _)))

theorem readFlowMappingKey (first : Bool) :
    Locates text (p.readFlowMappingKey first) (Gives text) := by
  rw [readFlowMappingKey_eq]
  exact (h.atEntry _ _ _).bind fun _ hq => hq.flowMappingKeyHere

theorem readFlowMappingValue : Locates text p.readFlowMappingValue (Gives text) := by
  unfold Parser.readFlowMappingValue
  exact h.peek.bind fun t ht => .ite (h.readIndicated _ ht.stop _ _ _)
    (.pure (h.emitEmpty ht.start _))

/-! ### Runs -/

/-- **The next event is in the text**, or the reason why there is none. -/
theorem step : Locates text p.step (Gives text) := by
  unfold Parser.step
  cases p.expected with
  | documentStart explicitly =>
    cases explicitly with
    | false => exact h.readStart
    | true => exact h.readExplicitStart
  | documentContent => exact h.readDocumentContent
  | documentEnd => exact h.readEnd
  | node => exact h.readNode _ _
  | blockSequenceEntry => exact h.readBlockSequenceEntry
  | indentlessSequenceEntry => exact h.readIndentlessEntry
  | blockMappingKey => exact h.readBlockMappingKey
  | blockMappingValue => exact h.readBlockMappingValue
  | flowSequenceEntry first => exact h.readFlowSequenceEntry first
  | flowPairKey => exact h.readFlowPairKey
  | flowPairValue => exact h.readFlowPairValue
  | flowPairEnd => exact h.readFlowPairEnd
  | flowMappingKey first => exact h.readFlowMappingKey first
  | flowMappingValue => exact h.readFlowMappingValue
  | flowMappingNoValue => exact h.peek.bind fun t ht => .pure (h.emitEmpty ht.start _)
  | nothing => exact .throw trivial

end Located

end Parser

/-- The events stand in the text, and the fault that ends them was noticed there. -/
structure EventStream.Located (text : List Char) (stream : EventStream) : Prop where
  events : ∀ e ∈ stream.events, e.In text
  fault : ∀ e ∈ stream.fault, e.In text

theorem EventStream.Located.unfailing {events : List Event} (h : ∀ e ∈ events, e.In text) :
    Located text ⟨events, none⟩ :=
  ⟨h, fun e he => absurd he (Option.not_mem_none e)⟩

/-- However far a parser runs, its events and its fault are in the text. -/
theorem Parser.Located.run {p : Parser} (h : p.Located text) (fuel : Nat) {before : List Event}
    (hbefore : ∀ e ∈ before, e.In text) : (Parser.run fuel before p).Located text := by
  have hdone : ∀ e ∈ before.reverse, e.In text := fun e he => hbefore e (List.mem_reverse.mp he)
  induction fuel generalizing before p with
  | zero => exact .unfailing hdone
  | succ fuel ih =>
    unfold Parser.run
    split
    · exact .unfailing hdone
    · split
      · rename_i fault hfault
        refine ⟨hdone, ?_⟩
        rintro _ ⟨⟩
        exact h.step.2 fault hfault
      · rename_i e q hstep
        have hq := h.step.1 _ hstep
        have hcons := List.forall_mem_cons.mpr ⟨hq.event, hbefore⟩
        exact ih hq.parser hcons fun e he => hcons e (List.mem_reverse.mp he)

/-- **The events of a text stand in it, and the fault that ends them was noticed there.** -/
theorem Event.located_stream (text : List Char) : (stream text).Located text := by
  obtain ⟨htokens, hfault⟩ := Token.located_stream text
  exact Parser.Located.run ⟨htokens, hfault⟩ _ (List.forall_mem_nil _)

/-! ## Graphs -/

namespace Composer

variable {c : Composer}

/-- The nodes of the composer start in the text. -/
def Located (text : List Char) (c : Composer) : Prop := ∀ x ∈ c.nodes, x.start.In text

theorem Located.push (h : c.Located text) {x : PlacedNode} (hx : x.start.In text) :
    ∀ y ∈ c.nodes.push x, y.start.In text := by
  intro y hy
  rcases Array.mem_push.mp hy with hy | rfl
  · exact h y hy
  · exact hx

theorem Located.closeNode (h : c.Located text) (stop : Mark) : (c.closeNode stop).Located text := by
  unfold Composer.closeNode
  split
  · exact h
  · intro x hx
    rw [nodes_attach] at hx
    obtain ⟨i, hi⟩ := Array.mem_iff_getElem?.mp hx
    rw [Array.getElem?_modify] at hi
    split at hi
    · -- A collection that is over starts where it did.
      obtain ⟨y, hy, rfl⟩ := Option.map_eq_some_iff.mp hi
      exact h y (Array.mem_of_getElem? hy)
    · exact h x (Array.mem_of_getElem? hi)

theorem locates_scalarTag (version : Version) (tag : Option String) (decidedByText : Bool)
    (s : List Char) : Locates text (scalarTag version tag decidedByText s) fun _ => True := by
  unfold scalarTag
  split
  · split
    · exact .pure trivial
    · exact .throw trivial
  · exact .pure trivial

/-- What an event adds is in the text. -/
theorem Located.step {e : Event} (h : c.Located text) (he : e.In text) :
    Locates text (c.step e) (Located text) := by
  unfold Composer.step
  cases e.kind with
  | documentStart => exact .guard he.start (.pure h)
  | documentEnd => exact .pure h
  | streamEnd => exact .pure h
  | aliasOf name =>
    simp only
    split
    · refine .pure fun x hx => h x ?_
      rwa [nodes_attach] at hx
    · exact .throw he.start
  | scalar anchor tag decided s style =>
    refine (locates_scalarTag _ _ _ _).bind fun t _ => .pure fun x hx => ?_
    rw [nodes_attach] at hx
    exact h.push (x := ⟨.scalar t s style, e.start, e.stop⟩) he.start x hx
  | sequenceStart anchor => exact .pure (h.push he.start)
  | mappingStart anchor => exact .pure (h.push he.start)
  | sequenceEnd => exact .pure (h.closeNode _)
  | mappingEnd => exact .pure (h.closeNode _)

theorem Located.foldlM {events : List Event} (h : c.Located text)
    (hevents : ∀ e ∈ events, e.In text) :
    Locates text (events.foldlM (fun (c : Composer) e => c.step e) c) (Located text) := by
  induction events generalizing c with
  | nil => exact .pure h
  | cons e events ih =>
    obtain ⟨he, hevents⟩ := List.forall_mem_cons.mp hevents
    rw [List.foldlM_cons]
    exact (h.step he).bind fun c' h' => ih h' hevents

end Composer

/-- **The nodes of a text start in it, and the error of a text that has none was noticed there.** -/
theorem Graph.locates_ofText? (text : List Char) :
    Locates text (ofText? text) fun g? => ∀ g ∈ g?, ∀ x ∈ g.nodes, x.start.In text := by
  obtain ⟨hevents, hfault⟩ := Event.located_stream text
  have hfirst : Composer.Located text {} := fun x hx => absurd hx (Array.not_mem_empty x)
  unfold ofText?
  refine (hfirst.foldlM hevents).bind fun c hc => ?_
  split
  · rename_i e he
    exact .throw (hfault e he)
  · refine .pure fun g hg => ?_
    obtain ⟨root, -, rfl⟩ := Option.map_eq_some_iff.mp hg
    exact hc

end PackLint.Yaml
