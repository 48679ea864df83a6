import PackLint.Proofs.SkillLine.Hidden

/-!
# Configured names with a closed block

A name with a closed block is read from its escaped text (`_parse_block`), where the tokenizer knows
no quotes. It reads the same from it as from the line: the block is cut at the marks outside of
quotes, each stretch is trimmed and split there, and the tokens stand where the stretches stand in
the line.

Results:
* `SkillLine.HoldsAt.reading`: a piece of an escaped body says what the stretch of the line says.
* `LineConfig.parse_escape`: a configuration with a closed block is read as its body is directly.
-/

namespace PackLint

namespace SkillLine

/-! ## Stretches of the escaped line -/

/-- A stretch of the line outside of quotes: it starts at index `i` of the line and at index `k` of
the escaped text. -/
structure HoldsAt (line escaped : List Char) (i k : Nat) (seg : List Char) : Prop where
  /-- No quotation is open behind the stretch, as none is in front. -/
  bare : quoteOver none seg = none
  /-- What is in front of the stretch and behind it is escaped somehow. -/
  split : ∃ front rest hiddenFront hiddenRest,
    line = front ++ seg ++ rest ∧ escaped = hiddenFront ++ hideFrom none seg ++ hiddenRest ∧
      EscapesTo front hiddenFront ∧ EscapesTo rest hiddenRest ∧
      front.length = i ∧ hiddenFront.length = k

theorem eq_nil_of_hideFrom {cs : List Char} (h : hideFrom none cs = []) : cs = [] := by
  cases cs with
  | nil => rfl
  | cons c cs =>
    obtain ⟨hc, -⟩ := List.append_eq_nil_iff.mp h
    rcases hidesAs_hide none c with hkept | hs
    · rw [hc] at hkept
      cases hkept
    · rw [hc] at hs
      exact absurd (length_sentinel_pos hs) (Nat.lt_irrefl 0)

namespace HoldsAt

variable {line escaped seg : List Char} {i k : Nat}

/-- Both halves of a stretch that is outside of quotes between them. -/
theorem of_append {a b : List Char} (h : HoldsAt line escaped i k (a ++ b))
    (ha : quoteOver none a = none) :
    HoldsAt line escaped i k a ∧
      HoldsAt line escaped (i + a.length) (k + (hideFrom none a).length) b := by
  obtain ⟨front, rest, hiddenFront, hiddenRest, hline, hescaped, hfront, hrest, rfl, rfl⟩ :=
    h.split
  have hb := h.bare
  rw [quoteOver_append, ha] at hb
  rw [hideFrom_append, ha] at hescaped
  refine ⟨⟨ha, front, b ++ rest, hiddenFront, hideFrom none b ++ hiddenRest, ?_, ?_, hfront,
    (EscapesTo.hideFrom none b).append hrest, rfl, rfl⟩, ⟨hb, front ++ a, rest,
    hiddenFront ++ hideFrom none a, hiddenRest, ?_, ?_, hfront.append (EscapesTo.hideFrom none a),
    hrest, List.length_append, List.length_append⟩⟩
  · rw [hline]
    simp only [List.append_assoc]
  · rw [hescaped]
    simp only [List.append_assoc]
  · rw [hline]
    simp only [List.append_assoc]
  · rw [hescaped]
    simp only [List.append_assoc]

theorem slice (h : HoldsAt line escaped i k seg) :
    (escaped.take (k + (hideFrom none seg).length)).drop k = hideFrom none seg := by
  obtain ⟨front, rest, hiddenFront, hiddenRest, -, rfl, -, -, -, rfl⟩ := h.split
  rw [← List.length_append, List.take_left, List.drop_left]

theorem plain (h : HoldsAt line escaped i k seg) (hplain : Plain line) : Plain seg := by
  obtain ⟨front, rest, hiddenFront, hiddenRest, rfl, -⟩ := h.split
  exact hplain.of_infix ⟨front, rest, rfl⟩

theorem sourceOffset_start (h : HoldsAt line escaped i k seg) (hplain : Plain line)
    (offset : Int) :
    sourceOffset escaped offset k = offset + i := by
  obtain ⟨front, rest, hiddenFront, hiddenRest, rfl, rfl, hfront, hrest, rfl, rfl⟩ := h.split
  rw [List.append_assoc] at hplain ⊢
  rw [sourceOffset,
    hfront.sourceCount_eq ((EscapesTo.hideFrom none seg).append hrest) hplain, Int.add_comm]

theorem sourceOffset_stop (h : HoldsAt line escaped i k seg) (hplain : Plain line)
    (offset : Int) :
    sourceOffset escaped offset (k + (hideFrom none seg).length) =
      (Stretch.mk (offset + i) seg).stop := by
  obtain ⟨front, rest, hiddenFront, hiddenRest, rfl, rfl, hfront, hrest, rfl, rfl⟩ := h.split
  rw [← List.length_append, sourceOffset,
    (hfront.append (EscapesTo.hideFrom none seg)).sourceCount_eq hrest hplain, Stretch.stop,
    List.length_append]
  simp only
  omega

/-- The token over a stretch is the stretch. -/
theorem covering (h : HoldsAt line escaped i k seg) (hplain : Plain line)
    (offset : Int) :
    LineToken.covering escaped offset k (k + (hideFrom none seg).length) =
      (Stretch.mk (offset + i) seg).token := by
  rw [LineToken.covering, h.slice, h.sourceOffset_start hplain, h.sourceOffset_stop hplain,
    (EscapesTo.hideFrom none seg).unescape_eq (h.plain hplain)]
  rfl

/-- The token of a mark. -/
theorem mark {x : Char} (h : HoldsAt line escaped i k [x]) (hplain : Plain line) (offset : Int)
    (hx : x ∈ marks) (value : String) :
    (⟨value, sourceOffset escaped offset k, sourceOffset escaped offset (k + 1)⟩ : LineToken) =
      ⟨value, offset + i, offset + i + 1⟩ := by
  have hstop := h.sourceOffset_stop hplain offset
  rw [hideFrom_singleton, hide_mark hx, List.length_singleton] at hstop
  rw [h.sourceOffset_start hplain, hstop]
  rfl

/-- A stretch without its blanks, and the span that trimming finds. -/
theorem trim (h : HoldsAt line escaped i k seg) (hplain : Plain line) :
    ∃ k', LineConfig.trimSpan escaped k (k + (hideFrom none seg).length) =
        (k', k' + (hideFrom none (PackLint.trim seg)).length) ∧
      HoldsAt line escaped (i + (seg.takeWhile isBlank).length) k' (PackLint.trim seg) := by
  obtain ⟨trail, hseg, htrail, -⟩ := Stretch.trimmed_text seg
  have hlead : quoteOver none (seg.takeWhile isBlank) = none :=
    quoteOver_blanks none_quotes fun c hc => List.mem_takeWhile_imp hc
  have hmiddle := quoteOver_trim h.bare hseg htrail
  refine ⟨k + (hideFrom none (seg.takeWhile isBlank)).length, ?_, ?_⟩
  · obtain ⟨front, rest, hiddenFront, hiddenRest, -, rfl, -, -, -, rfl⟩ := h.split
    exact trimSpan_hideFrom (h.plain hplain) h.bare hiddenFront hiddenRest
  · have h' := h
    rw [hseg, List.append_assoc] at h'
    exact ((h'.of_append hlead).2.of_append hmiddle).1

/-- The token that is left of a stretch. -/
theorem covering_trimSpan (h : HoldsAt line escaped i k seg) (hplain : Plain line)
    (offset : Int) :
    LineToken.covering escaped offset
        (LineConfig.trimSpan escaped k (k + (hideFrom none seg).length)).1
        (LineConfig.trimSpan escaped k (k + (hideFrom none seg).length)).2 =
      (Stretch.mk (offset + i) seg).trimmed.token := by
  obtain ⟨k', hspan, ht⟩ := h.trim hplain
  rw [hspan, ht.covering hplain, Int.natCast_add, ← Int.add_assoc]
  rfl

/-- What stands on both sides of an equals sign, and the sign itself. -/
theorem of_equals {key value : List Char} (h : HoldsAt line escaped i k (key ++ '=' :: value))
    (hkey : quoteOver none key = none) :
    HoldsAt line escaped i k key ∧
      HoldsAt line escaped (i + key.length) (k + (hideFrom none key).length) ['='] ∧
      HoldsAt line escaped (i + key.length + 1) (k + (hideFrom none key).length + 1) value := by
  obtain ⟨hk, hrest⟩ := h.of_append hkey
  obtain ⟨he, hv⟩ := of_append (a := ['=']) hrest rfl
  exact ⟨hk, he, hv⟩

/-- **A piece of an escaped body says what the stretch of the line says.** -/
theorem reading {c : LineConfig} (h : HoldsAt line c.source i k seg) (hplain : Plain line)
    (terminated : Bool)
    (hend : terminated →
      HoldsAt line c.source (i + seg.length) (k + (hideFrom none seg).length) [';']) :
    c.reading ⟨k, k + (hideFrom none seg).length, terminated⟩ =
      (Stretch.mk (c.offset + i) seg).reading terminated := by
  obtain ⟨k', hspan, ht⟩ := h.trim hplain
  have htoken : c.token k' (k' + (hideFrom none (PackLint.trim seg)).length) =
      (Stretch.mk (c.offset + i) seg).trimmed.token := by
    have hcovering := h.covering_trimSpan hplain c.offset
    rwa [hspan] at hcovering
  have hsemicolon : (if terminated then
      some (c.mark (k + (hideFrom none seg).length) ";") else none) =
      if terminated then some (⟨";", (Stretch.mk (c.offset + i) seg).stop,
        (Stretch.mk (c.offset + i) seg).stop + 1⟩ : LineToken) else none := by
    by_cases hterminated : terminated
    · have hmark := (hend hterminated).mark hplain c.offset (by decide) ";"
      rw [Int.natCast_add, ← Int.add_assoc] at hmark
      rw [if_pos hterminated, if_pos hterminated]
      exact congrArg some hmark
    · rw [if_neg hterminated, if_neg hterminated]
  have htrimmed : (Stretch.mk (c.offset + i) seg).trimmed =
      ⟨c.offset + (i + (seg.takeWhile isBlank).length : Nat), PackLint.trim seg⟩ := by
    rw [Int.natCast_add, ← Int.add_assoc]
    rfl
  unfold LineConfig.reading Stretch.reading
  simp only [hspan, ht.slice, htoken, hsemicolon, htrimmed]
  generalize PackLint.trim seg = text at ht
  generalize i + (seg.takeWhile isBlank).length = i' at ht
  by_cases hempty : text = []
  · rw [if_pos (by rw [hempty]; rfl), if_pos hempty]
  · have hne : k' ≠ k' + (hideFrom none text).length := by
      intro heq
      exact hempty (eq_nil_of_hideFrom (List.eq_nil_of_length_eq_zero (by omega)))
    rw [if_neg hne, if_neg hempty, findIdx?_hideFrom none_quotes]
    cases hsplit : splitEquals none text with
    | none => rfl
    | some p =>
      obtain ⟨key, value⟩ := p
      obtain ⟨rfl, hquote⟩ := eq_of_splitEquals hsplit
      obtain ⟨hkey, hequals, hvalue⟩ := ht.of_equals hquote
      have hkeyToken : c.token _ _ = _ := hkey.covering_trimSpan hplain c.offset
      have hvalueToken : c.token _ _ = _ := hvalue.covering_trimSpan hplain c.offset
      have hmark : c.mark _ _ = _ := hequals.mark hplain c.offset (by decide) "="
      have hlength : (hideFrom none (key ++ '=' :: value)).length =
          (hideFrom none key).length + 1 + (hideFrom none value).length := by
        rw [hideFrom_append, hquote, hideFrom, hide_mark (by decide), List.length_append,
          List.length_append, List.length_singleton, Nat.add_assoc]
        rfl
      simp only [hlength, Option.map_some, hkeyToken, hmark, ← Nat.add_assoc, hvalueToken,
        Int.natCast_add, ← Int.add_assoc]
      rfl

end HoldsAt

/-! ## Cutting -/

theorem piecesFrom_append {text : List Char} (htext : ∀ x ∈ marks, x ∉ text) (start i : Nat)
    (depth : Int) (rest : List Char) :
    LineConfig.piecesFrom start i depth (text ++ rest) =
      LineConfig.piecesFrom start (i + text.length) depth rest := by
  induction text generalizing i with
  | nil => rfl
  | cons x text ih =>
    have hx : ∀ y ∈ marks, x ≠ y := fun y hy heq => htext y hy (heq ▸ List.mem_cons_self)
    have hopen : ¬ (x = '{' ∨ x = '[') := by
      rintro (h | h)
      · exact hx '{' (by decide) h
      · exact hx '[' (by decide) h
    have hclose : ¬ (x = '}' ∨ x = ']') := by
      rintro (h | h)
      · exact hx '}' (by decide) h
      · exact hx ']' (by decide) h
    rw [List.cons_append, LineConfig.piecesFrom]
    simp only [if_neg hopen, if_neg hclose]
    rw [if_neg (fun h => hx ';' (by decide) h.1),
      ih (fun y hy hm => htext y hy (List.mem_cons_of_mem x hm)), List.length_cons]
    congr 1
    omega

/-- A character that ends no stretch ends no piece, and counts for the depth alike. -/
theorem piecesFrom_hide {quote : Option Char} (hquote : ∀ q ∈ quote, isQuote q) {x : Char}
    {depth : Int} (hcut : ¬ (quote = none ∧ x = ';' ∧ depth = 0)) (start i : Nat)
    (rest : List Char) :
    LineConfig.piecesFrom start i depth (hide quote x ++ rest) =
      LineConfig.piecesFrom start (i + (hide quote x).length) (depthAfter quote depth x) rest := by
  by_cases hmark : quote = none ∧ x ∈ marks
  · obtain ⟨rfl, hx⟩ := hmark
    rw [hide_mark hx, List.singleton_append, LineConfig.piecesFrom, if_neg]
    · rfl
    · rintro ⟨rfl, hdepth⟩
      exact hcut ⟨rfl, rfl, hdepth⟩
  · have hnone : ∀ y ∈ marks, y ∉ hide quote x := by
      intro y hy hm
      obtain ⟨hq, rfl⟩ := mem_hide_mark hquote hy hm
      exact hmark ⟨hq, hy⟩
    rw [piecesFrom_append hnone]
    congr 1
    unfold depthAfter
    cases quote with
    | some q => rfl
    | none =>
      have hx : x ∉ marks := fun hx => hmark ⟨rfl, hx⟩
      rw [if_neg (by decide), if_neg, if_neg]
      · rintro (rfl | rfl)
        · exact hx (by decide)
        · exact hx (by decide)
      · rintro (rfl | rfl)
        · exact hx (by decide)
        · exact hx (by decide)

/-- **The pieces of an escaped body say what the stretches of the line say.** The current piece
starts with the characters `run` of the line. -/
theorem HoldsAt.readings {line : List Char} {c : LineConfig} (hplain : Plain line)
    (cs run : List Char) {i k : Nat} (depth : Int) (h : HoldsAt line c.source i k (run ++ cs)) :
    (LineConfig.piecesFrom k (k + (hideFrom none run).length) depth
        (hideFrom (quoteOver none run) cs)).map c.reading =
      (cutFrom (c.offset + i) run (quoteOver none run) depth cs).map
        fun p => p.1.reading p.2 := by
  induction cs generalizing run i k depth with
  | nil =>
    rw [List.append_nil] at h
    have hread := h.reading hplain false (fun hf => nomatch hf)
    exact congrArg (fun r => [r]) hread
  | cons x cs ih =>
    have hquote := isQuote_of_quoteOver none_quotes run
    rw [hideFrom, cutFrom]
    by_cases hcut : quoteOver none run = none ∧ x = ';' ∧ depth = 0
    · obtain ⟨hrun, rfl, rfl⟩ := hcut
      obtain ⟨hleft, hright⟩ := h.of_append hrun
      obtain ⟨hsemicolon, hrest⟩ := of_append (a := [';']) hright rfl
      have hread := hleft.reading hplain true (fun _ => hsemicolon)
      have hnext := ih [] 0 hrest
      rw [hrun, if_pos ⟨rfl, rfl, rfl⟩, List.map_cons, ← hread]
      refine congrArg (_ :: ·) ?_
      refine hnext.trans ?_
      rw [Int.natCast_add, Int.natCast_add, ← Int.add_assoc, ← Int.add_assoc]
      rfl
    · have hover : quoteAfter (quoteOver none run) x = quoteOver none (run ++ [x]) := by
        rw [quoteOver_append]
        rfl
      rw [if_neg hcut, piecesFrom_hide hquote hcut, hover, Nat.add_assoc, ← List.length_append,
        ← hideFrom_singleton, ← hideFrom_append]
      refine ih (run ++ [x]) _ ?_
      rwa [List.append_assoc]

/-! ## Closed blocks -/

/-- A name in front of a closed block is not escaped, and the block is hidden as a whole. -/
theorem escape_block {name block : List Char} (hname : '{' ∉ name) (hopen : block.head? = some '{')
    (hclosed : blockLength? block = some block.length) :
    escape (name ++ block) = name ++ hideFrom none block := by
  unfold escape pieces
  induction name with
  | nil =>
    cases block with
    | nil => cases hopen
    | cons c cs =>
      have houtside : Place.outside.settle (c :: cs) = .inside (cs.length + 1) none := by
        rw [Place.settle, if_pos hopen, hclosed, List.length_cons]
        · rintro _ _ ⟨⟩
        · rintro ⟨⟩
      have hinside : (Place.inside (cs.length + 1) none).settle (c :: cs) =
          .inside (cs.length + 1) none := rfl
      rw [List.nil_append, List.nil_append, ← flatten_piecesFrom_inside, List.length_cons,
        piecesFrom, houtside, piecesFrom, hinside]
  | cons c name ih =>
    have hc : ¬ (c :: (name ++ block)).head? = some '{' := by
      intro h
      cases h
      exact hname List.mem_cons_self
    rw [List.cons_append, piecesFrom, Place.settle, if_neg hc]
    · rw [List.flatten_cons, List.singleton_append, List.cons_append,
        ih (fun h => hname (List.mem_cons_of_mem c h))]
    · rintro _ _ ⟨⟩
    · rintro ⟨⟩

theorem count_hide {quote : Option Char} (hquote : ∀ q ∈ quote, isQuote q) {x c : Char}
    (hx : x ∈ marks) (hc : ¬ (quote = none ∧ c = x)) : (hide quote c).count x = 0 :=
  List.count_eq_zero.mpr fun h => hc (mem_hide_mark hquote hx h)

/-- A text that is just as long as its block has as many closing braces as opening ones, and ends
outside of quotes with the last of them. -/
theorem balanced_of_blockLengthFrom {depth : Nat} {quote : Option Char} {cs : List Char}
    (hdepth : 1 ≤ depth) (hquote : ∀ q ∈ quote, isQuote q)
    (h : blockLengthFrom depth quote cs = some cs.length) :
    (hideFrom quote cs).count '{' + depth = (hideFrom quote cs).count '}' ∧
      ∃ body, cs = body ++ ['}'] ∧ quoteOver quote body = none := by
  induction cs generalizing depth quote with
  | nil => cases h
  | cons c cs ih =>
    have hquote' := isQuote_of_quoteAfter hquote c
    have hinner : ∀ {depth' : Nat},
        (blockLengthFrom depth' (quoteAfter quote c) cs).map (· + 1) = some (c :: cs).length →
        blockLengthFrom depth' (quoteAfter quote c) cs = some cs.length := by
      intro depth' hmap
      obtain ⟨n, hn, hlength⟩ := Option.map_eq_some_iff.mp hmap
      rw [hn, Nat.succ.inj hlength]
    have hbehind : ∀ {body : List Char}, cs = body ++ ['}'] ∧
        quoteOver (quoteAfter quote c) body = none →
          c :: cs = (c :: body) ++ ['}'] ∧ quoteOver quote (c :: body) = none := by
      rintro body ⟨rfl, hover⟩
      exact ⟨rfl, hover⟩
    rw [hideFrom, List.count_append, List.count_append]
    unfold blockLengthFrom at h
    simp only [Bool.and_eq_true, Option.isNone_iff_eq_none, decide_eq_true_eq] at h
    split at h
    · rename_i hopen
      obtain ⟨rfl, rfl⟩ := hopen
      obtain ⟨hcount, body, hbody⟩ := ih (Nat.le_add_left 1 depth) hquote' (hinner h)
      refine ⟨?_, '{' :: body, hbehind hbody⟩
      rw [hide_mark (by decide), List.count_singleton_self, List.count_singleton,
        if_neg (by decide)]
      omega
    · rename_i hopen
      rw [count_hide hquote (by decide) hopen]
      split at h
      · rename_i hclose
        obtain ⟨rfl, rfl⟩ := hclose
        rw [hide_mark (by decide), List.count_singleton_self]
        split at h
        · rename_i hle
          have hcs : cs = [] :=
            List.eq_nil_of_length_eq_zero (Nat.succ.inj (Option.some.inj h)).symm
          refine ⟨?_, [], by rw [hcs]; rfl, rfl⟩
          rw [hcs, hideFrom, List.count_nil, List.count_nil]
          omega
        · rename_i hlt
          obtain ⟨hcount, body, hbody⟩ := ih (by omega) hquote' (hinner h)
          refine ⟨by omega, '}' :: body, hbehind hbody⟩
      · rename_i hclose
        obtain ⟨hcount, body, hbody⟩ := ih hdepth hquote' (hinner h)
        refine ⟨?_, c :: body, hbehind hbody⟩
        rw [count_hide hquote (by decide) hclose]
        omega

end SkillLine

namespace LineConfig

open SkillLine

variable (src : Source)

/-- A text with a balanced block at its end is read piece by piece. -/
theorem readBlock_closed {name hidden text : List Char} (offset : Int) (hname : '{' ∉ name)
    (htext : text = name ++ '{' :: (hidden ++ ['}'])) (hcount : text.count '{' = text.count '}') :
    parse src text offset =
      (piecesFrom (name.length + 1) (name.length + 1) 0 hidden).foldl (addPiece src)
        { source := text
          offset
          main := some (.covering text offset 0 name.length)
          openBrace := some ⟨"\x7b", sourceOffset text offset name.length,
            sourceOffset text offset (name.length + 1)⟩
          closeBrace := some ⟨"\x7d", sourceOffset text offset (name.length + 1 + hidden.length),
            sourceOffset text offset (name.length + 1 + hidden.length + 1)⟩ } := by
  have hbrace : text.contains '{' = true := by
    rw [htext, List.contains_iff_mem]
    exact List.mem_append_right name List.mem_cons_self
  have hopen : text.findIdx? (· = '{') = some name.length := by
    have hnone : name.findIdx? (· = '{') = none := by
      rw [List.findIdx?_eq_none_iff]
      intro x hx
      rw [decide_eq_false_iff_not]
      rintro rfl
      exact hname hx
    rw [htext, List.findIdx?_append, hnone, Option.none_or]
    exact congrArg some (Nat.zero_add name.length)
  have hlength : text.length = name.length + 1 + hidden.length + 1 := by
    rw [htext]
    simp only [List.length_append, List.length_cons, List.length_nil]
    omega
  have hclose : lastIdx? '}' text = some (name.length + 1 + hidden.length) := by
    have hlast : text = (name ++ '{' :: hidden) ++ ['}'] := by
      rw [htext, List.append_assoc, List.cons_append]
    have hfirst : text.reverse.findIdx? (· = '}') = some 0 := by
      rw [hlast, List.reverse_append]
      rfl
    rw [lastIdx?, hfirst, Option.map_some, hlength]
    rfl
  have hbody : (text.take (name.length + 1 + hidden.length)).drop (name.length + 1) = hidden := by
    have hsplit : text = (name ++ ['{']) ++ hidden ++ ['}'] := by
      rw [htext]
      simp only [List.append_assoc, List.cons_append, List.nil_append]
    have hfront : (name ++ ['{']).length = name.length + 1 := List.length_append
    rw [hsplit, ← hfront, ← List.length_append, List.take_left, List.drop_left]
  have hlt : name.length < name.length + 1 + hidden.length := by omega
  rw [parse, read]
  simp only [hbrace, Bool.true_or, if_true]
  rw [readBlock]
  simp only [hcount, if_true, hopen, hclose, hlt, Option.map_some, Option.getD_some, hbody]
  rfl

/-- The configuration is what `name{body}` at the offset says directly. -/
structure ReadsAs (c : LineConfig) (name body : List Char) (offset : Int) : Prop where
  /-- The name stands in front of the block. -/
  main : c.main = some ⟨String.ofList name, offset, offset + name.length⟩
  /-- The opening brace stands behind the name. -/
  openBrace : c.openBrace =
    some ⟨"\x7b", offset + name.length, offset + name.length + 1⟩
  /-- The closing brace stands behind the body. -/
  closeBrace : c.closeBrace =
    some ⟨"\x7d", offset + name.length + 1 + body.length,
      offset + name.length + 1 + body.length + 1⟩
  /-- The entries are those of the stretches of the body, in order. -/
  entries : c.entries =
    (readBody (offset + name.length + 1) body).filterMap Reading.held?
  /-- The problems are those of the stretches without an equals sign, and of the entries whose key
  stands in front of them already. -/
  report : c.report = .ofDiagnostics
    (Reading.problems src [] (readBody (offset + name.length + 1) body))
  /-- A query finds the first entry that has one of the keys. -/
  get? : ∀ keys : List String, c.get? keys =
    ((readBody (offset + name.length + 1) body).filterMap Reading.held?).find?
      fun e => keys.contains e.key.value
  /-- The braces are not reported. -/
  balanced : ∀ d ∈ c.report.diagnostics, d.code ≠ .mismatchedBraces

/-- A block that is closed by its last character, read from behind its opening brace. -/
theorem closed_of_blockLength? {body : List Char}
    (hclosed : blockLength? ('{' :: (body ++ ['}'])) = some (body.length + 2)) :
    quoteOver none body = none ∧
      (hideFrom none (body ++ ['}'])).count '{' + 1 =
        (hideFrom none (body ++ ['}'])).count '}' := by
  have hinner : blockLengthFrom 1 none (body ++ ['}']) = some (body ++ ['}']).length := by
    obtain ⟨n, hn, hlength⟩ := Option.map_eq_some_iff.mp hclosed
    refine hn.trans (congrArg some ?_)
    rw [List.length_append, List.length_singleton]
    omega
  obtain ⟨hcount, body', hbody, hquote⟩ :=
    balanced_of_blockLengthFrom (Nat.le_refl 1) none_quotes hinner
  rw [List.append_cancel_right hbody]
  exact ⟨hquote, List.append_cancel_right hbody ▸ hcount⟩

/-- The escaped text of a name with a closed block, and where its stretches stand. -/
theorem escape_closed {name body : List Char} (hname : '{' ∉ name)
    (hclosed : blockLength? ('{' :: (body ++ ['}'])) = some (body.length + 2)) :
    escape (name ++ '{' :: (body ++ ['}'])) = name ++ '{' :: (hideFrom none body ++ ['}']) ∧
      HoldsAt (name ++ '{' :: (body ++ ['}'])) (name ++ '{' :: (hideFrom none body ++ ['}']))
        name.length name.length (['{'] ++ (body ++ ['}'])) := by
  obtain ⟨hquote, -⟩ := closed_of_blockLength? hclosed
  have hhidden : hideFrom none (['{'] ++ (body ++ ['}'])) =
      '{' :: (hideFrom none body ++ ['}']) := by
    rw [hideFrom_append, hideFrom_append, hideFrom_singleton, hide_mark (by decide)]
    change ['{'] ++ (hideFrom none body ++ hideFrom (quoteOver none body) ['}']) = _
    rw [hquote, hideFrom_singleton, hide_mark (by decide), List.singleton_append]
  constructor
  · rw [← hhidden]
    refine escape_block hname rfl ?_
    rw [hclosed]
    simp only [List.length_cons, List.length_append, List.length_nil]
  · refine ⟨?_, name, [], name, [], ?_, ?_, .self name, .self [], rfl, rfl⟩
    · rw [quoteOver_append, quoteOver_append]
      change quoteOver (quoteOver none body) ['}'] = none
      rw [hquote]
      rfl
    · rw [List.append_nil, List.singleton_append]
    · rw [hhidden, List.append_nil]

/-- **A name with a closed block is read from its escaped text as the line is read directly**: the
tokenizer, which knows no quotes, finds the same stretches at the same offsets, and reports the
same about them. -/
theorem parse_escape {name body : List Char} (offset : Int)
    (hplain : Plain (name ++ '{' :: (body ++ ['}']))) (hname : '{' ∉ name ∧ '}' ∉ name)
    (hclosed : blockLength? ('{' :: (body ++ ['}'])) = some (body.length + 2)) :
    (parse src (escape (name ++ '{' :: (body ++ ['}']))) offset).ReadsAs src name body offset := by
  obtain ⟨hescape, hholds⟩ := escape_closed hname.1 hclosed
  obtain ⟨hquote, hcount⟩ := closed_of_blockLength? hclosed
  obtain ⟨hopen, hrest⟩ := hholds.of_append rfl
  obtain ⟨hbody, hclose⟩ := hrest.of_append hquote
  rw [hescape]
  generalize htext : name ++ '{' :: (hideFrom none body ++ ['}']) = text at *
  have hbalanced : text.count '{' = text.count '}' := by
    rw [hideFrom_append, hquote, hideFrom_singleton, hide_mark (by decide)] at hcount
    rw [← htext, List.count_append, List.count_append, List.count_eq_zero.mpr hname.1,
      List.count_eq_zero.mpr hname.2, List.count_cons_self,
      List.count_cons_of_ne (by decide)]
    omega
  have hmain : LineToken.covering text offset 0 name.length =
      ⟨String.ofList name, offset, offset + name.length⟩ := by
    have hfirst : (text.take name.length).drop 0 = name := by
      rw [← htext, List.take_left]
      rfl
    rw [LineToken.covering, hfirst, hopen.sourceOffset_start hplain, sourceOffset,
      sourceCount_zero, unescape_of_plain (hplain.of_infix (List.prefix_append _ _).isInfix),
      Int.natCast_zero, Int.zero_add]
  have hopenMark := hopen.mark hplain offset (by decide) "\x7b"
  have hcloseMark := hclose.mark hplain offset (by decide) "\x7d"
  have hends : ((name.length + ['{'].length + body.length : Nat) : Int) =
      name.length + 1 + body.length := by
    rw [List.length_singleton]
    omega
  have hstart : ((name.length + ['{'].length : Nat) : Int) = name.length + 1 := rfl
  rw [hends, ← Int.add_assoc, ← Int.add_assoc] at hcloseMark
  rw [hideFrom_singleton, hide_mark (by decide)] at hbody hcloseMark
  rw [readBlock_closed src offset hname.1 htext.symm hbalanced, foldl_addPiece, hmain, hopenMark]
  generalize hc : LineConfig.mk _ _ _ _ _ _ _ = c
  have hsource : c.source = text := by rw [← hc]
  have hreadings : (piecesFrom (name.length + 1) (name.length + 1) 0 (hideFrom none body)).map
      c.reading = readBody (offset + name.length + 1) body := by
    have hoffset : c.offset = offset := by rw [← hc]
    rw [← hsource] at hbody
    have hread := HoldsAt.readings hplain body [] 0 hbody
    rw [hoffset, hstart, ← Int.add_assoc] at hread
    exact hread
  rw [hreadings, ← hc]
  refine ⟨rfl, rfl, congrArg some hcloseMark, rfl, Report.empty_merge _, fun _ => rfl, ?_⟩
  intro d hd
  obtain ⟨-, -, -, -, -, h | h⟩ := Reading.of_mem_problems hd
  · rw [h]
    decide
  · rw [h]
    decide

/-- The body `a=";"; A=1;b` has a quoted semicolon, a repeated key and a stretch without an equals
sign. -/
def quotedBody : List Char := ['a', '=', '"', ';', '"', ';', ' ', 'A', '=', '1', ';', 'b']

/-- A block whose semicolon in quotes is no mark. -/
theorem parse_escape_quoted :
    Plain (['m'] ++ '{' :: (quotedBody ++ ['}'])) ∧ ('{' ∉ ['m'] ∧ '}' ∉ ['m']) ∧
      blockLength? ('{' :: (quotedBody ++ ['}'])) = some (quotedBody.length + 2) ∧
      (parse (.ofList []) (escape (['m'] ++ '{' :: (quotedBody ++ ['}']))) 0).ReadsAs
        (.ofList []) ['m'] quotedBody 0 := by
  have hplain : Plain (['m'] ++ '{' :: (quotedBody ++ ['}'])) := by
    unfold Plain
    decide
  have hname : '{' ∉ ['m'] ∧ '}' ∉ ['m'] := by decide
  have hclosed : blockLength? ('{' :: (quotedBody ++ ['}'])) = some (quotedBody.length + 2) := by
    rfl
  exact ⟨hplain, hname, hclosed, parse_escape _ 0 hplain hname hclosed⟩

end LineConfig

end PackLint
