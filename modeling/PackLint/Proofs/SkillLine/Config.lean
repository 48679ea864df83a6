import PackLint.Proofs.SkillLine.Span

/-!
# The tokens of a configured name

The name, the braces and the entries of a configuration are cut out between boundaries of its
escaped text, so all of its tokens stand in the document.

Results:
* `LineConfig.stands_parse`: the tokens of a configuration stand in the document.
-/

namespace PackLint

open SkillLine

variable {src : Source}

/-- The tokens of an entry stand in the document, the key in lower case. -/
structure ConfigEntry.Stands (src : Source) (e : ConfigEntry) : Prop where
  key : ∃ text : List Char, e.key.Spells src text ∧ e.key.value = lowerText (String.ofList text)
  equals : e.equals.Stands src
  value : e.value.Stands src
  semicolon : ∀ t ∈ e.semicolon, t.Stands src

namespace LineConfig

/-- The tokens of a configuration stand in the document. -/
structure Stands (src : Source) (c : LineConfig) : Prop where
  main : ∀ t ∈ c.main, t.Stands src
  openBrace : ∀ t ∈ c.openBrace, t.Stands src
  closeBrace : ∀ t ∈ c.closeBrace, t.Stands src
  entries : ∀ e ∈ c.entries, e.Stands src

variable {c : LineConfig}

/-! ## Outer characters -/

theorem outer_brace : Outer '{' ∧ Outer '}' := by decide

theorem outer_bracket : Outer '[' ∧ Outer ']' := by decide

theorem outer_semicolon : Outer ';' := by decide

theorem outer_equals : Outer '=' := by decide

theorem getElem?_of_findIdx? {x : Char} {text : List Char} {i : Nat}
    (h : text.findIdx? (· = x) = some i) : text[i]? = some x := by
  obtain ⟨hi, hx, -⟩ := List.findIdx?_eq_some_iff_getElem.mp h
  rw [List.getElem?_eq_getElem hi, of_decide_eq_true hx]

/-- A character that the text does not start with is found behind the first one. -/
theorem findIdx?_pos {x y : Char} {text : List Char} {i : Nat}
    (h : text.findIdx? (· = x) = some i) (hhead : text.head? = some y) (hne : y ≠ x) : 0 < i := by
  refine Nat.pos_of_ne_zero fun hzero => ?_
  have hx := getElem?_of_findIdx? h
  rw [hzero, ← List.head?_eq_getElem?, hhead] at hx
  exact hne (Option.some.inj hx)

theorem getElem?_of_span {text : List Char} {start stop i : Nat} {x : Char}
    (h : ((text.take stop).drop start)[i]? = some x) :
    start + i < stop ∧ text[start + i]? = some x := by
  rw [List.getElem?_drop, List.getElem?_take] at h
  split at h
  · rename_i hlt
    exact ⟨hlt, h⟩
  · cases h

theorem getElem?_of_lastIdx? {x : Char} {text : List Char} {k : Nat}
    (h : lastIdx? x text = some k) : text[k]? = some x := by
  obtain ⟨i, hi, rfl⟩ := Option.map_eq_some_iff.mp h
  obtain ⟨hlt, -⟩ := List.findIdx?_eq_some_iff_getElem.mp hi
  rw [List.length_reverse] at hlt
  rw [← List.getElem?_reverse hlt]
  exact getElem?_of_findIdx? hi

/-! ## Pieces of the body -/

/-- A piece of a body lies between boundaries, and a semicolon ends it if it is terminated. -/
structure Piece.Fits (text : List Char) (p : Piece) : Prop where
  start : Boundary text p.start
  stop : Boundary text p.stop
  ordered : p.start ≤ p.stop
  semicolon : p.terminated → text[p.stop]? = some ';'

theorem fits_piecesFrom {text cs : List Char} {start i : Nat} {depth : Int}
    (hcs : cs <+: text.drop i) (hstart : Boundary text start) (hle : start ≤ i)
    (hstop : Boundary text (i + cs.length)) :
    ∀ p ∈ piecesFrom start i depth cs, p.Fits text := by
  induction cs generalizing start i depth with
  | nil =>
    intro p hp
    rw [List.mem_singleton.mp hp]
    exact ⟨hstart, hstop, hle, fun h => nomatch h⟩
  | cons c cs ih =>
    intro p hp
    obtain ⟨rest, hrest⟩ := hcs
    have hc : text[i]? = some c := by
      rw [← List.head?_drop, ← hrest]
      rfl
    have hcs' : cs <+: text.drop (i + 1) := by
      rw [← List.tail_drop, ← hrest]
      exact ⟨rest, rfl⟩
    have hstop' : Boundary text (i + 1 + cs.length) := by
      rwa [Nat.add_right_comm]
    unfold piecesFrom at hp
    simp only at hp
    generalize (if c = '{' ∨ c = '[' then depth + 1 else _ : Int) = depth' at hp
    split at hp
    · rename_i hsemicolon
      rw [hsemicolon.1] at hc
      obtain ⟨hb, hb'⟩ := boundary_of_outer outer_semicolon hc
      rcases List.mem_cons.mp hp with rfl | hp
      · exact ⟨hstart, hb, hle, fun _ => hc⟩
      · exact ih hcs' hb' (Nat.le_refl _) hstop' p hp
    · exact ih hcs' hstart (Nat.le_succ_of_le hle) hstop' p hp

/-! ## Reading -/

theorem Stands.problem (h : c.Stands src) (start stop : Nat) (message : String)
    (code : DiagnosticCode) : (c.problem src start stop message code).Stands src :=
  ⟨h.main, h.openBrace, h.closeBrace, h.entries⟩

/-- Reading a piece changes the entries and the report only. -/
theorem frame_addPiece (src : Source) (c : LineConfig) (p : Piece) :
    (c.addPiece src p).source = c.source ∧ (c.addPiece src p).offset = c.offset := by
  unfold addPiece
  simp only
  split
  · exact ⟨rfl, rfl⟩
  · split
    · exact ⟨rfl, rfl⟩
    · split <;> exact ⟨rfl, rfl⟩

theorem stands_entry (hs : Shows src c.source c.offset) {p : Piece} (hp : p.Fits c.source)
    {key value : Nat × Nat} {i : Nat} (hkey : Boundary c.source key.1)
    (hkey' : Boundary c.source key.2) (hkeyle : key.1 ≤ key.2) (hi : c.source[i]? = some '=')
    (hvalue : Boundary c.source value.1) (hvalue' : Boundary c.source value.2)
    (hvaluele : value.1 ≤ value.2) :
    ConfigEntry.Stands src
      { key := { c.token key.1 key.2 with value := lowerText (c.token key.1 key.2).value }
        equals := c.mark i "="
        value := c.token value.1 value.2
        semicolon := if p.terminated then some (c.mark p.stop ";") else none } where
  key := by
    have hstands : (c.token key.1 key.2).Stands src := hs.stands_covering hkey hkey' hkeyle
    refine ⟨(c.token key.1 key.2).value.toList, ?_, ?_⟩
    · exact ⟨hstands.nonneg, hstands.ordered, hstands.bounded, hstands.slice_eq⟩
    · rw [String.ofList_toList]
  equals := hs.stands_mark outer_equals hi rfl
  value := hs.stands_covering hvalue hvalue' hvaluele
  semicolon t ht := by
    split at ht
    · rename_i hterminated
      cases ht
      exact hs.stands_mark outer_semicolon (hp.semicolon hterminated) rfl
    · cases ht

theorem Stands.addPiece (hc : c.Stands src) (hs : Shows src c.source c.offset) {p : Piece}
    (hp : p.Fits c.source) : (c.addPiece src p).Stands src := by
  obtain ⟨hstart, hstop, -, hle, -⟩ := boundary_trimSpan hp.start hp.stop hp.ordered
  unfold LineConfig.addPiece
  generalize trimSpan c.source p.start p.stop = span at hstart hstop hle ⊢
  obtain ⟨start, stop⟩ := span
  simp only at hstart hstop hle ⊢
  split
  · exact hc
  · split
    · exact hc.problem _ _ _ _
    · rename_i i hi
      obtain ⟨hlt, heq⟩ := getElem?_of_span (getElem?_of_findIdx? hi)
      obtain ⟨hb, hb'⟩ := boundary_of_outer outer_equals heq
      obtain ⟨hkey, hkey', -, hkeyle, -⟩ := boundary_trimSpan hstart hb (Nat.le_add_right _ _)
      obtain ⟨hvalue, hvalue', -, hvaluele, -⟩ := boundary_trimSpan hb' hstop hlt
      have hentry := stands_entry hs hp hkey hkey' hkeyle heq hvalue hvalue' hvaluele
      have hadded : ∀ repeated : Report, Stands src { c with
          entries := c.entries ++ [_], report := repeated } := fun repeated =>
        ⟨hc.main, hc.openBrace, hc.closeBrace,
          List.forall_mem_append.mpr ⟨hc.entries, List.forall_mem_singleton.mpr hentry⟩⟩
      split
      · exact hadded _
      · exact hadded _

theorem Stands.addPieces {ps : List Piece} (hc : c.Stands src)
    (hs : Shows src c.source c.offset) (hps : ∀ p ∈ ps, p.Fits c.source) :
    (ps.foldl (LineConfig.addPiece src) c).Stands src := by
  induction ps generalizing c with
  | nil => exact hc
  | cons p ps ih =>
    obtain ⟨hp, hps⟩ := List.forall_mem_cons.mp hps
    obtain ⟨hsource, hoffset⟩ := frame_addPiece src c p
    refine ih (hc.addPiece hs hp) ?_ ?_
    · rwa [hsource, hoffset]
    · rwa [hsource]

theorem stands_unread (text : List Char) (offset : Int) (report : Report) :
    Stands src { source := text, offset, report } where
  main _ h := nomatch h
  openBrace _ h := nomatch h
  closeBrace _ h := nomatch h
  entries _ h := nomatch h

variable {text : List Char} {offset : Int}

theorem stands_main (hs : Shows src text offset) {stop : Nat} (hstop : Boundary text stop) :
    ∀ t ∈ some (LineToken.covering text offset 0 stop), t.Stands src := by
  rintro t ht
  cases ht
  exact hs.stands_covering (.zero text) hstop (Nat.zero_le stop)

/-- The name, the braces and the body of a text with a brace at `o`. -/
theorem stands_block (hs : Shows src text offset) {o : Nat} (ho : text[o]? = some '{')
    {closed? : Option Nat} (hclosed : ∀ k ∈ closed?, o < k ∧ text[k]? = some '}')
    (report : Report) :
    ((piecesFrom (o + 1) (o + 1) 0
        ((text.take (closed?.getD text.length)).drop (o + 1))).foldl (addPiece src)
      { source := text
        offset
        main := some (.covering text offset 0 o)
        openBrace := some ⟨"\x7b", sourceOffset text offset o, sourceOffset text offset (o + 1)⟩
        closeBrace := closed?.map fun k =>
          ⟨"\x7d", sourceOffset text offset k, sourceOffset text offset (k + 1)⟩
        report }).Stands src := by
  obtain ⟨hb, hb'⟩ := boundary_of_outer outer_brace.1 ho
  have hstop : Boundary text (closed?.getD text.length) ∧ o + 1 ≤ closed?.getD text.length := by
    cases closed? with
    | none => exact ⟨boundary_length text, hb'.le_length⟩
    | some k =>
      obtain ⟨hlt, hk⟩ := hclosed k rfl
      exact ⟨(boundary_of_outer outer_brace.2 hk).1, hlt⟩
  generalize closed?.getD text.length = stop at hstop ⊢
  refine Stands.addPieces ⟨stands_main hs hb, ?_, ?_, fun _ h => nomatch h⟩ hs ?_
  · rintro t ht
    cases ht
    exact hs.stands_mark outer_brace.1 ho rfl
  · rintro t ht
    obtain ⟨k, hk, rfl⟩ := Option.map_eq_some_iff.mp ht
    exact hs.stands_mark outer_brace.2 (hclosed k hk).2 rfl
  · refine fits_piecesFrom ?_ hb' (Nat.le_refl _) ?_
    · rw [List.drop_take]
      exact List.take_prefix _ _
    · rw [List.length_drop, List.length_take_of_le hstop.1.le_length,
        Nat.add_sub_of_le hstop.2]
      exact hstop.1

theorem stands_readBlock (hs : Shows src text offset) (report : Report) :
    (readBlock src { source := text, offset, report }).Stands src := by
  unfold readBlock
  simp only
  generalize hc : (if text.count '{' = text.count '}' then _ else _ : LineConfig) = c
  obtain ⟨report, rfl⟩ : ∃ report, c = { source := text, offset, report } := by
    split at hc
    · exact ⟨_, hc.symm⟩
    · exact ⟨_, hc.symm⟩
  cases ho : text.findIdx? (· = '{') with
  | none =>
    have hmain := stands_main hs (boundary_length text)
    exact { stands_unread text offset report with main := hmain }
  | some o =>
    have ho' := getElem?_of_findIdx? ho
    simp only
    refine stands_block hs ho' (fun k hk => ?_) report
    cases hlast : lastIdx? '}' text with
    | none =>
      rw [hlast] at hk
      cases hk
    | some last =>
      simp only [hlast] at hk
      split at hk
      · rename_i hlt
        cases hk
        exact ⟨hlt, getElem?_of_lastIdx? hlast⟩
      · cases hk

theorem stands_readBracket (hs : Shows src text offset) :
    (readBracket src { source := text, offset }).Stands src := by
  unfold readBracket
  simp only
  split
  · rename_i o k ho hk
    have ho := getElem?_of_findIdx? ho
    have hk := getElem?_of_findIdx? hk
    split
    · refine ⟨stands_main hs (boundary_of_outer outer_bracket.1 ho).1, ?_, ?_, fun _ h => nomatch h⟩
      · rintro t ht
        cases ht
        exact hs.stands_mark outer_bracket.1 ho rfl
      · rintro t ht
        cases ht
        exact hs.stands_mark outer_bracket.2 hk rfl
    · exact stands_unread text offset _
  · exact stands_unread text offset _

/-- **The tokens of a configuration stand in the document.** -/
theorem stands_parse (hs : Shows src text offset) : (parse src text offset).Stands src := by
  unfold parse read
  simp only
  split
  · exact stands_readBlock hs _
  · split
    · exact stands_readBracket hs
    · have hmain := stands_main hs (boundary_length text)
      exact { stands_unread text offset .empty with main := hmain }

end LineConfig

end PackLint
