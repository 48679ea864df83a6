import PackLint.Proofs.SkillLine.Reading
import PackLint.Proofs.SkillLine.Positions
import PackLint.Proofs.SkillLine.Span

/-!
# Configured names in order

The tokens of a configuration follow one another in the text: the name, the opening brace, the
entries with their keys, equals signs, values and semicolons, and the closing brace. This holds of
every text, balanced or not, and of texts that spell sentinels themselves, since it follows from the
order of the indices alone. What is reported about a configuration lies between its ends as well.

Results:
* `LineConfig.neat_parse`: the tokens of a configuration are in order, and its problems lie in it.
* `LineConfig.colours_withHighlights`: just the tokens behind the name are highlighted.
-/

namespace PackLint

open SkillLine

/-! ## Tokens in order -/

/-- The tokens follow one another between two offsets. -/
def LineToken.InOrder (lo hi : Int) : List LineToken → Prop
  | [] => lo ≤ hi
  | t :: ts => lo ≤ t.start ∧ t.start ≤ t.stop ∧ InOrder t.stop hi ts

namespace LineToken

variable {lo lo' mid hi hi' : Int} {t : LineToken} {ts us : List LineToken}

theorem inOrder_singleton (hlo : lo ≤ t.start) (hle : t.start ≤ t.stop) (hhi : t.stop ≤ hi) :
    InOrder lo hi [t] :=
  ⟨hlo, hle, hhi⟩

namespace InOrder

theorem le (h : InOrder lo hi ts) : lo ≤ hi := by
  induction ts generalizing lo with
  | nil => exact h
  | cons t ts ih =>
    obtain ⟨hlo, hle, hts⟩ := h
    have hhi := ih hts
    omega

theorem mono_left (h : InOrder lo hi ts) (hlo : lo' ≤ lo) : InOrder lo' hi ts := by
  cases ts with
  | nil => exact Int.le_trans hlo h
  | cons t ts => exact ⟨Int.le_trans hlo h.1, h.2⟩

theorem append (h : InOrder lo mid ts) (h' : InOrder mid hi us) : InOrder lo hi (ts ++ us) := by
  induction ts generalizing lo with
  | nil => exact h'.mono_left h
  | cons t ts ih => exact ⟨h.1, h.2.1, ih h.2.2⟩

theorem mono_right (h : InOrder lo hi ts) (hhi : hi ≤ hi') : InOrder lo hi' ts := by
  have hend : InOrder hi hi' [] := hhi
  have happend := h.append hend
  rwa [List.append_nil] at happend

/-- Every token lies between the offsets. -/
theorem bounds (h : InOrder lo hi ts) (ht : t ∈ ts) :
    lo ≤ t.start ∧ t.start ≤ t.stop ∧ t.stop ≤ hi := by
  induction ts generalizing lo with
  | nil => cases ht
  | cons u ts ih =>
    obtain ⟨hlo, hle, hts⟩ := h
    rcases List.mem_cons.mp ht with rfl | ht
    · exact ⟨hlo, hle, hts.le⟩
    · exact ih (hts.mono_left (Int.le_trans hlo hle)) ht

/-- Every token ends before the next ones begin. -/
theorem pairwise (h : InOrder lo hi ts) : ts.Pairwise fun s t => s.stop ≤ t.start := by
  induction ts generalizing lo with
  | nil => exact .nil
  | cons u ts ih => exact .cons (fun t ht => (h.2.2.bounds ht).1) (ih h.2.2)

end InOrder

end LineToken

/-! ## Highlighted tokens -/

/-- The highlights of the report are those of the tokens that are not empty. -/
def Report.Colours (src : Source) (ts : List LineToken) (r : Report) : Prop :=
  (r.highlights.map (·.range)).Perm
    ((ts.filter fun t => t.start < t.stop).map fun t => src.range t.start t.stop)

namespace Report.Colours

variable {src : Source} {ts us : List LineToken} {r s : Report}

theorem of_nil (h : r.highlights = []) : Colours src [] r := by
  unfold Colours
  rw [h]
  exact .refl _

theorem merge (hr : Colours src ts r) (hs : Colours src us s) :
    Colours src (ts ++ us) (r.merge s) := by
  unfold Colours at *
  rw [List.filter_append, List.map_append, Report.merge, List.map_append]
  exact List.perm_append_comm.trans (hr.append hs)

theorem perm (h : Colours src ts r) (hts : ts.Perm us) : Colours src us r :=
  List.Perm.trans h ((hts.filter _).map _)

theorem mergeAll {α : Type} {xs : List α} {tokens : α → List LineToken} {report : α → Report}
    (h : ∀ x ∈ xs, Colours src (tokens x) (report x)) :
    Colours src (xs.flatMap tokens) (.mergeAll (xs.map report)) := by
  induction xs with
  | nil => exact of_nil rfl
  | cons x xs ih =>
    obtain ⟨hx, hxs⟩ := List.forall_mem_cons.mp h
    rw [List.map_cons, List.flatMap_cons, mergeAll_cons]
    exact hx.merge (ih hxs)

end Report.Colours

theorem LineToken.colours_highlight (src : Source) (color : TextClass) (t : LineToken) :
    Report.Colours src [t] (t.highlight src color) := by
  unfold Report.Colours LineToken.highlight
  by_cases h : t.start < t.stop
  · rw [if_pos h, List.filter_cons_of_pos (by simpa using h)]
    exact .refl _
  · rw [if_neg h, List.filter_cons_of_neg (by simpa using h)]
    exact .refl _

theorem LineToken.colours_highlight? (src : Source) (color : TextClass) (t : Option LineToken) :
    Report.Colours src t.toList (LineToken.highlight? src color t) := by
  cases t with
  | none => exact .of_nil rfl
  | some t => exact t.colours_highlight src color

/-! ## Entries -/

/-- The tokens of an entry. -/
def ConfigEntry.tokens (e : ConfigEntry) : List LineToken :=
  [e.key, e.equals, e.value] ++ e.semicolon.toList

namespace LineConfig

variable {src : Source} {c : LineConfig}

theorem trimSpan_le (text : List Char) {start stop : Nat} (h : start ≤ stop) :
    start ≤ (trimSpan text start stop).1 ∧
      (trimSpan text start stop).1 ≤ (trimSpan text start stop).2 ∧
      (trimSpan text start stop).2 ≤ stop := by
  have hlength : ((text.take stop).drop start).length ≤ stop - start := by
    rw [List.length_drop, List.length_take]
    omega
  unfold trimSpan
  simp only
  generalize (text.take stop).drop start = span at hlength ⊢
  have hfront := leadingBlanks_le blockSpace 0 span
  generalize leadingBlanks blockSpace 0 span = front at hfront ⊢
  have hback := leadingBlanks_le blockSpace.reverse 0 (span.drop front).reverse
  rw [List.length_reverse, List.length_drop] at hback
  omega

theorem pos_mono (c : LineConfig) {i k : Nat} (h : i ≤ k) : c.pos i ≤ c.pos k :=
  sourceOffset_mono c.source c.offset h

/-- What a piece says lies in the piece, and its tokens are in order up to its semicolon. -/
theorem inOrder_reading (c : LineConfig) {p : Piece} (hp : p.start ≤ p.stop) :
    (∀ t ∈ (c.reading p).piece?, c.pos p.start ≤ t.start ∧ t.start ≤ t.stop ∧
      t.stop ≤ c.pos p.stop) ∧
    ∀ e ∈ (c.reading p).held?, LineToken.InOrder (c.pos p.start)
      (c.pos (if p.terminated then p.stop + 1 else p.stop)) e.tokens := by
  obtain ⟨hfront, hle, hback⟩ := trimSpan_le c.source hp
  unfold reading
  generalize trimSpan c.source p.start p.stop = span at hfront hle hback ⊢
  obtain ⟨start, stop⟩ := span
  simp only at hfront hle hback ⊢
  have hpiece : c.pos p.start ≤ (c.token start stop).start ∧
      (c.token start stop).start ≤ (c.token start stop).stop ∧
      (c.token start stop).stop ≤ c.pos p.stop :=
    ⟨c.pos_mono hfront, c.pos_mono hle, c.pos_mono hback⟩
  by_cases hblank : start = stop
  · rw [if_pos hblank]
    exact ⟨fun _ h => (nomatch h), fun _ h => (nomatch h)⟩
  · rw [if_neg hblank]
    cases hi : ((c.source.take stop).drop start).findIdx? (· = '=') with
    | none =>
      refine ⟨fun t ht => ?_, fun _ h => (nomatch h)⟩
      obtain rfl := Option.some.inj ht
      exact hpiece
    | some i =>
      refine ⟨fun t ht => ?_, fun e he => ?_⟩
      · obtain rfl := Option.some.inj ht
        exact hpiece
      · obtain rfl := Option.some.inj he
        have hlt : start + i < stop := by
          obtain ⟨hlt, -⟩ := List.findIdx?_eq_some_iff_getElem.mp hi
          rw [List.length_drop, List.length_take] at hlt
          omega
        obtain ⟨hkey, hkeyle, hkey'⟩ := trimSpan_le c.source (Nat.le_add_right start i)
        obtain ⟨hvalue, hvaluele, hvalue'⟩ := trimSpan_le c.source hlt
        have hend : LineToken.InOrder
            (c.pos (trimSpan c.source (start + i + 1) stop).2)
            (c.pos (if p.terminated then p.stop + 1 else p.stop))
            (if p.terminated then some (c.mark p.stop ";") else none).toList := by
          by_cases hterminated : p.terminated
          · rw [if_pos hterminated, if_pos hterminated]
            exact ⟨c.pos_mono (Nat.le_trans hvalue' hback), c.pos_mono (Nat.le_succ _),
              Int.le_refl _⟩
          · rw [if_neg hterminated, if_neg hterminated]
            exact c.pos_mono (Nat.le_trans hvalue' hback)
        exact ⟨c.pos_mono (Nat.le_trans hfront hkey), c.pos_mono hkeyle, c.pos_mono hkey',
          c.pos_mono (Nat.le_succ _), c.pos_mono hvalue, c.pos_mono hvaluele, hend⟩

/-- A body is cut at its first character, or not. -/
theorem piecesFrom_cons (start i : Nat) (depth : Int) (x : Char) (cs : List Char) :
    ∃ depth' : Int, piecesFrom start i depth (x :: cs) =
      if x = ';' ∧ depth' = 0 then ⟨start, i, true⟩ :: piecesFrom (i + 1) (i + 1) depth' cs
      else piecesFrom start (i + 1) depth' cs :=
  ⟨_, rfl⟩

theorem tokens_cons (r : Reading) (rs : List Reading) :
    ((r :: rs).filterMap Reading.held?).flatMap ConfigEntry.tokens =
      r.held?.toList.flatMap ConfigEntry.tokens ++
        (rs.filterMap Reading.held?).flatMap ConfigEntry.tokens := by
  cases hentry : r.held? with
  | none => rw [List.filterMap_cons_none hentry]; rfl
  | some e =>
    rw [List.filterMap_cons_some hentry, Option.toList_some, List.flatMap_cons,
      List.flatMap_singleton]

/-- The tokens of the entry that a piece may be are in order. -/
theorem inOrder_entry (c : LineConfig) {p : Piece} (hp : p.start ≤ p.stop) :
    LineToken.InOrder (c.pos p.start) (c.pos (if p.terminated then p.stop + 1 else p.stop))
      ((c.reading p).held?.toList.flatMap ConfigEntry.tokens) := by
  cases hentry : (c.reading p).held? with
  | none =>
    refine c.pos_mono ?_
    split <;> omega
  | some e =>
    rw [Option.toList_some, List.flatMap_singleton]
    exact (c.inOrder_reading hp).2 e hentry

/-- The tokens of the entries of a body are in order. -/
theorem inOrder_pieces (c : LineConfig) {start i : Nat} (depth : Int) (cs : List Char)
    (h : start ≤ i) :
    LineToken.InOrder (c.pos start) (c.pos (i + cs.length))
      ((((piecesFrom start i depth cs).map c.reading).filterMap Reading.held?).flatMap
        ConfigEntry.tokens) := by
  induction cs generalizing start i depth with
  | nil =>
    have hlast := c.inOrder_entry (p := ⟨start, i, false⟩) h
    rw [piecesFrom, List.map_singleton, tokens_cons, List.filterMap_nil, List.flatMap_nil,
      List.append_nil]
    exact hlast
  | cons x cs ih =>
    have hlength : i + (x :: cs).length = i + 1 + cs.length := by
      rw [List.length_cons]
      omega
    obtain ⟨depth', hcut⟩ := piecesFrom_cons start i depth x cs
    rw [hcut, hlength]
    split
    · have hfirst := c.inOrder_entry (p := ⟨start, i, true⟩) h
      rw [List.map_cons, tokens_cons]
      exact hfirst.append (ih _ (Nat.le_refl (i + 1)))
    · exact ih _ (Nat.le_succ_of_le h)

/-- The pieces of a body lie in it. -/
theorem bounds_of_mem_piecesFrom {start i : Nat} {depth : Int} {cs : List Char} (h : start ≤ i)
    {p : Piece} (hp : p ∈ piecesFrom start i depth cs) :
    start ≤ p.start ∧ p.start ≤ p.stop ∧ p.stop ≤ i + cs.length := by
  induction cs generalizing start i depth with
  | nil =>
    rw [List.mem_singleton.mp hp]
    exact ⟨Nat.le_refl _, h, Nat.le_refl _⟩
  | cons x cs ih =>
    obtain ⟨depth', hcut⟩ := piecesFrom_cons start i depth x cs
    rw [hcut] at hp
    rw [List.length_cons]
    split at hp
    · rcases List.mem_cons.mp hp with rfl | hp
      · simp only
        omega
      · obtain ⟨hstart, hle, hstop⟩ := ih (Nat.le_refl (i + 1)) hp
        omega
    · obtain ⟨hstart, hle, hstop⟩ := ih (Nat.le_succ_of_le h) hp
      omega

/-! ## Problems -/

/-- The codes of what is reported about configurations. -/
def problemCodes : List DiagnosticCode :=
  [.mismatchedBraces, .invalidBlockSyntax, .missingEquals, .duplicateKey]

/-- A problem of a configuration that lies between two offsets. -/
structure IsProblem (src : Source) (lo hi : Int) (d : Diagnostic) : Prop where
  range : ∃ start stop : Int, lo ≤ start ∧ start ≤ stop ∧ stop ≤ hi ∧ d.range = src.range start stop
  code : d.code ∈ problemCodes

theorem isProblem_of_mem_problems {lo hi : Int} {keys : List String} {rs : List Reading}
    (hrs : ∀ r ∈ rs, ∀ t ∈ r.piece?, lo ≤ t.start ∧ t.start ≤ t.stop ∧ t.stop ≤ hi)
    {d : Diagnostic} (hd : d ∈ Reading.problems src keys rs) : IsProblem src lo hi d := by
  obtain ⟨r, hr, t, ht, hrange, hcode⟩ := Reading.of_mem_problems hd
  obtain ⟨hlo, hle, hhi⟩ := hrs r hr t ht
  refine ⟨⟨_, _, hlo, hle, hhi, hrange⟩, ?_⟩
  rcases hcode with h | h
  · rw [h]
    decide
  · rw [h]
    decide

/-! ## Configurations -/

/-- The tokens of the braces and the entries. -/
def blockTokens (c : LineConfig) : List LineToken :=
  c.openBrace.toList ++ c.entries.flatMap ConfigEntry.tokens ++ c.closeBrace.toList

/-- The configuration lies between two offsets: its tokens are in order, and so lie its problems.
It has no highlights yet. -/
structure Neat (src : Source) (lo hi : Int) (c : LineConfig) : Prop where
  tokens : LineToken.InOrder lo hi (c.main.toList ++ c.blockTokens)
  problems : ∀ d ∈ c.report.diagnostics, IsProblem src lo hi d
  highlights : c.report.highlights = []

variable (src) in
/-- A text whose name ends at `o`, with what is reported about it so far. -/
theorem neat_block {text : List Char} (offset : Int) {o bodyStop : Nat} (ho : o < bodyStop)
    (hstop : bodyStop ≤ text.length) (closed? : Option Nat)
    (hclosed : ∀ k ∈ closed?, k = bodyStop ∧ k < text.length) {ds : List Diagnostic}
    (hds : ∀ d ∈ ds, IsProblem src offset (sourceOffset text offset text.length) d) :
    ((piecesFrom (o + 1) (o + 1) 0 ((text.take bodyStop).drop (o + 1))).foldl (addPiece src)
      { source := text
        offset
        main := some (.covering text offset 0 o)
        openBrace := some ⟨"\x7b", sourceOffset text offset o, sourceOffset text offset (o + 1)⟩
        closeBrace := closed?.map fun k =>
          ⟨"\x7d", sourceOffset text offset k, sourceOffset text offset (k + 1)⟩
        report := .ofDiagnostics ds }).Neat src offset (sourceOffset text offset text.length) := by
  rw [foldl_addPiece]
  generalize hc : LineConfig.mk _ _ _ _ _ _ _ = c
  have hpos : ∀ i, c.pos i = sourceOffset text offset i := by
    intro i
    rw [← hc]
    rfl
  have hlength : o + 1 + ((text.take bodyStop).drop (o + 1)).length = bodyStop := by
    rw [List.length_drop, List.length_take_of_le hstop]
    omega
  have hentries := c.inOrder_pieces 0 ((text.take bodyStop).drop (o + 1)) (Nat.le_refl (o + 1))
  have hpieces := fun p => @bounds_of_mem_piecesFrom (o + 1) (o + 1) 0
    ((text.take bodyStop).drop (o + 1)) (Nat.le_refl _) p
  rw [hlength] at hentries hpieces
  rw [hpos, hpos] at hentries
  generalize hps : piecesFrom (o + 1) (o + 1) 0 ((text.take bodyStop).drop (o + 1)) = ps at *
  have hmain : LineToken.InOrder offset (sourceOffset text offset o)
      [LineToken.covering text offset 0 o] :=
    LineToken.inOrder_singleton (Int.le_of_eq (sourceOffset_zero text offset).symm)
      (sourceOffset_mono text offset (Nat.zero_le o)) (Int.le_refl _)
  have hopen : LineToken.InOrder (sourceOffset text offset o) (sourceOffset text offset (o + 1))
      [⟨"\x7b", sourceOffset text offset o, sourceOffset text offset (o + 1)⟩] :=
    LineToken.inOrder_singleton (Int.le_refl _) (sourceOffset_mono text offset (Nat.le_succ o))
      (Int.le_refl _)
  have hclose : LineToken.InOrder (sourceOffset text offset bodyStop)
      (sourceOffset text offset text.length) (closed?.map fun k => (⟨"\x7d",
        sourceOffset text offset k, sourceOffset text offset (k + 1)⟩ : LineToken)).toList := by
    cases closed? with
    | none => exact sourceOffset_mono text offset hstop
    | some k =>
      obtain ⟨rfl, hlt⟩ := hclosed k rfl
      exact LineToken.inOrder_singleton (Int.le_refl _)
        (sourceOffset_mono text offset (Nat.le_succ k)) (sourceOffset_mono text offset hlt)
  subst hc
  refine ⟨hmain.append ((hopen.append hentries).append hclose), fun d hd => ?_, rfl⟩
  rcases List.mem_append.mp hd with hd | hd
  · exact hds d hd
  · refine isProblem_of_mem_problems (fun r hr t ht => ?_) hd
    obtain ⟨p, hp, rfl⟩ := List.mem_map.mp hr
    obtain ⟨hstart, hle, hbound⟩ := hpieces p hp
    obtain ⟨hlo, hle, hhi⟩ := (LineConfig.inOrder_reading _ hle).1 t ht
    have hzero := sourceOffset_mono text offset (Nat.zero_le p.start)
    rw [sourceOffset_zero] at hzero
    have hlast := sourceOffset_mono text offset (Nat.le_trans hbound hstop)
    exact ⟨Int.le_trans hzero hlo, hle, Int.le_trans hhi hlast⟩

/-- The problem of a span of an escaped text. -/
def spanProblem (src : Source) (text : List Char) (offset : Int) (i k : Nat) (message : String)
    (code : DiagnosticCode) : Diagnostic where
  range := src.range (sourceOffset text offset i) (sourceOffset text offset k)
  message := message
  code := code

theorem isProblem_spanProblem {text : List Char} (offset : Int) {i k : Nat} (hik : i ≤ k)
    (hk : k ≤ text.length) (message : String) {code : DiagnosticCode}
    (hcode : code ∈ problemCodes) :
    IsProblem src offset (sourceOffset text offset text.length)
      (spanProblem src text offset i k message code) := by
  have hzero := sourceOffset_mono text offset (Nat.zero_le i)
  rw [sourceOffset_zero] at hzero
  exact ⟨⟨_, _, hzero, sourceOffset_mono text offset hik, sourceOffset_mono text offset hk, rfl⟩,
    hcode⟩

/-- A configuration of which just the name was read. -/
theorem neat_whole {text : List Char} (offset : Int) {ds : List Diagnostic}
    (hds : ∀ d ∈ ds, IsProblem src offset (sourceOffset text offset text.length) d)
    (main : Option LineToken)
    (hmain : LineToken.InOrder offset (sourceOffset text offset text.length) main.toList) :
    Neat src offset (sourceOffset text offset text.length)
      { source := text, offset, main, report := .ofDiagnostics ds } where
  tokens := by
    have hnone : LineToken.InOrder (sourceOffset text offset text.length)
        (sourceOffset text offset text.length) [] := Int.le_refl _
    exact hmain.append hnone
  problems := hds
  highlights := rfl

theorem inOrder_main (text : List Char) (offset : Int) :
    LineToken.InOrder offset (sourceOffset text offset text.length)
      [LineToken.covering text offset 0 text.length] :=
  LineToken.inOrder_singleton (Int.le_of_eq (sourceOffset_zero text offset).symm)
    (sourceOffset_mono text offset (Nat.zero_le _)) (Int.le_refl _)

/-- What is reported about the braces of a text lies in the text. -/
theorem exists_balance (src : Source) (text : List Char) (offset : Int) {i k : Nat} (hik : i ≤ k)
    (hk : k ≤ text.length) :
    ∃ ds : List Diagnostic,
      (∀ d ∈ ds, IsProblem src offset (sourceOffset text offset text.length) d) ∧
      (if text.count '{' = text.count '}' then ({ source := text, offset } : LineConfig)
        else ({ source := text, offset } : LineConfig).problem src i k "Mismatched braces!"
          .mismatchedBraces) =
        { source := text, offset, report := .ofDiagnostics ds } := by
  split
  · exact ⟨[], fun _ h => (nomatch h), rfl⟩
  · exact ⟨[spanProblem src text offset i k "Mismatched braces!" .mismatchedBraces],
      List.forall_mem_singleton.mpr (isProblem_spanProblem offset hik hk _ (by decide)), rfl⟩

theorem lt_length_of_lastIdx? {x : Char} {text : List Char} {k : Nat}
    (h : lastIdx? x text = some k) : k < text.length := by
  obtain ⟨i, hi, rfl⟩ := Option.map_eq_some_iff.mp h
  obtain ⟨hlt, -⟩ := List.findIdx?_eq_some_iff_getElem.mp hi
  rw [List.length_reverse] at hlt
  omega

theorem neat_readBlock (text : List Char) (offset : Int) :
    (readBlock src { source := text, offset }).Neat src offset
      (sourceOffset text offset text.length) := by
  have hmain := inOrder_main text offset
  unfold readBlock
  simp only
  cases ho : text.findIdx? (· = '{') with
  | none =>
    simp only
    cases hk : lastIdx? '}' text with
    | none =>
      obtain ⟨ds, hds, heq⟩ := exists_balance src text offset (Nat.zero_le _)
        (Nat.le_refl text.length)
      simp only [Option.getD_none, Option.map_none, heq]
      exact neat_whole offset hds _ hmain
    | some k =>
      obtain ⟨ds, hds, heq⟩ := exists_balance src text offset (Nat.zero_le _)
        (lt_length_of_lastIdx? hk)
      simp only [Option.getD_none, Option.getD_some, Option.map_some, heq]
      exact neat_whole offset hds _ hmain
  | some o =>
    obtain ⟨hlt, -⟩ := List.findIdx?_eq_some_iff_getElem.mp ho
    simp only
    cases hk : lastIdx? '}' text with
    | none =>
      obtain ⟨ds, hds, heq⟩ := exists_balance src text offset (Nat.le_of_lt hlt)
        (Nat.le_refl text.length)
      simp only [Option.getD_some, Option.getD_none, Option.map_none, heq]
      exact neat_block src offset hlt (Nat.le_refl _) none (fun _ h => nomatch h) hds
    | some k =>
      have hklt := lt_length_of_lastIdx? hk
      by_cases hok : o < k
      · obtain ⟨ds, hds, heq⟩ := exists_balance src text offset
          (Nat.le_succ_of_le (Nat.le_of_lt hok)) hklt
        simp only [if_pos hok, Option.getD_some, Option.map_some, heq]
        refine neat_block src offset hok (Nat.le_of_lt hklt) (some k) ?_ hds
        rintro k' hk'
        cases hk'
        exact ⟨rfl, hklt⟩
      · obtain ⟨ds, hds, heq⟩ := exists_balance src text offset (Nat.le_of_lt hlt)
          (Nat.le_refl text.length)
        simp only [if_neg hok, Option.getD_some, Option.getD_none, Option.map_none, heq]
        exact neat_block src offset hlt (Nat.le_refl _) none (fun _ h => nomatch h) hds

theorem neat_readBracket (text : List Char) (offset : Int) :
    (readBracket src { source := text, offset }).Neat src offset
      (sourceOffset text offset text.length) := by
  have hinvalid : ∀ d ∈ [spanProblem src text offset 0 text.length "Invalid block syntax!"
      .invalidBlockSyntax], IsProblem src offset (sourceOffset text offset text.length) d :=
    List.forall_mem_singleton.mpr
      (isProblem_spanProblem offset (Nat.zero_le _) (Nat.le_refl _) _ (by decide))
  have hnone : LineToken.InOrder offset (sourceOffset text offset text.length) [] :=
    (inOrder_main text offset).le
  unfold readBracket
  simp only
  split
  · rename_i o k ho hk
    split
    · rename_i hpair
      obtain ⟨hlt, -⟩ := List.findIdx?_eq_some_iff_getElem.mp hk
      refine ⟨⟨?_, ?_, ?_, ?_, ?_, ?_, ?_⟩, fun _ h => (nomatch h), rfl⟩
      · exact Int.le_of_eq (sourceOffset_zero text offset).symm
      · exact sourceOffset_mono text offset (Nat.zero_le o)
      · exact Int.le_refl _
      · exact sourceOffset_mono text offset (Nat.le_succ o)
      · exact sourceOffset_mono text offset hpair.2.2
      · exact sourceOffset_mono text offset (Nat.le_succ k)
      · exact sourceOffset_mono text offset hlt
    · exact neat_whole offset hinvalid none hnone
  · exact neat_whole offset hinvalid none hnone

/-- **The tokens of a configuration are in order, and its problems lie in it**, whatever the text
is. -/
theorem neat_parse (text : List Char) (offset : Int) :
    (parse src text offset).Neat src offset (sourceOffset text offset text.length) := by
  unfold parse read
  simp only
  split
  · exact neat_readBlock text offset
  · split
    · exact neat_readBracket text offset
    · exact neat_whole offset (List.forall_mem_nil _) _ (inOrder_main text offset)

/-! ## Highlights -/

theorem colours_entryHighlights (e : ConfigEntry) :
    Report.Colours src e.tokens (entryHighlights src e) := by
  unfold entryHighlights ConfigEntry.tokens
  simp only [Report.mergeAll_cons, Report.mergeAll_nil, Report.merge_empty]
  exact (e.key.colours_highlight src _).merge ((e.equals.colours_highlight src _).merge
    ((e.value.colours_highlight src _).merge (LineToken.colours_highlight? src _ e.semicolon)))

/-- **Just the tokens behind the name are highlighted.** -/
theorem colours_withHighlights (h : c.report.highlights = []) :
    Report.Colours src c.blockTokens (c.withHighlights src).report := by
  have hentries : Report.Colours src (c.entries.flatMap ConfigEntry.tokens)
      (.mergeAll (c.entries.map (entryHighlights src))) :=
    .mergeAll fun e _ => colours_entryHighlights e
  have hall := (LineToken.colours_highlight? src .operator c.openBrace).merge
    ((LineToken.colours_highlight? src .operator c.closeBrace).merge hentries)
  refine (Report.Colours.of_nil h).merge ?_
  unfold highlights
  rw [Report.mergeAll_cons, Report.mergeAll_cons]
  have hperm : (c.openBrace.toList ++ (c.closeBrace.toList ++
      c.entries.flatMap ConfigEntry.tokens)).Perm c.blockTokens := by
    unfold blockTokens
    rw [List.append_assoc]
    exact List.perm_append_comm.append_left _
  exact hall.perm hperm

end LineConfig

end PackLint
