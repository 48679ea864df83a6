import PackLint.Proofs.Yaml.Scalar

/-!
# Pieces of the text

A reader passes over a piece of the text: what stands between the place where it starts to read and
the place that it comes to. What it yields may depend on the piece.

Results:
* `Scan.Passes.bind`: readers in a row pass over the pieces in a row.
* `Scan.readsAt_anchor`, `Scan.readsAt_tag`: an anchor or a tag is read from the cursor on, and ends
  further on.
-/

namespace PackLint.Yaml

/-! ## Pieces of the text -/

namespace Cursor

theorem rest_skip (n : Nat) (c : Cursor) : (c.skip n).rest = c.rest.drop n := by
  induction n generalizing c with
  | zero => rfl
  | succ n ih =>
    obtain ⟨mark, rest, size⟩ := c
    cases rest with
    | nil => exact (ih _).trans (by rw [next]; simp)
    | cons d rest => exact ih _

theorem index_skip (n : Nat) (c : Cursor) :
    (c.skip n).mark.index = c.mark.index + (c.rest.take n).length := by
  induction n generalizing c with
  | zero => rfl
  | succ n ih =>
    obtain ⟨mark, rest, size⟩ := c
    cases rest with
    | nil => exact (ih _).trans (by rw [next]; simp)
    | cons d rest =>
      refine (ih _).trans ?_
      rw [next]
      simp only [Mark.index_after, List.take_succ_cons, List.length_cons]
      omega

/-- Between two places stands a piece of the text. -/
structure Spans (c : Cursor) (raw : List Char) (c' : Cursor) : Prop where
  rest : c.rest = raw ++ c'.rest
  index : c'.mark.index = c.mark.index + raw.length

variable {c c' c'' : Cursor} {raw raw' : List Char}

namespace Spans

theorem refl (c : Cursor) : c.Spans [] c := ⟨rfl, rfl⟩

theorem append (h : c.Spans raw c') (h' : c'.Spans raw' c'') : c.Spans (raw ++ raw') c'' where
  rest := by rw [h.rest, h'.rest, List.append_assoc]
  index := by rw [h'.index, h.index, List.length_append, Nat.add_assoc]

end Spans

theorem spans_skip (n : Nat) (c : Cursor) : c.Spans (c.rest.take n) (c.skip n) where
  rest := by rw [rest_skip, List.take_append_drop]
  index := index_skip n c

theorem Follows.spans (h : c'.Follows c) : ∃ raw, c.Spans raw c' := by
  obtain ⟨n, rfl⟩ := h
  exact ⟨_, c.spans_skip n⟩

/-- The next character, where there is one. -/
theorem rest_eq_cons {x : Char} (h : c.peek 0 = x) (hx : x ≠ endChar) :
    ∃ rest, c.rest = x :: rest := by
  unfold peek at h
  cases hrest : c.rest with
  | nil =>
    rw [hrest] at h
    exact absurd h.symm hx
  | cons d rest =>
    rw [hrest] at h
    cases h
    exact ⟨rest, rfl⟩

theorem take_one {x : Char} (h : c.peek 0 = x) (hx : x ≠ endChar) : c.rest.take 1 = [x] := by
  obtain ⟨rest, hrest⟩ := rest_eq_cons h hx
  rw [hrest]
  rfl

theorem take_two {x y : Char} (h : c.peek 0 = x) (hx : x ≠ endChar) (h' : c.peek 1 = y)
    (hy : y ≠ endChar) : c.rest.take 2 = [x, y] := by
  obtain ⟨rest, hrest⟩ := rest_eq_cons h hx
  have htail : (c.skip 1).peek 0 = y := by
    unfold peek at h' ⊢
    rw [rest_skip, hrest]
    rwa [hrest] at h'
  have hone := take_one htail hy
  rw [rest_skip, hrest] at hone
  rw [hrest]
  exact congrArg (x :: ·) hone

theorem fst_span (p : Char → Bool) (c : Cursor) : (c.span p).1 = c.rest.takeWhile p := by
  obtain ⟨mark, rest, size⟩ := c
  unfold span
  simp only
  induction rest generalizing mark with
  | nil => rfl
  | cons d rest ih =>
    rw [spanFrom, List.takeWhile_cons]
    split
    · exact congrArg (d :: ·) (ih _)
    · rfl

theorem spans_span (p : Char → Bool) (c : Cursor) : c.Spans (c.span p).1 (c.span p).2 := by
  have htake : c.rest.take (c.span p).1.length = (c.span p).1 := by
    rw [fst_span]
    exact (List.prefix_iff_eq_take.mp (List.takeWhile_prefix p)).symm
  have h := c.spans_skip (c.span p).1.length
  rwa [htake, ← span_eq_skip] at h

end Cursor

/-- There is a line break in the piece. -/
def Broken (raw : List Char) : Prop := ∃ x ∈ raw, isBreak x

-- Only the characters of the piece are looked at, and not all that there are.
instance (raw : List Char) : Decidable (Broken raw) :=
  List.decidableBEx (fun x => isBreak x) raw

theorem Broken.append_left {raw : List Char} (h : Broken raw) (raw' : List Char) :
    Broken (raw ++ raw') :=
  h.imp fun _ hx => ⟨List.mem_append_left _ hx.1, hx.2⟩

theorem Broken.append_right {raw' : List Char} (h : Broken raw') (raw : List Char) :
    Broken (raw ++ raw') :=
  h.imp fun _ hx => ⟨List.mem_append_right _ hx.1, hx.2⟩

/-- The token starts at a cursor and ends further on, no later than at an index. -/
structure Token.Begins (c : Cursor) (t : Token) (i : Nat) : Prop where
  start : t.start = c.mark
  wide : c.mark.index < t.stop.index
  stop : t.stop.index ≤ i

theorem Token.Begins.piece {c c' : Cursor} {t : Token} (h : t.Begins c c'.mark.index)
    (hc : c'.Follows c) : ∃ raw, raw <+: c.rest ∧ t.stop.index = c.mark.index + raw.length ∧
      raw.head? = c.rest.head? := by
  obtain ⟨all, hspans⟩ := hc.spans
  have hstop := h.stop
  have hwide := h.wide
  have hindex := hspans.index
  have hlength : (all.take (t.stop.index - c.mark.index)).length =
      t.stop.index - c.mark.index := by
    rw [List.length_take]
    omega
  refine ⟨all.take (t.stop.index - c.mark.index), ?_, ?_, ?_⟩
  · rw [hspans.rest]
    exact (List.take_prefix _ _).trans (List.prefix_append _ _)
  · omega
  · obtain ⟨d, rest, rfl⟩ : ∃ d rest, all = d :: rest :=
      List.exists_cons_of_length_pos (by omega)
    rw [hspans.rest, List.head?_take, if_neg (by omega)]
    rfl

/-! ## Readers that pass over a piece -/

namespace Scan

variable {α β : Type} {c : Cursor} {s : Scan α} {f : α → Scan β}

/-- The reader passes over a piece of the text; of what it yields, the piece and the place behind it
`post` holds. -/
def Passes (c : Cursor) (s : Scan α) (post : α → List Char → Cursor → Prop) : Prop :=
  Ensures (s c) fun r => ∃ raw, c.Spans raw r.2 ∧ post r.1 raw r.2

variable {post post' mid : α → List Char → Cursor → Prop}

namespace Passes

theorem bind {post : β → List Char → Cursor → Prop} (hs : Passes c s mid)
    (hf : ∀ a raw c', c.Spans raw c' → mid a raw c' →
      Passes c' (f a) fun b raw' => post b (raw ++ raw')) :
    Passes c (s >>= f) post := by
  refine Ensures.bind hs fun r hr => ?_
  obtain ⟨raw, hspans, hmid⟩ := hr
  refine (hf r.1 raw r.2 hspans hmid).imp fun q hq => ?_
  obtain ⟨raw', hspans', hpost⟩ := hq
  exact ⟨raw ++ raw', hspans.append hspans', hpost⟩

theorem pure {a : α} (h : post a [] c) : Passes c (pure a) post :=
  Ensures.pure ⟨[], .refl c, h⟩

theorem fail (problem : String) : Passes c (fail problem : Scan α) post := Ensures.throw _

theorem imp (h : Passes c s post)
    (hpost : ∀ a raw c', c.Spans raw c' → post a raw c' → post' a raw c') :
    Passes c s post' := by
  refine Ensures.imp h fun r hr => ?_
  obtain ⟨raw, hspans, hr⟩ := hr
  exact ⟨raw, hspans, hpost _ _ _ hspans hr⟩

/-- What is only looked at is not passed over. -/
theorem get {f : Cursor → Scan α} (h : Passes c (f c) post) :
    Passes c (get >>= f) post := h

theorem peekAt {f : Char → Scan α} {k : Nat} (h : Passes c (f (c.peek k)) post) :
    Passes c (peekAt k >>= f) post := h

theorem peek {f : Char → Scan α} (h : Passes c (f (c.peek 0)) post) :
    Passes c (peek >>= f) post := h

theorem size {f : Nat → Scan α} (h : Passes c (f c.size) post) :
    Passes c (size >>= f) post := h

theorem mark {f : Mark → Scan α} (h : Passes c (f c.mark) post) :
    Passes c (mark >>= f) post := h

theorem skip (n : Nat) : Passes c (skip n) fun _ raw _ => raw = c.rest.take n :=
  Ensures.pure ⟨_, c.spans_skip n, rfl⟩

theorem take (n : Nat) : Passes c (take n) fun piece raw _ => raw = piece ∧ piece = c.rest.take n :=
  Ensures.pure ⟨_, c.spans_skip n, rfl, rfl⟩

theorem span (p : Char → Bool) :
    Passes c (span p) fun run raw _ => raw = run ∧ run = c.rest.takeWhile p :=
  Ensures.pure ⟨_, c.spans_span p, rfl, c.fst_span p⟩

/-- A condition on which the reader fails. -/
theorem guard {p : Prop} [Decidable p] {problem : String} {rest : PUnit → Scan α}
    (h : ¬ p → Passes c (rest ()) post) :
    Passes c (if p then Scan.fail problem >>= rest else rest ()) post := by
  split
  · rintro _ ⟨⟩
  · exact h ‹_›

end Passes

theorem Forward.passes (h : Forward s) : Passes c s fun _ _ _ => True :=
  (h c).imp fun _ hr => hr.spans.imp fun _ hspans => ⟨hspans, trivial⟩

/-! ## Line breaks -/

theorem broken_take {n : Nat} (hn : 0 < n) (h : isBreak (c.peek 0)) : Broken (c.rest.take n) := by
  have hne : c.peek 0 ≠ endChar := fun heq => by
    rw [heq] at h
    exact absurd h (by decide)
  obtain ⟨rest, hrest⟩ := Cursor.rest_eq_cons rfl hne
  obtain ⟨n, rfl⟩ := Nat.exists_eq_succ_of_ne_zero (Nat.ne_of_gt hn)
  refine ⟨c.peek 0, ?_, h⟩
  rw [hrest, List.take_succ_cons]
  exact List.mem_cons_self

/-- A line break is read where there is one, and else nothing. -/
theorem passes_lineBreak? : Passes c lineBreak? fun r raw _ =>
    match r with
    | some _ => Broken raw
    | none => raw = [] := by
  unfold lineBreak?
  refine .peek ?_
  split
  · rename_i hc
    refine .peekAt ((Passes.skip _).bind fun _ raw _ _ hraw => .pure ?_)
    subst hraw
    refine (broken_take ?_ ?_).append_left []
    · split <;> decide
    · rcases hc with hc | hc | hc <;> rw [hc] <;> decide
  · split
    · rename_i hc
      refine (Passes.skip 1).bind fun _ raw _ _ hraw => .pure ?_
      subst hraw
      refine (broken_take Nat.one_pos ?_).append_left []
      rcases hc with hc | hc <;> rw [hc] <;> decide
    · exact .pure rfl

/-! ## Anchors and tags -/

/-- From the cursor the reader moves on, and `post` holds of what it reads and of the index that it
comes to. -/
def ReadsAt (c : Cursor) (s : Scan α) (post : α → Nat → Prop) : Prop :=
  Ensures (s c) fun r => r.2.Follows c ∧ post r.1 r.2.mark.index

namespace ReadsAt

variable {k : Nat} {post : α → Nat → Prop}

theorem bind {post : β → Nat → Prop} (hs : ReadsAt c s fun _ i => k ≤ i)
    (hf : ∀ a, Reads k (f a) post) : ReadsAt c (s >>= f) post := by
  refine Ensures.bind hs fun r hr => ?_
  exact (hf r.1 r.2 hr.2).imp fun _ hq => ⟨hq.1.trans hr.1, hq.2⟩

theorem mark {f : Mark → Scan α} (h : ReadsAt c (f c.mark) post) : ReadsAt c (mark >>= f) post := h

theorem peekAt {f : Char → Scan α} {n : Nat} (h : ReadsAt c (f (c.peek n)) post) :
    ReadsAt c (peekAt n >>= f) post := h

theorem peek {f : Char → Scan α} (h : ReadsAt c (f (c.peek 0)) post) :
    ReadsAt c (peek >>= f) post := h

theorem get {f : Cursor → Scan α} (h : ReadsAt c (f c) post) : ReadsAt c (get >>= f) post := h

theorem guard {p : Prop} [Decidable p] {problem : String} {rest : PUnit → Scan α}
    (h : ReadsAt c (rest ()) post) :
    ReadsAt c (if p then fail problem >>= rest else rest ()) post := by
  split
  · rintro _ ⟨⟩
  · exact h

theorem skip {f : Unit → Scan α} (n : Nat) (hc : c.rest ≠ [])
    (hf : Reads (c.mark.index + 1) (f ()) post) : ReadsAt c (skip (n + 1) >>= f) post := by
  refine bind (k := c.mark.index + 1) (Ensures.pure ⟨⟨n + 1, rfl⟩, ?_⟩) fun _ => hf
  obtain ⟨d, rest, hrest⟩ := List.exists_cons_of_ne_nil hc
  change c.mark.index + 1 ≤ (c.skip (n + 1)).mark.index
  rw [Cursor.index_skip, hrest, List.take_succ_cons, List.length_cons]
  omega

end ReadsAt

theorem reads_token_begun (kind : TokenKind) : Reads (c.mark.index + 1)
    (do return (⟨kind, c.mark, ← mark⟩ : Token)) fun t i => t.kind = kind ∧ t.Begins c i :=
  reads_mark.bind fun _ _ hle hstop => .pure fun _ hi => ⟨rfl, rfl, hstop ▸ hle, hstop ▸ hi⟩

theorem readsAt_anchor (kind : String → TokenKind) (hc : c.rest ≠ []) :
    ReadsAt c (anchor kind) fun t i => (∃ name, t.kind = kind name) ∧ t.Begins c i := by
  unfold anchor
  refine .mark (.skip 0 hc ?_)
  refine .after (forward_span _) fun name => .when (.fail _) ?_
  refine .after forward_peek fun _ => .when (.fail _) ?_
  exact fun c' hc' => (reads_token_begun _ c' hc').imp fun r hr => ⟨hr.1, ⟨_, hr.2.1⟩, hr.2.2⟩

theorem readsAt_tagHandle (hc : c.rest ≠ []) :
    ReadsAt c tagHandle fun _ i => c.mark.index + 1 ≤ i := by
  unfold tagHandle
  refine .peek (.guard (.skip 0 hc (Forward.reads (forward_peek.bind fun _ => ?_))))
  split
  · exact .pure _
  · exact (forward_span _).bind fun _ => forward_peek.bind fun _ => .when (.fail _)
      ((forward_skip 1).bind fun _ => .pure _)

theorem readsAt_tag (version : Version) (hc : c.rest ≠ []) : ReadsAt c (tag version) fun t i =>
    (∃ handle suffix, t.kind = .tag handle suffix) ∧ t.Begins c i := by
  unfold tag
  refine .mark (.peekAt ?_)
  have hend : ∀ handle suffix, Reads (c.mark.index + 1) (do
      let d ← peek
      if d ≠ ' ' ∧ !isLineEnd d then fail "expected a space behind a tag"
      return (⟨.tag handle suffix, c.mark, ← mark⟩ : Token)) fun t i =>
        (∃ handle suffix, t.kind = .tag handle suffix) ∧ t.Begins c i := by
    intro handle suffix
    refine .after forward_peek fun _ => .when (.fail _) fun c' hc' => ?_
    exact (reads_token_begun _ c' hc').imp fun r hr => ⟨hr.1, ⟨_, _, hr.2.1⟩, hr.2.2⟩
  have hsuffix : ∀ handle, Reads (c.mark.index + 1) _ _ := fun handle =>
    .after (forward_tagSuffix version) fun suffix => .pure_bind (hend (some handle) suffix)
  have hverbatim : Reads (c.mark.index + 1) (do
      let suffix ← tagSuffix version
      if (← peek) ≠ '>' then fail "expected '>'"
      skip 1
      let kind ← pure (TokenKind.tag none suffix)
      let d ← peek
      if d ≠ ' ' ∧ !isLineEnd d then fail "expected a space behind a tag"
      return (⟨kind, c.mark, ← mark⟩ : Token)) fun t i =>
        (∃ handle suffix, t.kind = .tag handle suffix) ∧ t.Begins c i :=
    .after (forward_tagSuffix version) fun suffix => .after forward_peek fun _ =>
      .when (.fail _) (.after (forward_skip 1) fun _ => .pure_bind (hend none suffix))
  simp only
  split
  · refine .skip 0 hc (.after (forward_peekAt 1) fun _ => ?_)
    split
    · exact .after (forward_skip 2) fun _ => hverbatim
    · split
      · exact .after (forward_skip 1) fun _ => .pure_bind (hend _ _)
      · refine .after forward_get fun _ => ?_
        split
        · exact .after forward_tagHandle hsuffix
        · exact .after ((forward_skip 1).bind fun _ => .pure _) hsuffix
  · refine .peekAt ?_
    split
    · exact .skip 1 hc hverbatim
    · split
      · exact .skip 0 hc (.pure_bind (hend _ _))
      · refine .get ?_
        split
        · exact (readsAt_tagHandle hc).bind hsuffix
        · exact .bind (.skip 0 hc (.pure fun _ hi => hi)) hsuffix

end Scan

end PackLint.Yaml
