import PackLint.Yaml.Token.Property
import PackLint.Yaml.Token.Scalar
import Mathlib.Tactic.SplitIfs

/-!
# Reading moves on

A scanner never goes back in the text: it moves its cursor on, character by character. So the tokens
that it reads start where its cursor stood, end no earlier than they start, and no later than its
cursor stands then. Each scanner has one lemma that says so: `Forward` if it yields no place in the
text, and else `Reads`, which also tells what holds of the place.

Results:
* `Scan.reads_tag`, `Scan.reads_anchor`, `Scan.reads_directive`: the tokens of tags, anchors and
  directives stand where they are read.
-/

namespace PackLint.Yaml

/-! ## Outcomes -/

/-- A computation ensures a property if it fails or yields what has the property. -/
def Ensures {α : Type} (x : Except Error α) (P : α → Prop) : Prop := ∀ a, x = .ok a → P a

namespace Ensures

variable {α β : Type} {x : Except Error α} {f : α → Except Error β} {P P' : α → Prop}
  {Q : β → Prop}

theorem pure {a : α} (h : P a) : Ensures (pure a) P := by
  rintro _ ⟨⟩
  exact h

theorem throw (e : Error) : Ensures (throw e) P := by
  rintro _ ⟨⟩

theorem bind (hx : Ensures x P) (hf : ∀ a, P a → Ensures (f a) Q) : Ensures (x >>= f) Q := by
  intro b h
  cases x with
  | error e => cases h
  | ok a => exact hf a (hx a rfl) b h

theorem pure_bind {a : α} (h : Ensures (f a) Q) : Ensures (Pure.pure a >>= f) Q := h

/-- Nothing is asked of what is yielded. -/
theorem anyhow (x : Except Error α) : Ensures x fun _ => True := fun _ _ => trivial

theorem imp (hx : Ensures x P) (h : ∀ a, P a → P' a) : Ensures x P' :=
  fun a ha => h a (hx a ha)

/-- A condition on which the computation fails. -/
theorem guard {p : Prop} [Decidable p] {e : Error} {rest : PUnit → Except Error α}
    (h : Ensures (rest ()) P) :
    Ensures (if p then MonadExcept.throw e >>= rest else rest ()) P := by
  split
  · exact (throw e : Ensures _ fun _ => False).bind fun _ h => h.elim
  · exact h

theorem cases {p : Prop} [Decidable p] {y : Except Error α} (hx : p → Ensures x P)
    (hy : ¬ p → Ensures y P) : Ensures (if p then x else y) P := by
  split
  · exact hx ‹_›
  · exact hy ‹_›

theorem ite {p : Prop} [Decidable p] {y : Except Error α} (hx : Ensures x P)
    (hy : ¬ p → Ensures y P) : Ensures (if p then x else y) P :=
  cases (fun _ => hx) hy

end Ensures

/-! ## Cursors -/

theorem Mark.index_after (m : Mark) (c : Char) (rest : List Char) :
    (m.after c rest).index = m.index + 1 := by
  unfold Mark.after
  split_ifs <;> rfl

namespace Cursor

theorem index_next_le (c : Cursor) : c.mark.index ≤ c.next.mark.index := by
  unfold next
  split
  · exact Nat.le_refl _
  · simp only [Mark.index_after]
    exact Nat.le_succ _

theorem index_le_skip (n : Nat) (c : Cursor) : c.mark.index ≤ (c.skip n).mark.index := by
  induction n generalizing c with
  | zero => exact Nat.le_refl _
  | succ n ih => exact Nat.le_trans (index_next_le c) (ih c.next)

theorem skip_skip (m n : Nat) (c : Cursor) : (c.skip m).skip n = c.skip (m + n) := by
  induction m generalizing c with
  | zero => rw [Nat.zero_add]; rfl
  | succ m ih =>
    rw [Nat.succ_add]
    exact ih c.next

/-- Reading a run is moving on by its length. -/
theorem span_eq_skip (p : Char → Bool) (c : Cursor) :
    (c.span p).2 = c.skip (c.span p).1.length := by
  obtain ⟨mark, rest, size⟩ := c
  unfold span
  simp only
  induction rest generalizing mark with
  | nil => rfl
  | cons d rest ih =>
    unfold spanFrom
    split
    · exact ih (mark.after d rest)
    · rfl

/-- The cursor has moved on from another one. -/
def Follows (c' c : Cursor) : Prop := ∃ n, c' = c.skip n

namespace Follows

variable {c c' c'' : Cursor}

theorem refl (c : Cursor) : c.Follows c := ⟨0, rfl⟩

theorem trans (h : c''.Follows c') (h' : c'.Follows c) : c''.Follows c := by
  obtain ⟨n, rfl⟩ := h
  obtain ⟨m, rfl⟩ := h'
  exact ⟨m + n, skip_skip m n c⟩

theorem index_le (h : c'.Follows c) : c.mark.index ≤ c'.mark.index := by
  obtain ⟨n, rfl⟩ := h
  exact index_le_skip n c

end Follows

end Cursor

/-- The token stands between two indices, and is no mark of a value. -/
structure Token.Between (lo hi : Nat) (t : Token) : Prop where
  start : lo ≤ t.start.index
  wide : t.start.index ≤ t.stop.index
  stop : t.stop.index ≤ hi
  kind : t.kind ≠ .value

namespace Scan

variable {α β : Type} {k : Nat} {s : Scan α} {f : α → Scan β} {post mid : α → Nat → Prop}

/-- The reader moves on. -/
def Forward (s : Scan α) : Prop := ∀ c, Ensures (s c) fun r => r.2.Follows c

/-- From an index that is at least `k` the reader moves on, and `post` holds of what it reads and of
the index that it comes to. -/
def Reads (k : Nat) (s : Scan α) (post : α → Nat → Prop) : Prop :=
  ∀ c, k ≤ c.mark.index → Ensures (s c) fun r => r.2.Follows c ∧ post r.1 r.2.mark.index

/-! ## Sequences -/

namespace Reads

theorem bind {post : β → Nat → Prop} (hs : Reads k s mid)
    (hf : ∀ a i, k ≤ i → mid a i → Reads i (f a) post) : Reads k (s >>= f) post := by
  intro c hk
  refine Ensures.bind (hs c hk) fun r hr => ?_
  exact (hf r.1 _ (Nat.le_trans hk hr.1.index_le) hr.2 r.2 (Nat.le_refl _)).imp fun _ hq =>
    ⟨hq.1.trans hr.1, hq.2⟩

theorem pure {a : α} (h : ∀ i, k ≤ i → post a i) : Reads k (pure a) post :=
  fun c hk => .pure ⟨.refl c, h _ hk⟩

theorem pure_bind {post : β → Nat → Prop} {a : α} (h : Reads k (f a) post) :
    Reads k (Pure.pure a >>= f) post := h

/-- What is only passed over changes nothing. -/
theorem after {post : β → Nat → Prop} (hs : Forward s) (hf : ∀ a, Reads k (f a) post) :
    Reads k (s >>= f) post := by
  intro c hk
  refine Ensures.bind (hs c) fun r hr => ?_
  exact (hf r.1 r.2 (Nat.le_trans hk hr.index_le)).imp fun _ hq => ⟨hq.1.trans hr, hq.2⟩

theorem when {p : Prop} [Decidable p] {first : Scan PUnit} {rest : PUnit → Scan α}
    (hfirst : Forward first) (hrest : Reads k (rest ()) post) :
    Reads k (if p then first >>= rest else rest ()) post := by
  split
  · exact .after hfirst fun _ => hrest
  · exact hrest

theorem of_le {i : Nat} (h : Reads k s post) (hi : k ≤ i) : Reads i s post :=
  fun c hc => h c (Nat.le_trans hi hc)

theorem forward (h : Reads 0 s post) : Forward s :=
  fun c => (h c (Nat.zero_le _)).imp fun _ hr => hr.1

end Reads

namespace Forward

theorem reads (h : Forward s) : Reads k s fun _ i => k ≤ i :=
  fun c hk => (h c).imp fun _ hr => ⟨hr, Nat.le_trans hk hr.index_le⟩

theorem bind (hs : Forward s) (hf : ∀ a, Forward (f a)) : Forward (s >>= f) :=
  fun c => Ensures.bind (hs c) fun r hr => (hf r.1 r.2).imp fun _ hq => hq.trans hr

theorem pure (a : α) : Forward (pure a : Scan α) := fun c => .pure (.refl c)

theorem throw (e : Error) : Forward (throw e : Scan α) := fun _ => .throw e

theorem fail (problem : String) : Forward (fail problem : Scan α) := fun _ => .throw _

/-- What is read first on a condition only. -/
theorem when {p : Prop} [Decidable p] {first : Scan PUnit} {rest : PUnit → Scan α}
    (hfirst : Forward first) (hrest : Forward (rest ())) :
    Forward (if p then first >>= rest else rest ()) := by
  split
  · exact hfirst.bind fun _ => hrest
  · exact hrest

end Forward

/-! ## Steps -/

theorem forward_get : Forward (get : Scan Cursor) := fun c => .pure (.refl c)

theorem forward_peekAt (n : Nat) : Forward (peekAt n) := fun c => .pure (.refl c)

theorem forward_peek : Forward peek := forward_peekAt 0

theorem forward_size : Forward size := fun c => .pure (.refl c)

theorem reads_mark : Reads k mark fun m i => m.index = i := fun c _ => .pure ⟨.refl c, rfl⟩

theorem forward_mark : Forward mark := reads_mark.forward

theorem forward_skip (n : Nat) : Forward (skip n) := fun _ => .pure ⟨n, rfl⟩

theorem forward_span (p : Char → Bool) : Forward (span p) :=
  fun c => .pure ⟨_, c.span_eq_skip p⟩

theorem forward_take (n : Nat) : Forward (take n) := fun _ => .pure ⟨n, rfl⟩

theorem forward_skipWhile (p : Char → Bool) : Forward (skipWhile p) :=
  (forward_span p).bind fun _ => .pure _

theorem forward_lineBreak? : Forward lineBreak? := by
  unfold lineBreak?
  refine forward_peek.bind fun c => ?_
  split
  · refine (forward_peekAt 1).bind fun d => (forward_skip _).bind fun _ => .pure _
  · split
    · exact (forward_skip 1).bind fun _ => .pure _
    · exact .pure _

theorem forward_skipComment : Forward skipComment := by
  unfold skipComment
  refine forward_peek.bind fun c => ?_
  split
  · exact forward_skipWhile _
  · exact .pure _

theorem forward_atDocumentMark (c : Char) : Forward (atDocumentMark c) := by
  unfold atDocumentMark
  exact forward_peek.bind fun _ => (forward_peekAt 1).bind fun _ => (forward_peekAt 2).bind fun _ =>
    (forward_peekAt 3).bind fun _ => .pure _

theorem forward_atDocumentBoundary : Forward atDocumentBoundary :=
  (forward_atDocumentMark '-').bind fun _ => (forward_atDocumentMark '.').bind fun _ => .pure _

/-! ## Tags and anchors -/

theorem forward_skipUriEscapes (start : Mark) (fuel : Nat) (bytes : List Nat) :
    Forward (skipUriEscapes start fuel bytes) := by
  induction fuel generalizing bytes with
  | zero => exact .pure _
  | succ fuel ih =>
    unfold skipUriEscapes
    refine forward_peek.bind fun c => ?_
    split
    · split
      · exact .throw _
      · exact .pure _
    · refine (forward_skip 1).bind fun _ => forward_peek.bind fun _ => (forward_peekAt 1).bind
        fun _ => ?_
      split
      · exact (forward_skip 2).bind fun _ => ih _
      · exact .fail _

theorem forward_uriChars (version : Version) (fuel : Nat) (acc : List Char) :
    Forward (uriChars version fuel acc) := by
  induction fuel generalizing acc with
  | zero => exact .pure _
  | succ fuel ih =>
    unfold uriChars
    refine forward_peek.bind fun c => ?_
    split
    · exact forward_get.bind fun _ => forward_size.bind fun _ =>
        (forward_skipUriEscapes _ _ _).bind fun _ => forward_mark.bind fun _ => ih _
    · split
      · exact (forward_span _).bind fun _ => ih _
      · exact .pure _

theorem forward_tagUri (version : Version) : Forward (tagUri version) := by
  unfold tagUri
  refine forward_size.bind fun _ => (forward_uriChars version _ _).bind fun uri => ?_
  split
  · exact (Forward.fail _).bind fun _ => .pure _
  · exact .pure _

theorem forward_tagSuffix (version : Version) : Forward (tagSuffix version) :=
  (forward_tagUri version).bind fun _ => .pure _

theorem forward_tagHandle : Forward tagHandle := by
  unfold tagHandle
  refine forward_peek.bind fun _ => .when (.fail _) ?_
  refine (forward_skip 1).bind fun _ => forward_peek.bind fun _ => ?_
  split
  · exact .pure _
  · exact (forward_span _).bind fun _ => forward_peek.bind fun _ => .when (.fail _)
      ((forward_skip 1).bind fun _ => .pure _)

/-! ## Tokens -/

/-- A token that starts where the cursor stands. -/
theorem Reads.token {body : Mark → Scan Token}
    (h : ∀ start, Reads start.index (body start) fun t i => t.Between start.index i) :
    Reads k (mark >>= body) fun t i => t.Between k i := by
  refine reads_mark.bind fun start i hi hstart => ?_
  subst hstart
  exact fun c hc => (h start c hc).imp fun r hr =>
    ⟨hr.1, Nat.le_trans hi hr.2.start, hr.2.wide, hr.2.stop, hr.2.kind⟩

/-- A token that ends where the cursor stands. -/
theorem reads_token_here {kind : TokenKind} (hkind : kind ≠ .value) (start : Mark) :
    Reads start.index (do return (⟨kind, start, ← mark⟩ : Token))
      fun t i => t.Between start.index i :=
  reads_mark.bind fun _ _ hle hstop => .pure fun _ hi =>
    ⟨Nat.le_refl _, hstop ▸ hle, hstop ▸ hi, hkind⟩

theorem reads_tag (version : Version) : Reads k (tag version) fun t i => t.Between k i := by
  unfold tag
  refine .token fun start => .after (forward_peekAt 1) fun c => ?_
  have hend : ∀ kind, kind ≠ .value → Reads start.index (do
      let c ← peek
      if c ≠ ' ' ∧ !isLineEnd c then fail "expected a space behind a tag"
      return (⟨kind, start, ← mark⟩ : Token)) fun t i => t.Between start.index i :=
    fun kind hkind => .after forward_peek fun _ => .when (.fail _) (reads_token_here hkind start)
  refine .when (forward_skip 1) (.after (forward_peekAt 1) fun d => ?_)
  split
  · exact .after (forward_skip 2) fun _ => .after (forward_tagSuffix version) fun suffix =>
      .after forward_peek fun _ => .when (.fail _)
        (.after (forward_skip 1) fun _ => .pure_bind (hend _ nofun))
  · split
    · exact .after (forward_skip 1) fun _ => .pure_bind (hend _ nofun)
    · have hsuffix : ∀ handle, Reads start.index _ _ := fun handle =>
        .after (forward_tagSuffix version) fun suffix =>
          .pure_bind (hend (.tag (some handle) suffix) nofun)
      refine .after forward_get fun before => ?_
      simp only
      split
      · exact .after forward_tagHandle hsuffix
      · exact .after ((forward_skip 1).bind fun _ => .pure _) hsuffix

theorem reads_anchor {kind : String → TokenKind} (hkind : ∀ name, kind name ≠ .value) :
    Reads k (anchor kind) fun t i => t.Between k i := by
  unfold anchor
  exact .token fun start => .after (forward_skip 1) fun _ => .after (forward_span _) fun _ =>
    .when (.fail _) (.after forward_peek fun _ => .when (.fail _)
      (reads_token_here (hkind _) start))

/-! ## Directives -/

theorem forward_directiveNumber : Forward directiveNumber := by
  unfold directiveNumber
  exact (forward_span _).bind fun _ => .when (.fail _) (.pure _)

theorem forward_directiveEnd : Forward directiveEnd := by
  unfold directiveEnd
  refine forward_peek.bind fun _ => ?_
  split
  · exact .fail _
  · exact .pure _

theorem reads_versionDirective : Reads k versionDirective fun kind _ => kind ≠ .value := by
  unfold versionDirective
  exact .after (forward_skipWhile _) fun _ => .after forward_directiveNumber fun _ =>
    .after forward_peek fun _ => .when (.fail _) (.after (forward_skip 1) fun _ =>
      .after forward_directiveNumber fun _ => .after forward_directiveEnd fun _ =>
        .pure fun _ _ => nofun)

theorem reads_tagDirective (version : Version) :
    Reads k (tagDirective version) fun kind _ => kind ≠ .value := by
  unfold tagDirective
  exact .after (forward_skipWhile _) fun _ => .after forward_tagHandle fun _ =>
    .after forward_peek fun _ => .when (.fail _) (.after (forward_skipWhile _) fun _ =>
      .after (forward_tagUri version) fun _ => .after forward_directiveEnd fun _ =>
        .pure fun _ _ => nofun)

/-- The token of a directive, with what may stand on the rest of its line. -/
def directiveLine (start : Mark) (kind : TokenKind) : Scan Token := do
  let stop ← mark
  if kind = .otherDirective then skipWhile (!isLineEnd ·)
  skipWhile (· = ' ')
  skipComment
  if !isLineEnd (← peek) then fail "expected a comment or a line break"
  let _ ← lineBreak?
  return ⟨kind, start, stop⟩

theorem reads_directiveLine {start : Mark} {i : Nat} (hi : start.index ≤ i) {kind : TokenKind}
    (hkind : kind ≠ .value) :
    Reads i (directiveLine start kind) fun t j => t.Between start.index j := by
  unfold directiveLine
  refine reads_mark.bind fun stop j hj hstop => .when (forward_skipWhile _) ?_
  refine .after (forward_skipWhile _) fun _ => .after forward_skipComment fun _ =>
    .after forward_peek fun _ => .when (.fail _) (.after forward_lineBreak? fun _ => ?_)
  exact .pure fun k hk => ⟨Nat.le_refl _, hstop ▸ Nat.le_trans hi hj, hstop ▸ hk, hkind⟩

theorem reads_directive (version : Version) :
    Reads k (directive version) fun t i => t.Between k i := by
  unfold directive
  refine .token fun start => .after (forward_skip 1) fun _ => .after (forward_span _) fun name =>
    .when (.fail _) (.after forward_directiveEnd fun _ => ?_)
  split
  · exact reads_versionDirective.bind fun kind _ hi hkind => reads_directiveLine hi hkind
  · exact (reads_tagDirective version).bind fun kind _ hi hkind => reads_directiveLine hi hkind
  · exact .pure_bind (reads_directiveLine (Nat.le_refl _) nofun)

end Scan

end PackLint.Yaml
