import PackLint.Proofs.Yaml.Scalar
import PackLint.Yaml.Token.Stream
import Mathlib.Data.List.Pairwise

/-!
# Tokens stand in the order of the text

No token starts before the one in front of it ends. This is more than reading from left to right
gives: the token of a simple key is put in front of tokens that have been read already, so the lexer
must remember between which of them the key started.

Results:
* `Lexer.Orderly.step`: a step keeps the tokens and the places of keys in order.
* `Token.inOrder_stream`: the tokens of a text are in order.
-/

namespace PackLint.Yaml

/-! ## Tokens in order -/

/-- A token ends no earlier than it starts, and the mark of a value later. -/
structure Token.Wide (t : Token) : Prop where
  le : t.start.index ≤ t.stop.index
  lt : t.kind = .value → t.start.index < t.stop.index

theorem Token.Between.toWide {lo hi : Nat} {t : Token} (h : t.Between lo hi) : t.Wide :=
  ⟨h.wide, fun hkind => absurd hkind h.kind⟩

/-- No token starts before the one in front of it ends. -/
structure Token.InOrder (ts : List Token) : Prop where
  apart : ts.Pairwise fun t u => t.stop.index ≤ u.start.index
  wide : ∀ t ∈ ts, t.Wide

/-- A token that stands in front of those after it and behind those before it. -/
theorem Token.InOrder.insert {front behind : List Token} {t : Token}
    (h : Token.InOrder (front ++ behind)) (hwide : t.Wide)
    (hfront : ∀ u ∈ front, u.stop.index ≤ t.start.index)
    (hbehind : ∀ u ∈ behind, t.stop.index ≤ u.start.index) :
    Token.InOrder (front ++ t :: behind) where
  apart := by
    obtain ⟨hf, hb, hfb⟩ := List.pairwise_append.mp h.apart
    refine List.pairwise_append.mpr ⟨hf, List.pairwise_cons.mpr ⟨hbehind, hb⟩, fun u hu => ?_⟩
    exact List.forall_mem_cons.mpr ⟨hfront u hu, hfb u hu⟩
  wide := by
    obtain ⟨hf, hb⟩ := List.forall_mem_append.mp h.wide
    exact List.forall_mem_append.mpr ⟨hf, List.forall_mem_cons.mpr ⟨hwide, hb⟩⟩

theorem Token.InOrder.sublist {ts us : List Token} (h : Token.InOrder ts) (hs : us.Sublist ts) :
    Token.InOrder us :=
  ⟨h.apart.sublist hs, fun t ht => h.wide t (hs.subset ht)⟩

/-! ## Places of keys -/

/-- A key starts between the tokens before the first of its own and the others. -/
def SimpleKey.StartsIn (ts : List Token) (key : SimpleKey) : Prop :=
  ∃ front behind, ts = front ++ behind ∧ front.length = key.tokenIndex ∧
    (∀ t ∈ front, t.stop.index ≤ key.mark.index) ∧ ∀ t ∈ behind, key.mark.index ≤ t.start.index

/-- One key starts no later than the other, and further out. -/
structure SimpleKey.Around (key inner : SimpleKey) : Prop where
  level : key.level < inner.level
  tokenIndex : key.tokenIndex ≤ inner.tokenIndex
  mark : key.mark.index ≤ inner.mark.index

theorem SimpleKey.StartsIn.push {ts : List Token} {key : SimpleKey} {t : Token}
    (h : key.StartsIn ts) (ht : key.mark.index ≤ t.start.index) : key.StartsIn (ts ++ [t]) := by
  obtain ⟨front, behind, rfl, hlength, hfront, hbehind⟩ := h
  refine ⟨front, behind ++ [t], List.append_assoc .., hlength, hfront, ?_⟩
  exact List.forall_mem_append.mpr ⟨hbehind, List.forall_mem_singleton.mpr ht⟩

/-- Where the token of an inner key is put in, the outer keys keep their places. -/
theorem SimpleKey.StartsIn.insert {front behind : List Token} {key inner : SimpleKey} {t : Token}
    (h : key.StartsIn (front ++ behind)) (hkey : key.Around inner)
    (hlength : front.length = inner.tokenIndex) (ht : t.start = inner.mark) :
    key.StartsIn (front ++ t :: behind) := by
  obtain ⟨front', behind', heq, hlength', hfront, hbehind⟩ := h
  have hle : front'.length ≤ front.length := by
    rw [hlength, hlength']
    exact hkey.tokenIndex
  obtain ⟨mid, rfl⟩ : front' <+: front :=
    List.prefix_of_prefix_length_le ⟨behind', heq.symm⟩ (List.prefix_append front behind) hle
  have hmid : behind' = mid ++ behind := by simpa using heq.symm
  rw [hmid] at hbehind
  obtain ⟨hmid, hbehind⟩ := List.forall_mem_append.mp hbehind
  refine ⟨front', mid ++ t :: behind, List.append_assoc .., hlength', hfront, ?_⟩
  refine List.forall_mem_append.mpr ⟨hmid, List.forall_mem_cons.mpr ⟨?_, hbehind⟩⟩
  rw [ht]
  exact hkey.mark

/-! ## Lexers -/

theorem Cursor.index_lt_skip_one {c : Cursor} (h : c.rest ≠ []) :
    c.mark.index < (c.skip 1).mark.index := by
  obtain ⟨d, ds, hrest⟩ := List.exists_cons_of_ne_nil h
  unfold Cursor.skip Cursor.next
  rw [hrest]
  exact Nat.lt_of_lt_of_eq (Nat.lt_succ_self _) (Mark.index_after ..).symm

theorem insertIdx_length_append {α : Type} (front behind : List α) (a : α) :
    (front ++ behind).insertIdx front.length a = front ++ a :: behind := by
  induction front with
  | nil => exact List.insertIdx_zero
  | cons b front ih =>
    rw [List.cons_append, List.length_cons, List.insertIdx_succ_cons, ih, List.cons_append]

/-- What is put in counted from the end of a list stands there in the reversed list as well. -/
theorem reverse_insertIdx {α : Type} {l front behind : List α} (h : l.reverse = front ++ behind)
    (a : α) : (l.insertIdx (l.length - front.length) a).reverse = front ++ a :: behind := by
  obtain rfl : l = behind.reverse ++ front.reverse := by
    rw [← List.reverse_append, ← h, List.reverse_reverse]
  have hlength : (behind.reverse ++ front.reverse).length - front.length =
      behind.reverse.length := by simp
  rw [hlength, insertIdx_length_append]
  simp

namespace Lexer

/-- The tokens that have been read are in order, and so are the places where keys may start. -/
structure Orderly (lx : Lexer) : Prop where
  inOrder : Token.InOrder lx.tokens.reverse
  read : ∀ t ∈ lx.tokens, t.stop.index ≤ lx.cursor.mark.index
  count : lx.count = lx.tokens.length
  starts : ∀ key ∈ lx.keys, key.StartsIn lx.tokens.reverse ∧
    key.mark.index ≤ lx.cursor.mark.index
  nested : lx.keys.Pairwise SimpleKey.Around
  level : ∀ key ∈ lx.keys, key.level ≤ lx.flow.length

variable {lx : Lexer}

theorem ensures_scan {α : Type} {s : Scan α} {post : α → Nat → Prop}
    (hs : Scan.Reads lx.cursor.mark.index s post) : Ensures (lx.scan s) fun r =>
      ∃ cursor, r.2 = { lx with cursor } ∧ cursor.Follows lx.cursor ∧
        post r.1 cursor.mark.index := by
  intro r hr
  unfold Lexer.scan at hr
  cases hc : s lx.cursor with
  | error e =>
    rw [hc] at hr
    cases hr
  | ok b =>
    rw [hc] at hr
    cases hr
    exact ⟨b.2, rfl, hs _ (Nat.le_refl _) _ hc⟩

theorem forward_gaps (inFlow : Bool) (fuel : Nat) (ended : Bool) :
    Scan.Forward (gaps inFlow fuel ended) := by
  induction fuel generalizing ended with
  | zero => exact .pure _
  | succ fuel ih =>
    unfold gaps
    refine (Scan.forward_skipWhile _).bind fun _ => Scan.forward_skipComment.bind fun _ =>
      Scan.forward_lineBreak?.bind fun c => ?_
    split
    · exact ih _
    · exact .pure _

theorem ensures_toNextToken : Ensures lx.toNextToken fun lx' =>
    ∃ cursor allowKey, lx' = { lx with cursor, allowKey } ∧ cursor.Follows lx.cursor := by
  unfold Lexer.toNextToken
  have hstart : Scan.Forward (do
      if (← Scan.mark).index = 0 ∧ (← Scan.peek) = '\uFEFF' then Scan.skip 1) := by
    refine Scan.forward_mark.bind fun _ => Scan.forward_peek.bind fun _ => ?_
    split
    · exact Scan.forward_skip 1
    · exact .pure _
  have hgaps := hstart.bind fun _ => Scan.forward_size.bind fun n =>
    forward_gaps lx.inFlow (n + 1) false
  refine (ensures_scan hgaps.reads).bind fun r hr => ?_
  obtain ⟨ended, lx'⟩ := r
  obtain ⟨cursor, rfl, hfollows, -⟩ := hr
  refine .pure ?_
  split
  · exact ⟨cursor, true, rfl, hfollows⟩
  · exact ⟨cursor, lx.allowKey, rfl, hfollows⟩

namespace Orderly

variable (h : lx.Orderly)

include h

theorem sublist {keys : List SimpleKey} (hs : keys.Sublist lx.keys) :
    Orderly { lx with keys } :=
  { h with
    starts := fun key hkey => h.starts key (hs.subset hkey)
    nested := h.nested.sublist hs
    level := fun key hkey => h.level key (hs.subset hkey) }

theorem move {cursor : Cursor} (hle : lx.cursor.mark.index ≤ cursor.mark.index) :
    Orderly { lx with cursor } :=
  { h with
    read := fun t ht => Nat.le_trans (h.read t ht) hle
    starts := fun key hkey => ⟨(h.starts key hkey).1, Nat.le_trans (h.starts key hkey).2 hle⟩ }

/-- The next token. -/
theorem push {t : Token} {cursor : Cursor} (hstart : lx.cursor.mark.index ≤ t.start.index)
    (hwide : t.Wide) (hstop : t.stop.index ≤ cursor.mark.index) :
    Orderly { lx.push t with cursor } where
  inOrder := by
    have hbefore : ∀ u ∈ lx.tokens.reverse, u.stop.index ≤ t.start.index := fun u hu =>
      Nat.le_trans (h.read u (List.mem_reverse.mp hu)) hstart
    have := h.inOrder
    rw [← List.append_nil lx.tokens.reverse] at this
    have := this.insert hwide hbefore fun _ hu => nomatch hu
    rwa [← List.reverse_cons] at this
  read := by
    have hle : lx.cursor.mark.index ≤ cursor.mark.index :=
      Nat.le_trans hstart (Nat.le_trans hwide.le hstop)
    exact List.forall_mem_cons.mpr ⟨hstop, fun u hu => Nat.le_trans (h.read u hu) hle⟩
  count := congrArg Nat.succ h.count
  starts := by
    intro key hkey
    obtain ⟨hplace, hmark⟩ := h.starts key hkey
    have hle := Nat.le_trans hmark hstart
    refine ⟨?_, Nat.le_trans hle (Nat.le_trans hwide.le hstop)⟩
    change key.StartsIn (t :: lx.tokens).reverse
    rw [List.reverse_cons]
    exact hplace.push hle
  nested := h.nested
  level := h.level

theorem pushMark {kind : TokenKind} {n : Nat}
    (hkind : kind = .value → lx.cursor.mark.index < (lx.cursor.skip n).mark.index) :
    Orderly (lx.pushMark kind n) :=
  h.push (Nat.le_refl _) ⟨lx.cursor.index_le_skip n, hkind⟩ (Nat.le_refl _)

theorem unwindTo (column : Int) (indent : Int) (indents : List Int) :
    Orderly (unwindTo column indent indents lx) := by
  induction indents generalizing indent lx with
  | nil => exact { h with }
  | cons outer indents ih =>
    unfold Lexer.unwindTo
    split
    · exact ih (h.pushMark TokenKind.noConfusion) outer
    · exact { h with }

theorem unwind (column : Int) : Orderly (lx.unwind column) := by
  unfold Lexer.unwind
  split
  · exact h
  · exact h.unwindTo column _ _

theorem dropStaleKeys : Ensures lx.dropStaleKeys Orderly := by
  unfold Lexer.dropStaleKeys
  exact .guard (.pure (h.sublist List.filter_sublist))

/-- Once the innermost key is dropped all keys are further out. -/
theorem dropKey : Ensures lx.dropKey fun lx' => lx'.Orderly ∧ lx'.cursor = lx.cursor ∧
    ∀ key ∈ lx'.keys, key.level < lx'.flow.length := by
  unfold Lexer.dropKey
  refine .guard (.pure ⟨h.sublist List.filter_sublist, rfl, fun key hkey => ?_⟩)
  obtain ⟨hmem, hne⟩ := List.mem_filter.mp hkey
  exact Nat.lt_of_le_of_ne (h.level key hmem) (of_decide_eq_true hne)

/-- A key that starts at the cursor is an innermost one. -/
theorem addKey (hlevel : ∀ key ∈ lx.keys, key.level < lx.flow.length) (required : Bool) :
    Orderly { lx with
      keys := lx.keys ++ [⟨lx.flow.length, lx.count, required, lx.cursor.mark⟩] } where
  inOrder := h.inOrder
  read := h.read
  count := h.count
  starts := by
    refine List.forall_mem_append.mpr ⟨h.starts, List.forall_mem_singleton.mpr ⟨?_, Nat.le_refl _⟩⟩
    refine ⟨lx.tokens.reverse, [], (List.append_nil _).symm, ?_, ?_, fun _ ht => nomatch ht⟩
    · rw [List.length_reverse, h.count]
    · exact fun t ht => h.read t (List.mem_reverse.mp ht)
  nested := by
    refine List.pairwise_append.mpr ⟨h.nested, List.pairwise_singleton _ _, fun key hkey => ?_⟩
    refine List.forall_mem_singleton.mpr ⟨hlevel key hkey, ?_, (h.starts key hkey).2⟩
    obtain ⟨front, behind, heq, hlength, -⟩ := (h.starts key hkey).1
    have := congrArg List.length heq
    rw [List.length_reverse, List.length_append, ← h.count] at this
    change key.tokenIndex ≤ lx.count
    omega
  level := List.forall_mem_append.mpr ⟨h.level, List.forall_mem_singleton.mpr (Nat.le_refl _)⟩

theorem noteKey : Ensures lx.noteKey Orderly := by
  unfold Lexer.noteKey
  split
  · exact h.dropKey.bind fun lx' h' => .pure (h'.1.addKey h'.2.2 _)
  · exact .pure h

/-! ## Reading tokens -/

theorem readStreamEnd : Ensures lx.readStreamEnd Orderly := by
  unfold Lexer.readStreamEnd
  refine (h.unwind _).dropKey.bind fun lx' h' => .pure ?_
  have hend : Orderly (lx'.pushMark .streamEnd 0) := h'.1.pushMark TokenKind.noConfusion
  exact { hend.sublist (List.nil_sublist _) with }

/-- A token that is read off the text is the next one. -/
theorem scanToken {s : Scan Token} (hs : ∀ k, Scan.Reads k s fun t i => t.Between k i) :
    Ensures (lx.scan s) fun r => (r.2.push r.1).Orderly := by
  refine (ensures_scan (hs _)).imp fun r hr => ?_
  obtain ⟨cursor, hr', -, ht⟩ := hr
  rw [hr']
  exact h.push ht.start ht.toWide ht.stop

theorem readDirective : Ensures lx.readDirective Orderly := by
  unfold Lexer.readDirective
  refine (h.unwind _).dropKey.bind fun lx' h' => ?_
  have hlx : Orderly { lx' with allowKey := false } := { h'.1 with }
  exact (hlx.scanToken fun _ => Scan.reads_directive _).bind fun _ h => .pure { h with }

theorem readDocumentMark {kind : TokenKind} (hkind : kind ≠ .value) :
    Ensures (lx.readDocumentMark kind) Orderly := by
  unfold Lexer.readDocumentMark
  refine (h.unwind _).dropKey.bind fun lx' h' => .pure ?_
  exact { h'.1.pushMark fun hk => absurd hk hkind with }

theorem readFlowStart {kind : TokenKind} (hkind : kind ≠ .value) (sequence : Bool) :
    Ensures (lx.readFlowStart kind sequence) Orderly := by
  unfold Lexer.readFlowStart
  refine h.noteKey.bind fun lx' h' => .pure ?_
  have := h'.pushMark (n := 1) fun hk => absurd hk hkind
  exact { this with level := fun key hkey => Nat.le_succ_of_le (this.level key hkey) }

theorem readFlowEnd {kind : TokenKind} (hkind : kind ≠ .value) :
    Ensures (lx.readFlowEnd kind) Orderly := by
  unfold Lexer.readFlowEnd
  refine h.dropKey.bind fun lx' h' => .pure ?_
  have := h'.1.pushMark (n := 1) fun hk => absurd hk hkind
  refine { this with level := fun key hkey => ?_ }
  change key.level ≤ (lx'.flow.drop 1).length
  rw [List.length_drop]
  exact Nat.le_sub_one_of_lt (h'.2.2 key hkey)

theorem readFlowEntry : Ensures lx.readFlowEntry Orderly := by
  unfold Lexer.readFlowEntry
  refine h.dropKey.bind fun lx' h' => .pure ?_
  exact { h'.1.pushMark TokenKind.noConfusion with }

theorem openBlock (column : Int) : Orderly (lx.openBlock column) := { h with }

/-- Opening a block reads nothing. -/
theorem startBlock {kind : TokenKind} (hkind : kind ≠ .value) (problem : String) :
    Ensures (lx.startBlock kind problem) fun lx' => lx'.Orderly ∧ lx'.cursor = lx.cursor := by
  unfold Lexer.startBlock
  split
  · exact .pure ⟨h, rfl⟩
  · refine .guard (.pure ?_)
    split
    · exact ⟨(h.openBlock _).pushMark fun hk => absurd hk hkind, rfl⟩
    · exact ⟨h, rfl⟩

theorem readBlockEntry : Ensures lx.readBlockEntry Orderly := by
  unfold Lexer.readBlockEntry
  refine (h.startBlock TokenKind.noConfusion _).bind fun lx' h' => ?_
  have hlx : Orderly { lx' with allowKey := true } := { h'.1 with }
  exact hlx.dropKey.bind fun _ h => .pure (h.1.pushMark TokenKind.noConfusion)

theorem readKey : Ensures lx.readKey Orderly := by
  unfold Lexer.readKey
  refine (h.startBlock TokenKind.noConfusion _).bind fun lx' h' => ?_
  have hlx : Orderly { lx' with allowKey := !lx'.inFlow } := { h'.1 with }
  exact hlx.dropKey.bind fun _ h => .pure (h.1.pushMark TokenKind.noConfusion)

/-- A token of no width is put in where a key starts that all others are around. -/
theorem insertToken {kind : TokenKind} (hkind : kind ≠ .value) {key : SimpleKey}
    (hkey : key.StartsIn lx.tokens.reverse) (hmark : key.mark.index ≤ lx.cursor.mark.index)
    (hkeys : ∀ outer ∈ lx.keys, outer.Around key) :
    Orderly (lx.insertToken kind key.tokenIndex key.mark) ∧
      key.StartsIn (lx.insertToken kind key.tokenIndex key.mark).tokens.reverse := by
  obtain ⟨front, behind, htokens, hlength, hfront, hbehind⟩ := hkey
  have hinsert : (lx.insertToken kind key.tokenIndex key.mark).tokens.reverse =
      front ++ ⟨kind, key.mark, key.mark⟩ :: behind := by
    unfold Lexer.insertToken
    rw [h.count, ← hlength]
    exact reverse_insertIdx htokens _
  have hwide : Token.Wide ⟨kind, key.mark, key.mark⟩ :=
    ⟨Nat.le_refl _, fun hk => absurd hk hkind⟩
  have horder := h.inOrder
  have hread : ∀ t ∈ front ++ behind, t.stop.index ≤ lx.cursor.mark.index := fun t ht =>
    h.read t (List.mem_reverse.mp (htokens ▸ ht))
  rw [htokens] at horder
  refine ⟨⟨?_, ?_, ?_, ?_, h.nested, h.level⟩, ?_⟩
  · rw [hinsert]
    exact horder.insert hwide hfront hbehind
  · intro t ht
    rw [← List.mem_reverse, hinsert] at ht
    obtain ⟨hf, hb⟩ := List.forall_mem_append.mp hread
    exact List.forall_mem_append.mpr ⟨hf, List.forall_mem_cons.mpr ⟨hmark, hb⟩⟩ t ht
  · rw [← List.length_reverse, hinsert]
    have := congrArg List.length htokens
    rw [List.length_reverse, ← h.count] at this
    simp [Lexer.insertToken, this]
    omega
  · intro outer houter
    obtain ⟨hstarts, hle⟩ := h.starts outer houter
    rw [htokens] at hstarts
    rw [hinsert]
    exact ⟨hstarts.insert (hkeys outer houter) hlength rfl, hle⟩
  · rw [hinsert]
    exact ⟨front, _, rfl, hlength, hfront, List.forall_mem_cons.mpr ⟨Nat.le_refl _, hbehind⟩⟩

/-- All keys but the innermost one are around it. -/
theorem around_key {key : SimpleKey} (hkey : lx.key? = some key) :
    key ∈ lx.keys ∧ ∀ outer ∈ lx.keys.filter (·.level ≠ lx.flow.length), outer.Around key := by
  unfold Lexer.key? at hkey
  have hmem := List.mem_of_find?_eq_some hkey
  have hlevel : key.level = lx.flow.length := by simpa using List.find?_some hkey
  refine ⟨hmem, fun outer houter => ?_⟩
  obtain ⟨houter, hne⟩ := List.mem_filter.mp houter
  have hne : outer.level ≠ lx.flow.length := of_decide_eq_true hne
  have hlt : outer.level < key.level := hlevel ▸ Nat.lt_of_le_of_ne (h.level outer houter) hne
  -- Of two keys the one further out is around the other, whichever of them comes first.
  have haround : lx.keys.Pairwise fun a b => a.level < b.level → a.Around b :=
    h.nested.imp (S := fun a b : SimpleKey => a.level < b.level → a.Around b) fun hab _ => hab
  have hflip : lx.keys.Pairwise (flip fun a b => a.level < b.level → a.Around b) :=
    h.nested.imp fun hab hlt => absurd hab.level (Nat.lt_asymm hlt)
  exact haround.forall_of_forall_of_flip (fun _ _ hlt => absurd hlt (Nat.lt_irrefl _)) hflip houter
    hmem hlt

theorem readValue (hrest : lx.cursor.rest ≠ []) : Ensures lx.readValue Orderly := by
  have hvalue : ∀ {lx' : Lexer}, lx'.Orderly → lx'.cursor = lx.cursor →
      (lx'.pushMark .value 1).Orderly := by
    intro lx' h' hcursor
    exact h'.pushMark fun _ => hcursor ▸ lx.cursor.index_lt_skip_one hrest
  unfold Lexer.readValue
  split
  · rename_i key hkey
    obtain ⟨hmem, haround⟩ := h.around_key hkey
    have hlx : Orderly { lx with keys := lx.keys.filter (·.level ≠ lx.flow.length) } :=
      h.sublist List.filter_sublist
    obtain ⟨hstarts, hmark⟩ := h.starts key hmem
    obtain ⟨hlx', hstarts'⟩ := hlx.insertToken (TokenKind.noConfusion : TokenKind.key ≠ .value)
      hstarts hmark haround
    refine .pure (hvalue ?_ ?_)
    · split
      · have hlx'' := hlx'.openBlock key.mark.column
        exact { (hlx''.insertToken TokenKind.noConfusion hstarts' hmark haround).1 with }
      · exact { hlx' with }
    · split <;> rfl
  · refine (h.startBlock TokenKind.noConfusion _).bind fun lx' h' => ?_
    have hlx : Orderly { lx' with allowKey := !lx'.inFlow } := { h'.1 with }
    exact hlx.dropKey.bind fun lx'' h'' => .pure (hvalue h''.1 (h''.2.1.trans h'.2))

theorem readNode {s : Scan Token} (hs : ∀ k, Scan.Reads k s fun t i => t.Between k i) :
    Ensures (lx.readNode s) Orderly := by
  unfold Lexer.readNode
  refine h.noteKey.bind fun lx' h' => ?_
  have hlx : Orderly { lx' with allowKey := false } := { h' with }
  exact (hlx.scanToken hs).bind fun _ h => .pure h

theorem readPlain : Ensures lx.readPlain Orderly := by
  unfold Lexer.readPlain
  refine h.noteKey.bind fun lx' h' => ?_
  refine (ensures_scan (Scan.reads_plain _ _ _)).bind fun r hr => ?_
  obtain ⟨⟨token, ended⟩, lx''⟩ := r
  obtain ⟨cursor, rfl, -, ht⟩ := hr
  exact .pure { h'.push ht.start ht.toWide ht.stop with }

theorem readBlockScalar (folded : Bool) : Ensures (lx.readBlockScalar folded) Orderly := by
  unfold Lexer.readBlockScalar
  have hlx : Orderly { lx with allowKey := true } := { h with }
  refine hlx.dropKey.bind fun lx' h' => ?_
  exact (h'.1.scanToken fun _ => Scan.reads_block _ _).bind fun _ h => .pure h

theorem readToken (afterValue : Bool) : Ensures (lx.readToken afterValue) Orderly := by
  unfold Lexer.readToken
  refine .ite h.readStreamEnd fun hrest => ?_
  have hrest : lx.cursor.rest ≠ [] := fun heq => hrest (List.isEmpty_iff.mpr heq)
  refine .ite h.readDirective fun _ => ?_
  refine (Ensures.anyhow _).bind fun _ _ => ?_
  refine .ite (h.readDocumentMark TokenKind.noConfusion) fun _ => ?_
  refine (Ensures.anyhow _).bind fun _ _ => ?_
  refine .ite (h.readDocumentMark TokenKind.noConfusion) fun _ => ?_
  refine .ite (h.readFlowStart TokenKind.noConfusion _) fun _ => ?_
  refine .ite (h.readFlowStart TokenKind.noConfusion _) fun _ => ?_
  refine .ite (h.readFlowEnd TokenKind.noConfusion) fun _ => ?_
  refine .ite (h.readFlowEnd TokenKind.noConfusion) fun _ => ?_
  refine .ite h.readFlowEntry fun _ => .ite h.readBlockEntry fun _ => .ite h.readKey fun _ => ?_
  refine .ite (h.readValue hrest) fun _ => ?_
  refine .ite (h.readNode fun _ => Scan.reads_anchor fun _ => TokenKind.noConfusion) fun _ => ?_
  refine .ite (h.readNode fun _ => Scan.reads_anchor fun _ => TokenKind.noConfusion) fun _ => ?_
  refine .ite (h.readNode fun _ => Scan.reads_tag _) fun _ => ?_
  refine .ite (h.readBlockScalar _) fun _ => .ite (h.readBlockScalar _) fun _ => ?_
  refine .ite (h.readNode fun _ => Scan.reads_quoted _) fun _ => ?_
  refine .ite (h.readNode fun _ => Scan.reads_quoted _) fun _ => ?_
  exact .ite h.readPlain fun _ => .throw _

theorem toNextToken : Ensures lx.toNextToken Orderly := by
  refine ensures_toNextToken.imp fun lx' hlx' => ?_
  obtain ⟨cursor, allowKey, rfl, hfollows⟩ := hlx'
  exact { h.move hfollows.index_le with }

/-- A step keeps the tokens and the places of keys in order. -/
theorem step : Ensures lx.step Orderly := by
  unfold Lexer.step
  exact h.toNextToken.bind fun _ h => h.dropStaleKeys.bind fun _ h => (h.unwind _).readToken _

/-- However far a lexer runs, the tokens are in order. -/
theorem inOrder_run (fuel sure : Nat) : Token.InOrder (Lexer.run fuel sure lx).tokens := by
  induction fuel generalizing sure lx with
  | zero => exact h.inOrder
  | succ fuel ih =>
    unfold Lexer.run
    split
    · exact h.inOrder
    · split
      · exact h.inOrder.sublist (List.take_sublist _ _)
      · rename_i lx' hlx'
        have h' := h.dropStaleKeys lx' hlx'
        split
        · exact h'.inOrder.sublist (List.take_sublist _ _)
        · rename_i next hnext
          exact ih (h'.step next hnext) _

end Orderly

end Lexer

/-- **The tokens of a text are in order.** -/
theorem Token.inOrder_stream (text : List Char) : InOrder (stream text).tokens := by
  unfold stream
  split
  · refine Lexer.Orderly.inOrder_run ⟨⟨.nil, ?_⟩, ?_, rfl, ?_, .nil, ?_⟩ _ _
    all_goals exact fun _ h => nomatch h
  · exact ⟨.nil, fun _ h => nomatch h⟩

end PackLint.Yaml
