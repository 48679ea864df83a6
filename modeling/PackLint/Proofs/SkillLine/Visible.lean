import PackLint.Proofs.SkillLine.Hidden
import PackLint.Proofs.SkillLine.InOrder
import PackLint.Proofs.SkillLine.Config

/-!
# Visible characters of an escaped line

A character of a skill line is visible if it is neither a blank nor a semicolon. In the escaped text
it stands at a boundary, as itself or as the sentinel that it is escaped to. It is no space that the
line is cut at, no blank and no block space that is trimmed away, and no semicolon between entries.
So it stays in view however the text is cut up.

Results:
* `SkillLine.visible_escape`: a visible character of a plain line is visible in the escaped text.
* `SkillLine.Visible.slice`: a piece between boundaries shows what the text shows there.
* `LineConfig.visible_trimSpan`: trimming takes no visible character away.
* `LineConfig.exists_piece`: every visible character of a body is in one of its pieces.
-/

namespace PackLint

namespace SkillLine

variable {cs : List Char} {i j k : Nat}

/-! ## Visible characters -/

/-- The text shows a character at the index that is neither a blank nor a semicolon. -/
structure Visible (cs : List Char) (i : Nat) : Prop where
  boundary : Boundary cs i
  shown : ∃ c, (unescape (cs.drop i)).head? = some c ∧ isBlank c = false ∧ c ≠ ';'

namespace Visible

theorem lt_length (h : Visible cs i) : i < cs.length := by
  obtain ⟨c, hc, -⟩ := h.shown
  refine Nat.lt_of_not_le fun hle => ?_
  rw [List.drop_eq_nil_of_le hle] at hc
  cases hc

/-- The offset of a visible character lies in every span that its index lies in. -/
theorem covers (h : Visible cs j) (offset : Int) (hij : i ≤ j) (hjk : j < k) :
    sourceOffset cs offset i ≤ sourceOffset cs offset j ∧
      sourceOffset cs offset j < sourceOffset cs offset k :=
  ⟨sourceOffset_mono cs offset hij, sourceOffset_lt h.boundary offset hjk⟩

/-- Of a text that starts with a sentinel, the character that it stands for is visible, or what is
visible stands behind it. -/
theorem of_sentinel {c : Char} {s rest : List Char} (hs : (c, s) ∈ sentinels)
    (h : Visible (s ++ rest) i) :
    i = 0 ∧ isBlank c = false ∨ ∃ j, i = s.length + j ∧ Visible rest j := by
  obtain ⟨hb, x, hx, hblank, hsemicolon⟩ := h
  rcases (boundary_sentinel_iff hs).mp hb with rfl | ⟨j, rfl, hj⟩
  · rw [List.drop_zero, unescape_sentinel hs] at hx
    cases hx
    exact .inl ⟨rfl, hblank⟩
  · rw [List.drop_length_add_append] at hx
    exact .inr ⟨j, rfl, hj, x, hx, hblank, hsemicolon⟩

/-- Of a text that starts with a character, the character is visible, or what is visible stands
behind it. -/
theorem of_char {c : Char} {rest : List Char} (hc : sentinel? (c :: rest) = none)
    (h : Visible (c :: rest) i) :
    i = 0 ∧ isBlank c = false ∧ c ≠ ';' ∨ ∃ j, i = j + 1 ∧ Visible rest j := by
  obtain ⟨hb, x, hx, hblank, hsemicolon⟩ := h
  rcases (boundary_char_iff hc).mp hb with rfl | ⟨j, rfl, hj⟩
  · rw [List.drop_zero, unescape_char hc] at hx
    cases hx
    exact .inl ⟨rfl, hblank, hsemicolon⟩
  · rw [List.drop_succ_cons] at hx
    exact .inr ⟨j, rfl, hj, x, hx, hblank, hsemicolon⟩

/-- A character that is in no sentinel is shown as it is. -/
theorem of_getElem? (h : Visible cs i) {x : Char} (hx : Outer x) (hi : cs[i]? = some x) :
    isBlank x = false ∧ x ≠ ';' := by
  obtain ⟨-, c, hc, hblank, hsemicolon⟩ := h
  obtain ⟨hlt, rfl⟩ := List.getElem?_eq_some_iff.mp hi
  rw [List.drop_eq_getElem_cons hlt, unescape_char (sentinel?_outer hx _)] at hc
  cases hc
  exact ⟨hblank, hsemicolon⟩

/-- **A piece between boundaries shows what the text shows there.** -/
theorem slice (h : Visible cs j) (hi : Boundary cs i) (hk : Boundary cs k) (hij : i ≤ j)
    (hjk : j < k) : Visible ((cs.take k).drop i) (j - i) := by
  have hle := Nat.le_of_lt hjk
  refine ⟨(hi.take (Nat.le_trans hij hle)).drop (h.boundary.take hle) hij, ?_⟩
  have hinner := h.boundary.drop hk hle
  have hread := unescape_take_append_drop hinner
  have hcount := sourceCount_eq hinner
  have hpos := sourceCount_pos (cs.drop j) (Nat.sub_pos_of_lt hjk)
  rw [List.drop_drop, Nat.add_sub_of_le hij, List.drop_take]
  -- the piece does not end before the character does
  cases hfront : unescape ((cs.drop j).take (k - j)) with
  | nil =>
    rw [hcount, hfront] at hpos
    cases hpos
  | cons x xs =>
    obtain ⟨c, hc, hvisible⟩ := h.shown
    rw [← hread, hfront] at hc
    exact ⟨c, hc, hvisible⟩

end Visible

/-! ## Escaped lines -/

theorem Aligned.boundary {line : List Char} {ps : List (List Char)} (h : Aligned line ps)
    (hplain : Plain line) (k : Nat) : Boundary ps.flatten (ps.take k).flatten.length := by
  induction h generalizing k with
  | nil =>
    rw [List.take_nil]
    exact .zero _
  | @typed c s rest ps hs h ih =>
    exact absurd (List.prefix_append s rest).isInfix (hplain (c, s) hs)
  | @hidden c s rest ps hs hc h ih =>
    cases k with
    | zero => exact .zero _
    | succ k =>
      rw [List.take_succ_cons, List.flatten_cons, List.flatten_cons, List.length_append]
      exact .sentinel hs (ih (hplain.of_infix (List.suffix_cons c rest).isInfix) k)
  | @kept c rest ps hc hp h ih =>
    cases k with
    | zero => exact .zero _
    | succ k =>
      rw [List.take_succ_cons, List.flatten_cons, List.flatten_cons, List.singleton_append,
        List.singleton_append, List.length_cons]
      exact .char hp (ih (hplain.of_infix (List.suffix_cons c rest).isInfix) k)

/-- **A visible character of a plain line is visible in the escaped text**, at its offset. -/
theorem visible_escape {cs : List Char} (hplain : Plain cs) {c : Char}
    (hi : cs[i]? = some c) (hblank : isBlank c = false) (hsemicolon : c ≠ ';') :
    Visible (escape cs) (escapedIndex cs i) ∧
      ∀ offset, sourceOffset (escape cs) offset (escapedIndex cs i) = offset + i := by
  have hle : i ≤ cs.length := Nat.le_of_lt (List.getElem?_eq_some_iff.mp hi).1
  have hoffset : ∀ offset, sourceOffset (escape cs) offset (escapedIndex cs i) = offset + i :=
    fun offset => (sourceOffset_eq_iff cs offset hle).mpr fun i hi =>
      absurd hi (hplain.not_speltAt i)
  have hb : Boundary (escape cs) (escapedIndex cs i) := (aligned_pieces cs).boundary hplain i
  refine ⟨⟨hb, c, ?_, hblank, hsemicolon⟩, hoffset⟩
  have hread := unescape_take_append_drop hb
  have hcount := sourceCount_eq hb
  have hzero := hoffset 0
  rw [sourceOffset] at hzero
  have hlength : (unescape ((escape cs).take (escapedIndex cs i))).length = i := by omega
  rw [unescape_escape hplain] at hread
  rw [← hread, List.getElem?_append_right (Nat.le_of_eq hlength), hlength, Nat.sub_self,
    ← List.head?_eq_getElem?] at hi
  exact hi

/-- An escaped line has a character that is in no sentinel just if the line has it. -/
theorem mem_of_mem_escape {line : List Char} {x : Char} (hx : Outer x) (h : x ∈ escape line) :
    x ∈ line := by
  have hpieces := hidesAs_piecesFrom .outside line
  rw [escape, pieces] at h
  generalize piecesFrom .outside line = ps at hpieces h
  induction hpieces with
  | nil => cases h
  | @cons c piece cs ps hc _ ih =>
    rw [List.flatten_cons] at h
    rcases List.mem_append.mp h with h | h
    · rcases hc with rfl | hs
      · rw [List.mem_singleton.mp h]
        exact List.mem_cons_self
      · exact absurd h (hx _ hs)
    · exact List.mem_cons_of_mem c (ih h)

end SkillLine

open SkillLine

namespace LineConfig

variable {text span : List Char} {start stop i : Nat}

/-! ## Trimming -/

theorem leadingBlanks_le_visible (h : Visible span i) : leadingBlanks blockSpace 0 span ≤ i := by
  induction span using escaped_induction generalizing i with
  | nil => exact Nat.zero_le i
  | sentinel c s rest hs ih =>
    by_cases hspace : s = blockSpace
    · subst hspace
      rcases h.of_sentinel mem_blockSpace with ⟨-, hblank⟩ | ⟨j, rfl, hj⟩
      · exact absurd hblank (by decide)
      · rw [leadingBlanks_space (by decide)]
        exact Nat.add_le_add_left (ih hj) _
    · rw [leadingBlanks_sentinel hs hspace]
      exact Nat.zero_le i
  | char c rest hc ih =>
    rw [leadingBlanks_char hc]
    split
    · rename_i hblank
      rcases h.of_char hc with ⟨-, hvisible, -⟩ | ⟨j, rfl, hj⟩
      · rw [hblank] at hvisible
        cases hvisible
      · exact Nat.succ_le_succ (ih hj)
    · exact Nat.zero_le i

theorem visible_lt_trailingBlanks (h : Visible span i) :
    i < span.length - leadingBlanks blockSpace.reverse 0 span.reverse := by
  induction hlength : span.length using Nat.strongRecOn generalizing span with
  | ind n ih =>
    subst hlength
    have hlt := h.lt_length
    -- what is visible in front of a boundary stays so without what is behind it
    have hfront : ∀ {front back : List Char}, span = front ++ back →
        Boundary span front.length → i < front.length → Visible front i := by
      rintro front back rfl hb hi
      have hslice := h.slice (.zero _) hb (Nat.zero_le i) hi
      rwa [List.take_left] at hslice
    rcases trailingBlanks_cases span with ⟨front, rfl, hblanks⟩ | ⟨front, c, rfl, hc, hblanks⟩ |
      hblanks
    · have hmark : (front ++ blockSpace)[front.length]? = some '<' := by
        rw [List.getElem?_append_right (Nat.le_refl _), Nat.sub_self]
        rfl
      have hb := boundary_of_mark hmark
      have hi : i < front.length := by
        refine Nat.lt_of_not_le fun hle => ?_
        have hspace := h.slice hb (boundary_length _) hle hlt
        rw [List.take_length, List.drop_left, ← List.append_nil blockSpace] at hspace
        rcases hspace.of_sentinel mem_blockSpace with ⟨-, hblank⟩ | ⟨j, -, hj⟩
        · exact absurd hblank (by decide)
        · exact absurd hj.lt_length (Nat.not_lt_zero j)
      have hrest := ih front.length (by simp [blockSpace]) (hfront rfl hb hi) rfl
      rw [hblanks, List.length_append]
      omega
    · have hlast : (front ++ [c])[front.length]? = some c := List.getElem?_concat_length
      have hb := (boundary_of_outer (outer_of_isBlank hc) hlast).1
      have hi : i < front.length := by
        refine Nat.lt_of_le_of_ne ?_ ?_
        · rw [List.length_append, List.length_singleton] at hlt
          exact Nat.le_of_lt_succ hlt
        · rintro rfl
          have hvisible := (h.of_getElem? (outer_of_isBlank hc) hlast).1
          rw [hc] at hvisible
          cases hvisible
      have hrest := ih front.length (by simp) (hfront rfl hb hi) rfl
      rw [hblanks, List.length_append, List.length_singleton]
      omega
    · rw [hblanks]
      exact hlt

/-- **Trimming takes no visible character away.** -/
theorem visible_trimSpan (hstart : Boundary text start) (hstop : Boundary text stop)
    (h : Visible text i) (hlo : start ≤ i) (hhi : i < stop) :
    (trimSpan text start stop).1 ≤ i ∧ i < (trimSpan text start stop).2 := by
  have hspan := h.slice hstart hstop hlo hhi
  have hlength : ((text.take stop).drop start).length = stop - start := by
    rw [List.length_drop, List.length_take_of_le hstop.le_length]
  unfold trimSpan
  simp only
  generalize (text.take stop).drop start = span at hspan hlength ⊢
  have hfront := leadingBlanks_le_visible hspan
  have hrest := hspan.slice (boundary_leadingBlanks span) (boundary_length span) hfront
    hspan.lt_length
  rw [List.take_length] at hrest
  generalize leadingBlanks blockSpace 0 span = front at hfront hrest ⊢
  have hback := visible_lt_trailingBlanks hrest
  rw [List.length_drop] at hback
  omega

/-! ## Pieces -/

/-- **Every visible character of a body is in one of its pieces.** -/
theorem exists_piece {cs : List Char} {k : Nat} {depth : Int} (hcs : cs <+: text.drop k)
    (hlo : start ≤ i) (hhi : i < k + cs.length) (h : Visible text i) :
    ∃ p ∈ piecesFrom start k depth cs, p.start ≤ i ∧ i < p.stop := by
  induction cs generalizing start k depth with
  | nil => exact ⟨_, List.mem_cons_self, hlo, hhi⟩
  | cons c cs ih =>
    obtain ⟨rest, hrest⟩ := hcs
    have hc : text[k]? = some c := by
      rw [← List.head?_drop, ← hrest]
      rfl
    have hcs' : cs <+: text.drop (k + 1) := by
      rw [← List.tail_drop, ← hrest]
      exact ⟨rest, rfl⟩
    have hhi' : i < k + 1 + cs.length := by
      rw [List.length_cons] at hhi
      omega
    obtain ⟨depth', hcut⟩ := piecesFrom_cons start k depth c cs
    rw [hcut]
    split
    · rename_i hsemicolon
      rcases Nat.lt_trichotomy i k with hlt | rfl | hgt
      · exact ⟨_, List.mem_cons_self, hlo, hlt⟩
      · exact absurd hsemicolon.1 ((h.of_getElem? (hsemicolon.1 ▸ outer_semicolon) hc).2)
      · obtain ⟨p, hp, hin⟩ :
            ∃ p ∈ piecesFrom (k + 1) (k + 1) depth' cs, p.start ≤ i ∧ i < p.stop :=
          ih hcs' hgt hhi'
        exact ⟨p, List.mem_cons_of_mem _ hp, hin⟩
    · exact ih hcs' hlo hhi'

end LineConfig

end PackLint
