import Mathlib.Data.List.DropRight
import PackLint.Proofs.Yaml.Marks
import PackLint.Proofs.Yaml.Piece

/-!
# The line and the column of a mark

A mark counts the line feeds in front of it, and as many lines more as there are carriage returns
that no line feed follows. Where there are none of these, its column counts the characters behind
the last line feed, byte order marks left out.

Results:
* `line_markAt`: the line of a mark.
* `column_markAt`: its column.
-/

namespace PackLint.Yaml

variable {text : List Char} {n : Nat}

/-- The mark of the place behind the first `n` characters. -/
def markAt (text : List Char) (n : Nat) : Mark := (Cursor.skip n { rest := text }).mark

/-- A carriage return that no line feed follows stands at an index. -/
def LoneReturn (text : List Char) (i : Nat) : Prop :=
  text[i]? = some '\r' ∧ text[i + 1]? ≠ some '\n'

instance (text : List Char) : DecidablePred (LoneReturn text) := fun _ =>
  inferInstanceAs (Decidable (_ ∧ _))

/-- The number of carriage returns before an index that no line feed follows. -/
def loneReturns (text : List Char) (n : Nat) : Nat :=
  (List.range n).countP fun i => LoneReturn text i

theorem loneReturns_eq_zero_iff : loneReturns text n = 0 ↔ ¬ ∃ i < n, LoneReturn text i := by
  simp [loneReturns]

theorem loneReturns_succ (text : List Char) (n : Nat) :
    loneReturns text (n + 1) = loneReturns text n + if LoneReturn text n then 1 else 0 := by
  rw [loneReturns, List.range_succ, List.countP_append, List.countP_singleton, loneReturns]
  simp only [decide_eq_true_eq]

theorem loneReturn_iff (hn : n < text.length) :
    LoneReturn text n ↔ text[n] = '\r' ∧ (text.drop (n + 1)).head? ≠ some '\n' := by
  rw [LoneReturn, List.getElem?_eq_getElem hn, List.head?_drop, Option.some_inj]

/-! ## Marks -/

theorem markAt_succ (hn : n < text.length) :
    markAt text (n + 1) = (markAt text n).after text[n] (text.drop (n + 1)) := by
  have hrest := Cursor.rest_skip n { rest := text }
  rw [List.drop_eq_getElem_cons hn] at hrest
  rw [markAt, ← Cursor.skip_skip n 1]
  change (Cursor.next _).mark = _
  rw [Cursor.next, hrest]
  rfl

theorem line_markAt_succ (hn : n < text.length) : (markAt text (n + 1)).line =
    (markAt text n).line + if text[n] = '\n' ∨ LoneReturn text n then 1 else 0 := by
  simp only [markAt_succ hn, Mark.after, loneReturn_iff hn]
  split
  · rfl
  · split <;> rfl

theorem column_markAt_succ (hn : n < text.length) : (markAt text (n + 1)).column =
    if text[n] = '\n' ∨ LoneReturn text n then 0
    else (markAt text n).column + if text[n] = '\uFEFF' then 0 else 1 := by
  simp only [markAt_succ hn, Mark.after, loneReturn_iff hn]
  split
  · rfl
  · split <;> rfl

theorem index_markAt (hn : n ≤ text.length) : (markAt text n).index = n := by
  rw [markAt, Cursor.index_skip, List.length_take_of_le hn]
  exact Nat.zero_add n

/-- A mark in the text is the one at its index. -/
theorem Mark.In.eq_markAt {m : Mark} (h : m.In text) :
    m.index ≤ text.length ∧ m = markAt text m.index := by
  obtain ⟨c, ⟨n, rfl⟩, rfl⟩ := h
  induction n with
  | zero => exact ⟨Nat.zero_le _, rfl⟩
  | succ n ih =>
    by_cases hn : n < text.length
    · rw [← markAt, index_markAt hn]
      exact ⟨hn, rfl⟩
    · -- at the end of the text the cursor stays where it is
      have hrest := Cursor.rest_skip n { rest := text }
      rw [List.drop_of_length_le (Nat.le_of_not_lt hn)] at hrest
      have hstay : Cursor.skip (n + 1) { rest := text } = Cursor.skip n { rest := text } := by
        rw [← Cursor.skip_skip n 1]
        change Cursor.next _ = _
        rw [Cursor.next, hrest]
      rw [hstay]
      exact ih

/-- **The line of a mark** is the number of line feeds in front of it, and of carriage returns that
no line feed follows. -/
theorem line_markAt (hn : n ≤ text.length) :
    (markAt text n).line = (text.take n).count '\n' + loneReturns text n := by
  induction n with
  | zero => rfl
  | succ n ih =>
    have ih := ih (Nat.le_of_succ_le hn)
    rw [line_markAt_succ hn, loneReturns_succ, List.take_add_one, List.getElem?_eq_getElem hn,
      List.count_append, Option.toList_some, List.count_singleton]
    by_cases hfeed : text[n] = '\n'
    · have hlone : ¬ LoneReturn text n := fun h => by
        rw [loneReturn_iff hn, hfeed] at h
        exact absurd h.1 (by decide)
      rw [if_pos (.inl hfeed), if_pos (beq_iff_eq.mpr hfeed), if_neg hlone]
      omega
    · rw [if_neg fun h => hfeed (beq_iff_eq.mp h)]
      by_cases hlone : LoneReturn text n
      · rw [if_pos (.inr hlone), if_pos hlone]
        omega
      · rw [if_neg (not_or.mpr ⟨hfeed, hlone⟩), if_neg hlone]
        omega

/-- **The column of a mark** counts the characters behind the last line feed, byte order marks left
out, if a line feed follows every carriage return in front. -/
theorem column_markAt (hn : n ≤ text.length) (h : loneReturns text n = 0) :
    (markAt text n).column + ((text.take n).rtakeWhile (· ≠ '\n')).count '\uFEFF' =
      ((text.take n).rtakeWhile (· ≠ '\n')).length := by
  induction n with
  | zero => rfl
  | succ n ih =>
    rw [loneReturns_succ] at h
    have ih := ih (Nat.le_of_succ_le hn) (by omega)
    have hlone : ¬ LoneReturn text n := fun hlone => by
      rw [if_pos hlone] at h
      omega
    rw [column_markAt_succ hn, List.take_add_one, List.getElem?_eq_getElem hn, Option.toList_some]
    by_cases hfeed : text[n] = '\n'
    · rw [if_pos (.inl hfeed), hfeed, List.rtakeWhile_concat_neg _ _ _ (by decide)]
      rfl
    · rw [if_neg (not_or.mpr ⟨hfeed, hlone⟩),
        List.rtakeWhile_concat_pos _ _ _ (by simpa using hfeed), List.count_append,
        List.length_append, List.length_singleton, List.count_singleton]
      by_cases hmark : text[n] = '\uFEFF'
      · rw [if_pos hmark, if_pos (beq_iff_eq.mpr hmark)]
        omega
      · rw [if_neg hmark, if_neg fun h => hmark (beq_iff_eq.mp h)]
        omega

end PackLint.Yaml
