import PackLint.Proofs.SkillLine.Offset

/-!
# Offsets in order

Offsets of an escaped text never decrease from one index to the next, whatever the text is, and a
piece of the text between boundaries counts its own offsets on from the offset that it starts at.
So spans of a skill line keep the order of their indices, also when a part of the line is read by
itself.

Results:
* `SkillLine.sourceOffset_mono`: offsets never decrease.
* `SkillLine.sourceOffset_slice`: a piece between boundaries has the offsets of the whole text.
* `SkillLine.sourceOffset_escape_le`: no offset of an escaped line lies behind the line.
-/

namespace PackLint.SkillLine

/-! ## Order -/

theorem sourceCountFrom_le_succ (skip idx : Nat) (cs : List Char) :
    sourceCountFrom skip idx cs ≤ sourceCountFrom skip (idx + 1) cs := by
  induction cs generalizing skip idx with
  | nil =>
    cases idx with
    | zero => exact Nat.zero_le _
    | succ idx => exact Nat.le_succ _
  | cons c cs ih =>
    cases idx with
    | zero =>
      rw [sourceCountFrom]
      exact Nat.zero_le _
    | succ idx =>
      cases skip with
      | zero => exact Nat.add_le_add_left (ih _ idx) 1
      | succ skip => exact ih skip idx

theorem sourceCount_mono (cs : List Char) {i k : Nat} (h : i ≤ k) :
    sourceCount cs i ≤ sourceCount cs k := by
  induction h with
  | refl => exact Nat.le_refl _
  | step _ ih => exact Nat.le_trans ih (sourceCountFrom_le_succ 0 _ cs)

/-- **Offsets never decrease.** -/
theorem sourceOffset_mono (cs : List Char) (offset : Int) {i k : Nat} (h : i ≤ k) :
    sourceOffset cs offset i ≤ sourceOffset cs offset k := by
  have hcount := sourceCount_mono cs h
  unfold sourceOffset
  omega

theorem sourceOffset_zero (cs : List Char) (offset : Int) : sourceOffset cs offset 0 = offset := by
  rw [sourceOffset, sourceCount_zero, Int.natCast_zero, Int.zero_add]

/-! ## Pieces -/

variable {cs : List Char} {i k : Nat}

/-- Behind a boundary the rest of the text counts on. -/
theorem sourceCount_add (h : Boundary cs i) (n : Nat) :
    sourceCount cs (i + n) = sourceCount cs i + sourceCount (cs.drop i) n := by
  induction h with
  | zero cs => rw [Nat.zero_add, sourceCount_zero, Nat.zero_add, List.drop_zero]
  | @sentinel c s rest i hs h ih =>
    rw [Nat.add_assoc, sourceCount_sentinel hs, sourceCount_sentinel hs, ih,
      List.drop_length_add_append]
    omega
  | @char c rest i hc h ih =>
    rw [Nat.add_right_comm, sourceCount_char hc, sourceCount_char hc, ih, List.drop_succ_cons]
    omega

theorem sourceCount_pos (cs : List Char) {n : Nat} (hn : 0 < n) : 0 < sourceCount cs n := by
  obtain ⟨n, rfl⟩ := Nat.exists_eq_add_of_le' hn
  cases cs with
  | nil => exact hn
  | cons c cs =>
    rw [sourceCount, sourceCountFrom]
    omega

/-- Behind a boundary, offsets increase. -/
theorem sourceOffset_lt (h : Boundary cs i) (offset : Int) (hik : i < k) :
    sourceOffset cs offset i < sourceOffset cs offset k := by
  obtain ⟨n, rfl⟩ := Nat.exists_eq_add_of_le (Nat.le_of_lt hik)
  have hpos := sourceCount_pos (cs.drop i) (Nat.lt_add_right_iff_pos.mp hik)
  rw [sourceOffset, sourceOffset, sourceCount_add h]
  omega

/-- In front of a boundary the count does not depend on what is behind it. -/
theorem sourceCount_take (h : Boundary cs k) (hi : i ≤ k) :
    sourceCount (cs.take k) i = sourceCount cs i := by
  induction h generalizing i with
  | zero cs =>
    rw [Nat.le_zero.mp hi, sourceCount_zero, sourceCount_zero]
  | @sentinel c s rest k hs h ih =>
    rw [List.take_length_add_append]
    rcases Nat.le_total i s.length with hle | hle
    · rw [sourceCount_within hs _ hle, sourceCount_within hs _ hle]
    · obtain ⟨n, rfl⟩ := Nat.exists_eq_add_of_le hle
      rw [sourceCount_sentinel hs, sourceCount_sentinel hs, ih (by omega)]
  | @char c rest k hc h ih =>
    cases i with
    | zero => rw [sourceCount_zero, sourceCount_zero]
    | succ i =>
      rw [List.take_succ_cons, sourceCount_char (sentinel?_cons_take hc k), sourceCount_char hc,
        ih (Nat.le_of_succ_le_succ hi)]

/-- **A piece between boundaries has the offsets of the whole text.** -/
theorem sourceOffset_slice (hi : Boundary cs i) (hk : Boundary cs k) (offset : Int) {n : Nat}
    (hn : i + n ≤ k) :
    sourceOffset ((cs.take k).drop i) (sourceOffset cs offset i) n =
      sourceOffset cs offset (i + n) := by
  have hadd := sourceCount_add (hi.take (Nat.le_of_add_right_le hn)) n
  rw [sourceCount_take hk hn, sourceCount_take hk (Nat.le_of_add_right_le hn)] at hadd
  rw [sourceOffset, sourceOffset, sourceOffset, hadd]
  omega

/-- The rest behind a boundary has the offsets of the whole text. -/
theorem sourceOffset_drop (hi : Boundary cs i) (offset : Int) (n : Nat) :
    sourceOffset (cs.drop i) (sourceOffset cs offset i) n = sourceOffset cs offset (i + n) := by
  rw [sourceOffset, sourceOffset, sourceOffset, sourceCount_add hi]
  omega

/-- **No offset of an escaped line lies behind the line.** -/
theorem sourceOffset_escape_le (line : List Char) (offset : Int) {i : Nat}
    (hi : i ≤ (escape line).length) :
    sourceOffset (escape line) offset i ≤ offset + line.length := by
  have hle := sourceOffset_mono (escape line) offset hi
  have hcount := sourceCount_eq (boundary_length (escape line))
  have hlength := length_unescape_le line
  rw [List.take_length, unescape_escape_self] at hcount
  rw [sourceOffset, sourceOffset] at *
  omega

end PackLint.SkillLine
