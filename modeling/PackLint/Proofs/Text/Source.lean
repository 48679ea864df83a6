import PackLint.Text.Source

/-!
# Offsets and positions

The starts of the lines of a text increase strictly from zero, so the line that holds an offset is
the one that starts at or before it and ends at or behind it. An offset is therefore found again
from its position.

Results:
* `Source.lineOf_bounds`: an offset lies on its line.
* `Source.offset_position`: the offset of the position of an offset is the offset, clamped to the
  text.
-/

namespace PackLint

/-! ## Starts of lines -/

theorem lineStartsAfter_bounds (start : Nat) (cs : List Char) :
    ∀ s ∈ lineStartsAfter start cs, start < s ∧ s ≤ start + cs.length := by
  induction cs generalizing start with
  | nil =>
    intro s hs
    cases hs
  | cons c cs ih =>
    intro s hs
    have hrest : s ∈ lineStartsAfter (start + 1) cs → start < s ∧ s ≤ start + (c :: cs).length := by
      intro hs
      obtain ⟨hlt, hle⟩ := ih (start + 1) s hs
      rw [List.length_cons]
      omega
    unfold lineStartsAfter at hs
    split at hs
    · rcases List.mem_cons.mp hs with rfl | hs
      · rw [List.length_cons]
        omega
      · exact hrest hs
    · exact hrest hs

theorem pairwise_lineStartsAfter (start : Nat) (cs : List Char) :
    (lineStartsAfter start cs).Pairwise (· < ·) := by
  induction cs generalizing start with
  | nil => exact .nil
  | cons c cs ih =>
    unfold lineStartsAfter
    split
    · exact .cons (fun s hs => (lineStartsAfter_bounds _ cs s hs).1) (ih _)
    · exact ih _

theorem pairwise_lineStartsOf (cs : List Char) : (lineStartsOf cs).Pairwise (· < ·) :=
  .cons (fun s hs => (lineStartsAfter_bounds 0 cs s hs).1) (pairwise_lineStartsAfter 0 cs)

/-- In an increasing list, just the elements in front are at most `o`. -/
theorem getElem_le_iff_lt_countP {starts : List Nat} (h : starts.Pairwise (· < ·)) (o : Nat)
    {i : Nat} (hi : i < starts.length) : starts[i] ≤ o ↔ i < starts.countP (· ≤ o) := by
  induction starts generalizing i with
  | nil => cases hi
  | cons s starts ih =>
    obtain ⟨hs, hrest⟩ := List.pairwise_cons.mp h
    by_cases hle : s ≤ o
    · rw [List.countP_cons_of_pos (by simpa using hle)]
      cases i with
      | zero => exact ⟨fun _ => Nat.succ_pos _, fun _ => hle⟩
      | succ i =>
        rw [List.getElem_cons_succ, Nat.succ_lt_succ_iff]
        exact ih hrest (Nat.lt_of_succ_lt_succ hi)
    · have hnone : starts.countP (· ≤ o) = 0 := by
        rw [List.countP_eq_zero]
        intro t ht hto
        have hst := hs t ht
        have hto : t ≤ o := by simpa using hto
        omega
      rw [List.countP_cons_of_neg (by simpa using hle), hnone]
      refine ⟨fun hi' => absurd hi' ?_, fun hi' => absurd hi' (Nat.not_lt_zero _)⟩
      cases i with
      | zero => exact hle
      | succ i =>
        have hst := hs _ (List.getElem_mem (Nat.lt_of_succ_lt_succ hi))
        rw [List.getElem_cons_succ]
        omega

namespace Source

variable (src : Source)

theorem lineCount_eq : src.lineCount = (lineStartsOf src.toList).length := by
  rw [lineCount, src.lineStarts_eq, List.size_toArray, toList]

theorem lineStart_eq {line : Nat} (hline : line < (lineStartsOf src.toList).length) :
    src.lineStart line = (lineStartsOf src.toList)[line] := by
  rw [lineStart, src.lineStarts_eq, Array.getD_eq_getD_getElem?, List.getElem?_toArray]
  change ((lineStartsOf src.toList)[line]?).getD 0 = _
  rw [List.getElem?_eq_getElem hline, Option.getD_some]

theorem lineOf_eq (o : Nat) :
    src.lineOf o = (lineStartsOf src.toList).countP (· ≤ o) - 1 := by
  rw [lineOf, src.lineStarts_eq, List.countP_toArray, toList]

theorem clamp_le (offset : Int) : src.clamp offset ≤ src.size := Nat.min_le_right _ _

/-- **An offset lies on its line**: the line is there, and starts at or before the offset and ends
at or behind it. -/
theorem lineOf_bounds {o : Nat} (ho : o ≤ src.size) :
    src.lineOf o < src.lineCount ∧ src.lineStart (src.lineOf o) ≤ o ∧
      o ≤ src.lineEnd (src.lineOf o) := by
  have hsorted := pairwise_lineStartsOf src.toList
  have hpos : 0 < (lineStartsOf src.toList).countP (· ≤ o) := by
    rw [← getElem_le_iff_lt_countP hsorted o (Nat.succ_pos _)]
    exact Nat.zero_le o
  have hle := List.countP_le_length (p := (· ≤ o)) (l := lineStartsOf src.toList)
  have hline : src.lineOf o < (lineStartsOf src.toList).length := by
    rw [lineOf_eq]
    omega
  refine ⟨by rwa [lineCount_eq], ?_, ?_⟩
  · rw [lineStart_eq src hline, getElem_le_iff_lt_countP hsorted o hline, lineOf_eq]
    omega
  · unfold lineEnd
    split
    · rename_i hnext
      rw [lineCount_eq] at hnext
      rw [lineStart_eq src hnext]
      have hbehind : ¬ (lineStartsOf src.toList)[src.lineOf o + 1] ≤ o := by
        rw [getElem_le_iff_lt_countP hsorted o hnext, lineOf_eq]
        omega
      omega
    · exact ho

/-- **The offset of the position of an offset is the offset**, clamped to the text. -/
theorem offset_position (o : Int) : src.offset (src.position o) = src.clamp o := by
  obtain ⟨hline, hstart, hend⟩ := src.lineOf_bounds (src.clamp_le o)
  unfold offset position
  simp only
  rw [if_neg (by omega), if_neg (by omega), Int.toNat_natCast]
  omega

theorem offset_position_of_le {o : Int} (hnonneg : 0 ≤ o) (hle : o ≤ src.size) :
    (src.offset (src.position o) : Int) = o := by
  rw [offset_position, clamp]
  omega

/-! ## Pieces of a text -/

theorem slice_eq (start length : Nat) :
    src.slice start (start + length) = (src.toList.drop start).take length := by
  unfold slice toList
  rw [Array.toList_extract, List.extract_eq_take_drop, Nat.add_sub_cancel_left]

variable {src}

theorem slice_eq_of_append {before text after : List Char}
    (h : src.toList = before ++ text ++ after) :
    src.slice before.length (before.length + text.length) = text := by
  rw [slice_eq, h, List.append_assoc, List.drop_left, List.take_left]

end Source

end PackLint
