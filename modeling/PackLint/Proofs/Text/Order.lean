import PackLint.Proofs.Text.Positions

/-!
# The order of positions

`Position.compare` (`pos_cmp`) orders positions by line and then by character, and `Range.contains`
(`pos_is_in`) asks for the two ends of a range in this order, whatever case of its own a position
falls into. Along a text the order is that of the offsets: a later offset is on a later line, or
further on along the same one.

Results:
* `Range.contains_iff`: a range contains what is not before its start and not behind its end.
* `Source.sign_compare_position`: positions are ordered like their offsets.
* `Source.range_contains_position`: a range of a text contains the offsets between its ends.
-/

namespace PackLint

namespace Position

/-- The order is lexicographic. -/
theorem compare_nonpos_iff {a b : Position} :
    compare a b ≤ 0 ↔ a.line < b.line ∨ a.line = b.line ∧ a.character ≤ b.character := by
  unfold compare
  split <;> omega

theorem compare_neg_iff {a b : Position} :
    compare a b < 0 ↔ a.line < b.line ∨ a.line = b.line ∧ a.character < b.character := by
  unfold compare
  split <;> omega

theorem compare_swap (a b : Position) : compare b a = -compare a b := by
  unfold compare
  split <;> split <;> omega

end Position

open Position

/-- **A range contains what is not before its start and not behind its end**, if it does not start
behind its end itself. -/
theorem Range.contains_iff {r : Range} (hr : compare r.start r.stop ≤ 0) (p : Position) :
    r.contains p = true ↔ compare r.start p ≤ 0 ∧ compare p r.stop ≤ 0 := by
  rw [compare_nonpos_iff] at hr
  rw [compare_nonpos_iff, compare_nonpos_iff]
  unfold contains
  -- a position on the first or the last line is compared with one end only
  split_ifs <;> simp only [decide_eq_true_eq, true_iff, false_iff] <;> omega

namespace Source

variable (src : Source)

/-- A later offset is on a later line or on the same one. -/
theorem lineOf_mono {o o' : Nat} (h : o ≤ o') : src.lineOf o ≤ src.lineOf o' := by
  rw [lineOf_eq, lineOf_eq]
  refine Nat.sub_le_sub_right (List.countP_mono_left fun s _ hs => ?_) 1
  simp only [decide_eq_true_eq] at hs ⊢
  exact Nat.le_trans hs h

theorem compare_position_neg {o o' : Nat} (h : o < o') (ho' : o' ≤ src.size) :
    compare (src.position o) (src.position o') < 0 := by
  have hline := src.lineOf_mono (Nat.le_of_lt h)
  rw [compare_neg_iff]
  unfold position
  rw [src.clamp_of_le (Nat.le_trans (Nat.le_of_lt h) ho'), src.clamp_of_le ho']
  rcases Nat.lt_or_eq_of_le hline with hlt | heq
  · exact .inl (Int.ofNat_lt.mpr hlt)
  · refine .inr ⟨congrArg Int.ofNat heq, ?_⟩
    simp only [heq]
    omega

/-- **Positions are ordered like their offsets.** -/
theorem sign_compare_position {o o' : Int} (ho : 0 ≤ o ∧ o ≤ src.size)
    (ho' : 0 ≤ o' ∧ o' ≤ src.size) :
    (compare (src.position o) (src.position o')).sign = (o - o').sign := by
  obtain ⟨n, rfl⟩ := Int.eq_ofNat_of_zero_le ho.1
  obtain ⟨n', rfl⟩ := Int.eq_ofNat_of_zero_le ho'.1
  rcases Nat.lt_trichotomy n n' with hlt | rfl | hgt
  · have hneg := src.compare_position_neg hlt (Int.ofNat_le.mp ho'.2)
    rw [Int.sign_eq_neg_one_of_neg hneg, Int.sign_eq_neg_one_of_neg (by omega)]
  · rw [compare_self, Int.sub_self]
  · have hneg := src.compare_position_neg hgt (Int.ofNat_le.mp ho.2)
    rw [compare_swap, Int.sign_neg, Int.sign_eq_neg_one_of_neg hneg,
      Int.sign_eq_one_of_pos (by omega)]
    rfl

theorem compare_position_nonpos_iff {o o' : Int} (ho : 0 ≤ o ∧ o ≤ src.size)
    (ho' : 0 ≤ o' ∧ o' ≤ src.size) :
    compare (src.position o) (src.position o') ≤ 0 ↔ o ≤ o' := by
  have hsign := src.sign_compare_position ho ho'
  rw [← Int.not_lt, ← Int.sign_eq_one_iff_pos, hsign, Int.sign_eq_one_iff_pos]
  omega

/-- **A range of a text contains the offsets between its ends**, both counted. -/
theorem range_contains_position {s e o : Int} (hs : 0 ≤ s) (hse : s ≤ e) (he : e ≤ src.size)
    (ho : 0 ≤ o ∧ o ≤ src.size) :
    (src.range s e).contains (src.position o) = true ↔ s ≤ o ∧ o ≤ e := by
  have hs' : 0 ≤ s ∧ s ≤ src.size := ⟨hs, Int.le_trans hse he⟩
  have he' : 0 ≤ e ∧ e ≤ src.size := ⟨Int.le_trans hs hse, he⟩
  rw [Range.contains_iff ((src.compare_position_nonpos_iff hs' he').mpr hse)]
  exact and_congr (src.compare_position_nonpos_iff hs' ho) (src.compare_position_nonpos_iff ho he')

/-- **The order of positions is that of the offsets, and decides what a range contains**: along a
text, where a range of offsets contains the offsets between its ends, and for every range that does
not start behind its end. -/
theorem order_of_positions :
    (∀ o o' : Int, 0 ≤ o → o ≤ src.size → 0 ≤ o' → o' ≤ src.size →
      (compare (src.position o) (src.position o')).sign = (o - o').sign) ∧
    (∀ s e o : Int, 0 ≤ s → s ≤ e → e ≤ src.size → 0 ≤ o → o ≤ src.size →
      ((src.range s e).contains (src.position o) = true ↔ s ≤ o ∧ o ≤ e)) ∧
    ∀ (r : Range) (p : Position), compare r.start r.stop ≤ 0 →
      (r.contains p = true ↔ compare r.start p ≤ 0 ∧ compare p r.stop ≤ 0) := by
  refine ⟨?_, ?_, ?_⟩
  · intro o o' ho hle ho' hle'
    exact src.sign_compare_position ⟨ho, hle⟩ ⟨ho', hle'⟩
  · intro s e o hs hse he ho hle
    exact src.range_contains_position hs hse he ⟨ho, hle⟩
  · intro r p hr
    exact Range.contains_iff hr p

/-- On two lines, around the line feed between them. -/
theorem order_of_positions_two_lines :
    let src := Source.ofString "ab\ncd"
    let r : Range := ⟨⟨0, 1⟩, ⟨1, 1⟩⟩
    ((0 : Int) ≤ 2 ∧ (2 : Int) ≤ src.size ∧ (0 : Int) ≤ 4 ∧ (4 : Int) ≤ src.size ∧
      (compare (src.position 2) (src.position 4)).sign = ((2 : Int) - 4).sign) ∧
    ((0 : Int) ≤ 1 ∧ (1 : Int) ≤ 4 ∧
      ((src.range 1 4).contains (src.position 2) = true ↔ (1 : Int) ≤ 2 ∧ (2 : Int) ≤ 4)) ∧
    compare r.start r.stop ≤ 0 ∧
      (r.contains ⟨0, 7⟩ = true ↔ compare r.start ⟨0, 7⟩ ≤ 0 ∧ compare ⟨0, 7⟩ r.stop ≤ 0) := by
  intro src r
  have hsize : (4 : Int) ≤ src.size := by decide
  have hr : compare r.start r.stop ≤ 0 := by decide
  obtain ⟨hsign, hcontains, hrange⟩ := order_of_positions src
  refine ⟨⟨by omega, by omega, by omega, hsize, ?_⟩, ⟨by omega, by omega, ?_⟩, hr, hrange r _ hr⟩
  · exact hsign 2 4 (by omega) (by omega) (by omega) hsize
  · exact hcontains 1 4 2 (by omega) (by omega) hsize (by omega) (by omega)

end Source

end PackLint
