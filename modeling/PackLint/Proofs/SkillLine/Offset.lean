import PackLint.Proofs.SkillLine.Escape

/-!
# Offsets of an escaped line

The offset of a place in an escaped text (`create_pos`) is counted in the characters of the line, a
sentinel as one. Escaping does not change this count, so it is right for all sentinels that the
escaping has put there. A sentinel that the line itself spells is counted as one character too,
although it stands for as many as it has: behind the first character of such a sentinel, offsets
fall short.

Results:
* `SkillLine.Aligned.sourceCount_flatten`: escaping does not change the count.
* `SkillLine.sourceOffset_eq_iff`: an offset is right iff no sentinel is spelt before its last
  character.
-/

namespace PackLint.SkillLine

/-! ## Counting -/

theorem sourceCountFrom_within (s rest : List Char) {n : Nat} (hn : n ≤ s.length) :
    sourceCountFrom s.length n (s ++ rest) = 0 := by
  induction s generalizing n with
  | nil => rw [Nat.le_zero.mp hn, sourceCountFrom]
  | cons x s ih =>
    cases n with
    | zero => rw [sourceCountFrom]
    | succ n => exact ih (Nat.le_of_succ_le_succ hn)

/-- Within a sentinel, the characters behind the first one do not count. -/
theorem sourceCount_within {c : Char} {s : List Char} (h : (c, s) ∈ sentinels) (rest : List Char)
    {k : Nat} (hk : k ≤ s.length) : sourceCount (s ++ rest) k = min k 1 := by
  obtain ⟨t, rfl, -⟩ := sentinel_shape h
  cases k with
  | zero => rw [sourceCount, sourceCountFrom, Nat.zero_min]
  | succ k =>
    have hs := sentinel?_append h rest
    have hskip := sourceCountFrom_within t rest (Nat.le_of_succ_le_succ hk)
    rw [List.cons_append] at hs ⊢
    rw [sourceCount, sourceCountFrom, hs]
    change 1 + sourceCountFrom t.length k (t ++ rest) = _
    rw [hskip]
    omega

theorem sourceCount_zero (cs : List Char) : sourceCount cs 0 = 0 := by
  rw [sourceCount, sourceCountFrom]

/-- **Escaping does not change the count**: the pieces of the first characters of a line count as
these characters do. -/
theorem Aligned.sourceCount_flatten {cs : List Char} {ps : List (List Char)} (h : Aligned cs ps)
    {k : Nat} (hk : k ≤ cs.length) :
    sourceCount ps.flatten (ps.take k).flatten.length = sourceCount cs k := by
  induction h generalizing k with
  | nil => rw [Nat.le_zero.mp hk]; rfl
  | @typed c s rest ps hs h ih =>
    rw [flatten_singletons_append]
    rcases Nat.le_total k s.length with hle | hle
    · have htake : ((s.map ([·]) ++ ps).take k).flatten = s.take k := by
        rw [List.take_append_of_le_length (by rwa [List.length_map]), ← List.map_take]
        simpa using flatten_singletons_append (s.take k) []
      rw [htake, List.length_take_of_le hle, sourceCount_within hs _ hle,
        sourceCount_within hs _ hle]
    · obtain ⟨n, rfl⟩ := Nat.exists_eq_add_of_le hle
      rw [List.length_append] at hk
      have htake : ((s.map ([·]) ++ ps).take (s.length + n)).flatten =
          s ++ (ps.take n).flatten := by
        have hpieces : (s.map ([·]) ++ ps).take ((s.map ([·])).length + n) =
            s.map ([·]) ++ ps.take n := List.take_length_add_append n
        rw [List.length_map] at hpieces
        rw [hpieces, flatten_singletons_append]
      rw [htake, List.length_append, sourceCount_sentinel hs, sourceCount_sentinel hs,
        ih (by omega)]
  | @hidden c s rest ps hs hc h ih =>
    cases k with
    | zero => exact (sourceCount_zero _).trans (sourceCount_zero _).symm
    | succ k =>
      rw [List.take_succ_cons, List.flatten_cons, List.flatten_cons, List.length_append,
        sourceCount_sentinel hs, sourceCount_char hc, ih (Nat.le_of_succ_le_succ hk)]
  | @kept c rest ps hc hp h ih =>
    cases k with
    | zero => exact (sourceCount_zero _).trans (sourceCount_zero _).symm
    | succ k =>
      rw [List.take_succ_cons, List.flatten_cons, List.flatten_cons, List.singleton_append,
        List.singleton_append, List.length_cons, sourceCount_char hp, sourceCount_char hc,
        ih (Nat.le_of_succ_le_succ hk)]

/-- The line spells a sentinel at the index. -/
def SpeltAt (line : List Char) (i : Nat) : Prop := (sentinel? (line.drop i)).isSome

instance (line : List Char) (i : Nat) : Decidable (SpeltAt line i) :=
  inferInstanceAs (Decidable ((sentinel? (line.drop i)).isSome = true))

theorem sourceCount_le {cs : List Char} {k : Nat} (hk : k ≤ cs.length) : sourceCount cs k ≤ k := by
  induction cs using escaped_induction generalizing k with
  | nil =>
    rw [Nat.le_zero.mp hk]
    exact Nat.le_refl 0
  | sentinel c s rest hs ih =>
    rcases Nat.le_total k s.length with hle | hle
    · rw [sourceCount_within hs rest hle]
      exact Nat.min_le_left k 1
    · obtain ⟨n, rfl⟩ := Nat.exists_eq_add_of_le hle
      rw [List.length_append] at hk
      have hrest : sourceCount rest n ≤ n := ih (by omega)
      have hpos := length_sentinel_pos hs
      rw [sourceCount_sentinel hs]
      omega
  | char c rest hc ih =>
    cases k with
    | zero => exact Nat.le_of_eq (sourceCount_zero _)
    | succ k =>
      rw [sourceCount_char hc]
      exact Nat.succ_le_succ (ih (Nat.le_of_succ_le_succ hk))

/-- All of the first characters count iff the line spells no sentinel that begins in front of the
last of them. -/
theorem sourceCount_eq_self_iff {cs : List Char} {k : Nat} (hk : k ≤ cs.length) :
    sourceCount cs k = k ↔ ∀ i, SpeltAt cs i → k ≤ i + 1 := by
  induction cs using escaped_induction generalizing k with
  | nil =>
    rw [Nat.le_zero.mp hk]
    exact ⟨fun _ i _ => Nat.zero_le _, fun _ => sourceCount_zero []⟩
  | sentinel c s rest hs ih =>
    have hspelt : SpeltAt (s ++ rest) 0 := by
      rw [SpeltAt, List.drop_zero, sentinel?_append hs]
      rfl
    constructor
    · intro hcount i _
      -- behind its first character the sentinel has made the count fall short
      have hone : k ≤ 1 := by
        rcases Nat.le_total k s.length with hle | hle
        · rw [sourceCount_within hs rest hle] at hcount
          omega
        · obtain ⟨n, rfl⟩ := Nat.exists_eq_add_of_le hle
          rw [List.length_append] at hk
          have hrest : sourceCount rest n ≤ n := sourceCount_le (by omega)
          have hlength := one_lt_length_sentinel hs
          rw [sourceCount_sentinel hs] at hcount
          omega
      omega
    · intro hfree
      have hone : k ≤ 1 := hfree 0 hspelt
      have hlength := one_lt_length_sentinel hs
      rw [sourceCount_within hs rest (by omega), Nat.min_eq_left hone]
  | char c rest hc ih =>
    cases k with
    | zero => exact ⟨fun _ i _ => Nat.zero_le _, fun _ => sourceCount_zero _⟩
    | succ k =>
      rw [sourceCount_char hc, Nat.succ_inj, ih (Nat.le_of_succ_le_succ hk)]
      constructor
      · intro hfree i hi
        cases i with
        | zero =>
          rw [SpeltAt, List.drop_zero, hc] at hi
          cases hi
        | succ i => exact Nat.succ_le_succ (hfree i hi)
      · exact fun hfree i hi => Nat.le_of_succ_le_succ (hfree (i + 1) hi)

/-! ## Offsets -/

/-- The index of the escaped line up to which its first `k` characters were escaped. -/
def escapedIndex (line : List Char) (k : Nat) : Nat := ((pieces line).take k).flatten.length

/-- **Just the sentinels that a line spells itself put its offsets wrong**: the offset behind its
first characters is right iff none of these sentinels begins in front of the last of them. -/
theorem sourceOffset_eq_iff (line : List Char) (offset : Int) {k : Nat} (hk : k ≤ line.length) :
    sourceOffset (escape line) offset (escapedIndex line k) = offset + k ↔
      ∀ i, SpeltAt line i → k ≤ i + 1 := by
  rw [← sourceCount_eq_self_iff hk, sourceOffset, escapedIndex, escape,
    (aligned_pieces line).sourceCount_flatten hk]
  omega

/-- The end of a line with a hidden space, and with another space that is spelt behind it. -/
theorem sourceOffset_eq_hidden :
    8 ≤ "m{a=b c}<&sp>".toList.length ∧
      sourceOffset (escape "m{a=b c}<&sp>".toList) 3 (escapedIndex "m{a=b c}<&sp>".toList 8) =
        3 + 8 := by
  refine ⟨by decide, (sourceOffset_eq_iff "m{a=b c}<&sp>".toList 3 (by decide)).mpr ?_⟩
  intro i hi
  refine Nat.le_of_not_lt fun hlt => ?_
  have hnone : ∀ j < 7, ¬ SpeltAt "m{a=b c}<&sp>".toList j := by decide
  exact hnone i (by omega) hi

/-- The offset behind a space that the line spells itself falls short. -/
theorem sourceOffset_spelt_space :
    ¬ ∀ (line : List Char) (offset : Int) (k : Nat), k ≤ line.length →
      sourceOffset (escape line) offset (escapedIndex line k) = offset + k := by
  intro h
  have hspace := h "<&sp>".toList 0 5 (by decide)
  revert hspace
  decide

end PackLint.SkillLine
