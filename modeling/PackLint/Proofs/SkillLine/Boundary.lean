import PackLint.SkillLine.Escape

/-!
# Boundaries of an escaped text

An escaped text is read from left to right, sentinel by sentinel and character by character. The
indices at which this reading stops are the boundaries of the text. A text falls apart at a
boundary, and so does the line that it stands for. The characters that a skill line is cut at are in
no sentinel, so there are boundaries on both sides of them.

Results:
* `SkillLine.unescape_take_append_drop`: the line falls apart at every boundary.
* `SkillLine.sourceCount_eq`: up to a boundary, the characters of the line are counted.
* `SkillLine.boundary_of_outer`: a character that is in no sentinel stands between boundaries.
-/

namespace PackLint.SkillLine

/-! ## Sentinels -/

/-- No sentinel is the beginning of another one. -/
theorem sentinels_apart : ∀ e ∈ sentinels, ∀ e' ∈ sentinels, e.2 <+: e'.2 → e = e' := by
  decide

theorem prefix_of_sentinel? {cs : List Char} {e : Char × List Char} (h : sentinel? cs = some e) :
    e ∈ sentinels ∧ e.2 <+: cs :=
  ⟨List.mem_of_find?_eq_some h, List.isPrefixOf_iff_prefix.mp
    (List.find?_some (p := fun e : Char × List Char => e.2.isPrefixOf cs) h)⟩

theorem sentinel?_append {c : Char} {s : List Char} (h : (c, s) ∈ sentinels) (rest : List Char) :
    sentinel? (s ++ rest) = some (c, s) := by
  have hs := List.prefix_append s rest
  have hsome : (sentinel? (s ++ rest)).isSome :=
    List.find?_isSome.mpr ⟨(c, s), h, List.isPrefixOf_iff_prefix.mpr hs⟩
  obtain ⟨e, he⟩ := Option.isSome_iff_exists.mp hsome
  obtain ⟨hmem, hprefix⟩ := prefix_of_sentinel? he
  rw [he]
  rcases List.prefix_or_prefix_of_prefix hprefix hs with hle | hle
  · rw [sentinels_apart e hmem (c, s) h hle]
  · rw [sentinels_apart (c, s) h e hmem hle]

theorem sentinel?_eq_some {cs s : List Char} {c : Char} :
    sentinel? cs = some (c, s) ↔ (c, s) ∈ sentinels ∧ s <+: cs := by
  refine ⟨prefix_of_sentinel?, ?_⟩
  rintro ⟨hs, rest, rfl⟩
  exact sentinel?_append hs rest

/-- A sentinel is the mark `<` and characters other than it. -/
theorem sentinel_shape {c : Char} {s : List Char} (h : (c, s) ∈ sentinels) :
    ∃ t, s = '<' :: t ∧ '<' ∉ t := by
  have hall : ∀ e ∈ sentinels, e.2.head? = some '<' ∧ '<' ∉ e.2.tail := by decide
  obtain ⟨hhead, htail⟩ := hall (c, s) h
  cases s with
  | nil => cases hhead
  | cons x t =>
    cases hhead
    exact ⟨t, rfl, htail⟩

theorem length_sentinel_pos {c : Char} {s : List Char} (h : (c, s) ∈ sentinels) : 0 < s.length := by
  obtain ⟨t, rfl, -⟩ := sentinel_shape h
  exact Nat.succ_pos _

/-- A text is empty, or starts with a sentinel, or with a character that starts none. -/
theorem escaped_induction {P : List Char → Prop} (nil : P [])
    (sentinel : ∀ c s rest, (c, s) ∈ sentinels → P rest → P (s ++ rest))
    (char : ∀ c rest, sentinel? (c :: rest) = none → P rest → P (c :: rest)) (cs : List Char) :
    P cs := by
  induction h : cs.length using Nat.strongRecOn generalizing cs with
  | ind n ih =>
    subst h
    cases cs with
    | nil => exact nil
    | cons c cs =>
      cases hs : sentinel? (c :: cs) with
      | none => exact char c cs hs (ih cs.length (Nat.lt_succ_self _) cs rfl)
      | some e =>
        obtain ⟨hmem, rest, hrest⟩ := sentinel?_eq_some.mp hs
        have hpos := length_sentinel_pos hmem
        rw [← hrest] at ih ⊢
        refine sentinel e.1 e.2 rest hmem (ih rest.length ?_ rest rfl)
        rw [List.length_append]
        omega

/-! ## Reading -/

theorem unescapeFrom_eq (n : Nat) (cs : List Char) : unescapeFrom n cs = unescape (cs.drop n) := by
  induction cs generalizing n with
  | nil =>
    rw [List.drop_nil]
    cases n <;> rfl
  | cons c cs ih =>
    cases n with
    | zero => rfl
    | succ n =>
      rw [unescapeFrom, ih, List.drop_succ_cons]

theorem unescape_sentinel {c : Char} {s : List Char} (h : (c, s) ∈ sentinels) (rest : List Char) :
    unescape (s ++ rest) = c :: unescape rest := by
  obtain ⟨t, rfl, -⟩ := sentinel_shape h
  have hs := sentinel?_append h rest
  rw [List.cons_append] at hs ⊢
  rw [unescape, unescapeFrom, hs]
  simp only [unescapeFrom_eq, List.length_cons, Nat.add_sub_cancel, List.drop_left]

theorem unescape_char {c : Char} {rest : List Char} (h : sentinel? (c :: rest) = none) :
    unescape (c :: rest) = c :: unescape rest := by
  rw [unescape, unescapeFrom, h]
  rfl

theorem sourceCountFrom_append (s rest : List Char) (n : Nat) :
    sourceCountFrom s.length (s.length + n) (s ++ rest) = sourceCount rest n := by
  induction s with
  | nil => rw [List.length_nil, Nat.zero_add]; rfl
  | cons x s ih =>
    rw [List.length_cons, Nat.add_right_comm, List.cons_append, sourceCountFrom]
    exact ih

theorem sourceCount_sentinel {c : Char} {s : List Char} (h : (c, s) ∈ sentinels)
    (rest : List Char) (n : Nat) :
    sourceCount (s ++ rest) (s.length + n) = sourceCount rest n + 1 := by
  obtain ⟨t, rfl, -⟩ := sentinel_shape h
  have hs := sentinel?_append h rest
  rw [List.cons_append] at hs ⊢
  rw [List.length_cons, Nat.add_right_comm, sourceCount, sourceCountFrom, hs]
  change 1 + sourceCountFrom t.length (t.length + n) (t ++ rest) = _
  rw [sourceCountFrom_append, Nat.add_comm]

theorem sourceCount_char {c : Char} {rest : List Char} (h : sentinel? (c :: rest) = none)
    (n : Nat) : sourceCount (c :: rest) (n + 1) = sourceCount rest n + 1 := by
  rw [sourceCount, sourceCountFrom, h, Nat.add_comm]
  rfl

/-! ## Boundaries -/

/-- Reading the text stops at the index. -/
inductive Boundary : List Char → Nat → Prop
  | zero (cs : List Char) : Boundary cs 0
  | sentinel {c : Char} {s rest : List Char} {i : Nat} (hs : (c, s) ∈ sentinels)
      (h : Boundary rest i) : Boundary (s ++ rest) (s.length + i)
  | char {c : Char} {rest : List Char} {i : Nat} (hc : sentinel? (c :: rest) = none)
      (h : Boundary rest i) : Boundary (c :: rest) (i + 1)

variable {cs : List Char} {i k : Nat}

theorem boundary_length (cs : List Char) : Boundary cs cs.length := by
  induction cs using escaped_induction with
  | nil => exact .zero []
  | sentinel c s rest hs ih =>
    rw [List.length_append]
    exact .sentinel hs ih
  | char c rest hc ih => exact .char hc ih

theorem Boundary.le_length (h : Boundary cs i) : i ≤ cs.length := by
  induction h with
  | zero cs => exact Nat.zero_le _
  | sentinel hs h ih =>
    rw [List.length_append]
    omega
  | char hc h ih => exact Nat.succ_le_succ ih

theorem sentinel?_cons_take {c : Char} {rest : List Char} (h : sentinel? (c :: rest) = none)
    (n : Nat) : sentinel? (c :: rest.take n) = none := by
  cases hx : sentinel? (c :: rest.take n) with
  | none => rfl
  | some e =>
    obtain ⟨hmem, hpre⟩ := sentinel?_eq_some.mp hx
    have hcons : c :: rest.take n <+: c :: rest := by
      rw [List.cons_prefix_cons]
      exact ⟨rfl, List.take_prefix n rest⟩
    rw [sentinel?_eq_some.mpr ⟨hmem, hpre.trans hcons⟩] at h
    cases h

/-- **At a boundary a text falls apart, and so does the line that it stands for.** -/
theorem unescape_take_append_drop (h : Boundary cs i) :
    unescape (cs.take i) ++ unescape (cs.drop i) = unescape cs := by
  induction h with
  | zero cs => rfl
  | @sentinel c s rest i hs h ih =>
    rw [List.take_length_add_append, List.drop_length_add_append, unescape_sentinel hs,
      unescape_sentinel hs, List.cons_append, ih]
  | @char c rest i hc h ih =>
    rw [List.take_succ_cons, List.drop_succ_cons, unescape_char hc,
      unescape_char (sentinel?_cons_take hc _), List.cons_append, ih]

/-- Up to a boundary, the characters of the line are counted. -/
theorem sourceCount_eq (h : Boundary cs i) : sourceCount cs i = (unescape (cs.take i)).length := by
  induction h with
  | zero cs => cases cs <;> rfl
  | @sentinel c s rest i hs h ih =>
    rw [List.take_length_add_append, unescape_sentinel hs, sourceCount_sentinel hs, ih,
      List.length_cons]
  | @char c rest i hc h ih =>
    rw [List.take_succ_cons, unescape_char (sentinel?_cons_take hc _), sourceCount_char hc, ih,
      List.length_cons]

theorem boundary_sentinel_iff {c : Char} {s rest : List Char} (hs : (c, s) ∈ sentinels) :
    Boundary (s ++ rest) i ↔ i = 0 ∨ ∃ j, i = s.length + j ∧ Boundary rest j := by
  constructor
  · intro h
    have hread := sentinel?_append hs rest
    generalize hcs : s ++ rest = cs at h hread
    cases h with
    | zero => exact Or.inl rfl
    | @sentinel c' s' rest' j hs' h =>
      rw [sentinel?_append hs' rest'] at hread
      cases hread
      rw [List.append_cancel_left hcs]
      exact Or.inr ⟨j, rfl, h⟩
    | char hc h =>
      rw [hc] at hread
      cases hread
  · rintro (rfl | ⟨j, rfl, h⟩)
    · exact .zero _
    · exact .sentinel hs h

theorem boundary_char_iff {c : Char} {rest : List Char} (hc : sentinel? (c :: rest) = none) :
    Boundary (c :: rest) i ↔ i = 0 ∨ ∃ j, i = j + 1 ∧ Boundary rest j := by
  constructor
  · intro h
    generalize hcs : c :: rest = cs at h hc
    cases h with
    | zero => exact Or.inl rfl
    | sentinel hs h =>
      rw [sentinel?_append hs] at hc
      cases hc
    | char hc h =>
      cases hcs
      exact Or.inr ⟨_, rfl, h⟩
  · rintro (rfl | ⟨j, rfl, h⟩)
    · exact .zero _
    · exact .char hc h

/-- The boundaries behind a boundary are boundaries of the whole text. -/
theorem Boundary.add (hi : Boundary cs i) (hk : Boundary (cs.drop i) k) :
    Boundary cs (i + k) := by
  induction hi with
  | zero cs => rwa [Nat.zero_add]
  | sentinel hs h ih =>
    rw [List.drop_length_add_append] at hk
    rw [Nat.add_assoc]
    exact .sentinel hs (ih hk)
  | char hc h ih =>
    rw [Nat.add_right_comm]
    exact .char hc (ih hk)

/-- The boundaries behind a boundary are boundaries of the rest. -/
theorem Boundary.drop (hi : Boundary cs i) (hk : Boundary cs k) (hik : i ≤ k) :
    Boundary (cs.drop i) (k - i) := by
  induction hi generalizing k with
  | zero cs => exact hk
  | sentinel hs h ih =>
    have hpos := length_sentinel_pos hs
    rcases (boundary_sentinel_iff hs).mp hk with rfl | ⟨j, rfl, hj⟩
    · omega
    · rw [List.drop_length_add_append, Nat.add_sub_add_left]
      exact ih hj (by omega)
  | char hc h ih =>
    rcases (boundary_char_iff hc).mp hk with rfl | ⟨j, rfl, hj⟩
    · omega
    · rw [List.drop_succ_cons, Nat.add_sub_add_right]
      exact ih hj (by omega)

/-- The boundaries in front of an index are boundaries of the text up to it. -/
theorem Boundary.take (hi : Boundary cs i) (hk : i ≤ k) : Boundary (cs.take k) i := by
  induction hi generalizing k with
  | zero cs => exact .zero _
  | @sentinel c s rest i hs h ih =>
    obtain ⟨k, rfl⟩ := Nat.exists_eq_add_of_le (Nat.le_trans (Nat.le_add_right _ _) hk)
    rw [List.take_length_add_append]
    exact .sentinel hs (ih (by omega))
  | @char c rest i hc h ih =>
    obtain ⟨k, rfl⟩ := Nat.exists_eq_add_of_le' (Nat.le_trans (Nat.succ_le_succ i.zero_le) hk)
    rw [List.take_succ_cons]
    exact .char (sentinel?_cons_take hc k) (ih (by omega))

/-- The boundaries of the text up to a boundary are boundaries of the whole text. -/
theorem Boundary.of_take (hk : Boundary cs k) (hi : Boundary (cs.take k) i) : Boundary cs i := by
  induction hk generalizing i with
  | zero cs =>
    rw [List.take_zero] at hi
    rw [Nat.le_zero.mp hi.le_length]
    exact .zero cs
  | sentinel hs h ih =>
    rw [List.take_length_add_append, boundary_sentinel_iff hs] at hi
    rw [boundary_sentinel_iff hs]
    exact hi.imp_right fun ⟨j, hj, hi⟩ => ⟨j, hj, ih hi⟩
  | @char c rest k hc h ih =>
    rw [List.take_succ_cons, boundary_char_iff (sentinel?_cons_take hc _)] at hi
    rw [boundary_char_iff hc]
    exact hi.imp_right fun ⟨j, hj, hi⟩ => ⟨j, hj, ih hi⟩

/-! ## Outer characters -/

/-- The character is in no sentinel. -/
def Outer (c : Char) : Prop := ∀ e ∈ sentinels, c ∉ e.2

instance (c : Char) : Decidable (Outer c) :=
  inferInstanceAs (Decidable (∀ e ∈ sentinels, c ∉ e.2))

/-- A character that is in no sentinel starts none. -/
theorem sentinel?_outer {x : Char} (hx : Outer x) (rest : List Char) :
    sentinel? (x :: rest) = none := by
  cases hs : sentinel? (x :: rest) with
  | none => rfl
  | some e =>
    obtain ⟨he, hpre⟩ := sentinel?_eq_some.mp hs
    obtain ⟨t, ht, -⟩ := sentinel_shape he
    rw [ht, List.cons_prefix_cons] at hpre
    refine absurd ?_ (hx e he)
    rw [ht, hpre.1]
    exact List.mem_cons_self

/-- **A character that is in no sentinel stands between boundaries.** -/
theorem boundary_of_outer {x : Char} (hx : Outer x) (h : cs[i]? = some x) :
    Boundary cs i ∧ Boundary cs (i + 1) := by
  induction cs using escaped_induction generalizing i with
  | nil => cases h
  | sentinel c s rest hs ih =>
    have hle : s.length ≤ i := by
      refine Nat.le_of_not_lt fun hlt => ?_
      rw [List.getElem?_append_left hlt] at h
      exact hx (c, s) hs (List.mem_of_getElem? h)
    obtain ⟨j, rfl⟩ := Nat.exists_eq_add_of_le hle
    rw [List.getElem?_append_right hle, Nat.add_sub_cancel_left] at h
    exact ⟨.sentinel hs (ih h).1, .sentinel hs (ih h).2⟩
  | char c rest hc ih =>
    cases i with
    | zero => exact ⟨.zero _, .char hc (.zero _)⟩
    | succ i =>
      rw [List.getElem?_cons_succ] at h
      exact ⟨.char hc (ih h).1, .char hc (ih h).2⟩

/-- A sentinel starts at a boundary, wherever it stands. -/
theorem boundary_of_mark (h : cs[i]? = some '<') : Boundary cs i := by
  induction cs using escaped_induction generalizing i with
  | nil => cases h
  | sentinel c s rest hs ih =>
    rcases Nat.lt_or_ge i s.length with hlt | hle
    · obtain ⟨t, rfl, ht⟩ := sentinel_shape hs
      cases i with
      | zero => exact .zero _
      | succ i =>
        rw [List.getElem?_append_left hlt, List.getElem?_cons_succ] at h
        exact absurd (List.mem_of_getElem? h) ht
    · obtain ⟨j, rfl⟩ := Nat.exists_eq_add_of_le hle
      rw [List.getElem?_append_right hle, Nat.add_sub_cancel_left] at h
      exact .sentinel hs (ih h)
  | char c rest hc ih =>
    cases i with
    | zero => exact .zero _
    | succ i =>
      rw [List.getElem?_cons_succ] at h
      exact .char hc (ih h)

end PackLint.SkillLine
