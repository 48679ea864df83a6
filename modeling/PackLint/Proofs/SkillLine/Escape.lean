import PackLint.Proofs.SkillLine.Boundary
import Mathlib.Data.List.Forall2

/-!
# Escaping and back

A line that spells no sentinel itself is read back (`parse_string`) from its escaped text
(`unparse_block`): the sentinels in it are those that the escaping has put there, because a sentinel
has its mark `<` only in front. A line that spells sentinels keeps them, because the characters of a
sentinel are never hidden. So the escaped text is read in the same steps as the line itself, which
`Aligned` says step by step.

Results:
* `SkillLine.aligned_pieces`: the escaped text is read in the steps of the line.
* `SkillLine.unescape_escape`: escaping loses nothing of a plain line.
* `SkillLine.unescape_escape_eq`: escaping changes no reading, and only plain lines are read as
  they are.
-/

namespace PackLint.SkillLine

/-- The line spells none of the sentinels. -/
def Plain (line : List Char) : Prop := ∀ e ∈ sentinels, ¬ e.2 <:+: line

/-- What a character may be escaped to. -/
def HidesAs (c : Char) (piece : List Char) : Prop := piece = [c] ∨ (c, piece) ∈ sentinels

/-! ## Pieces -/

theorem hidesAs_hideQuoted (c : Char) : HidesAs c (hideQuoted c) := by
  unfold hideQuoted
  cases h : specialSentinels.lookup c with
  | none => exact Or.inl rfl
  | some s =>
    refine Or.inr (List.mem_append_left _ ?_)
    obtain ⟨l₁, l₂, heq, -⟩ := List.lookup_eq_some_iff.mp h
    rw [heq]
    exact List.mem_append_right _ List.mem_cons_self

theorem hidesAs_hideUnquoted (c : Char) : HidesAs c (hideUnquoted c) := by
  unfold hideUnquoted
  split
  · rename_i h
    rw [h]
    exact Or.inr (List.mem_append_right _ List.mem_cons_self)
  · split
    · exact hidesAs_hideQuoted c
    · exact Or.inl rfl

theorem hidesAs_hide (quote : Option Char) (c : Char) : HidesAs c (hide quote c) := by
  unfold hide
  split
  · split
    · exact Or.inl rfl
    · exact hidesAs_hideQuoted c
  · exact hidesAs_hideUnquoted c

theorem hidesAs_piecesFrom (place : Place) (cs : List Char) :
    List.Forall₂ HidesAs cs (piecesFrom place cs) := by
  induction cs generalizing place with
  | nil => exact .nil
  | cons c cs ih =>
    unfold piecesFrom
    split
    · exact .cons (hidesAs_hide _ c) (ih _)
    · exact .cons (Or.inl rfl) (ih _)
    · exact .cons (Or.inl rfl) (ih _)
    · exact .cons (Or.inl rfl) (ih _)

/-! ## Reading in step -/

/-- The pieces of an escaped text are read in the same steps as the line. A step takes a sentinel
that the line spells, a hidden character, or a character that stays and starts no sentinel on either
side. -/
inductive Aligned : List Char → List (List Char) → Prop
  | nil : Aligned [] []
  | typed {c : Char} {s rest : List Char} {ps : List (List Char)} (hs : (c, s) ∈ sentinels)
      (h : Aligned rest ps) : Aligned (s ++ rest) (s.map ([·]) ++ ps)
  | hidden {c : Char} {s rest : List Char} {ps : List (List Char)} (hs : (c, s) ∈ sentinels)
      (hc : sentinel? (c :: rest) = none) (h : Aligned rest ps) : Aligned (c :: rest) (s :: ps)
  | kept {c : Char} {rest : List Char} {ps : List (List Char)} (hc : sentinel? (c :: rest) = none)
      (hp : sentinel? (c :: ps.flatten) = none) (h : Aligned rest ps) :
      Aligned (c :: rest) ([c] :: ps)

/-- What an escaped line starts with was not put there by the escaping, as far as the mark of a
sentinel is missing. -/
theorem prefix_of_prefix_flatten {cs : List Char} {ps : List (List Char)}
    (h : List.Forall₂ HidesAs cs ps) {t : List Char} (ht : '<' ∉ t) (hpre : t <+: ps.flatten) :
    t <+: cs := by
  induction h generalizing t with
  | nil => exact hpre
  | @cons c piece cs ps hc h ih =>
    cases t with
    | nil => exact List.nil_prefix
    | cons x t =>
      rw [List.flatten_cons] at hpre
      rcases hc with rfl | hc
      · rw [List.singleton_append, List.cons_prefix_cons] at hpre
        rw [List.cons_prefix_cons]
        exact ⟨hpre.1, ih (fun hm => ht (List.mem_cons_of_mem x hm)) hpre.2⟩
      · obtain ⟨s, rfl, -⟩ := sentinel_shape hc
        rw [List.cons_append, List.cons_prefix_cons] at hpre
        exact absurd (hpre.1 ▸ List.mem_cons_self) ht

/-- A character that starts no sentinel in the line starts none in the escaped text. -/
theorem sentinel?_cons_flatten {c : Char} {cs : List Char} {ps : List (List Char)}
    (h : List.Forall₂ HidesAs cs ps) (hc : sentinel? (c :: cs) = none) :
    sentinel? (c :: ps.flatten) = none := by
  cases hs : sentinel? (c :: ps.flatten) with
  | none => rfl
  | some e =>
    obtain ⟨he, hpre⟩ := sentinel?_eq_some.mp hs
    obtain ⟨t, ht, hmark⟩ := sentinel_shape he
    have hspelt : e.2 <+: c :: cs := by
      rw [ht, List.cons_prefix_cons] at hpre ⊢
      exact ⟨hpre.1, prefix_of_prefix_flatten h hmark hpre.2⟩
    rw [sentinel?_eq_some.mpr ⟨he, hspelt⟩] at hc
    cases hc

/-- The characters that are hidden are in no sentinel. -/
theorem outer_of_mem_sentinels {c : Char} {s : List Char} (h : (c, s) ∈ sentinels) : Outer c := by
  have hall : ∀ e ∈ sentinels, Outer e.1 := by decide
  exact hall (c, s) h

/-- Characters of a sentinel are not hidden. -/
theorem pieces_of_not_outer {s rest : List Char} {ps : List (List Char)} (hs : ∀ x ∈ s, ¬ Outer x)
    (h : List.Forall₂ HidesAs (s ++ rest) ps) :
    ∃ ps', ps = s.map ([·]) ++ ps' ∧ List.Forall₂ HidesAs rest ps' := by
  induction s generalizing ps with
  | nil => exact ⟨ps, rfl, h⟩
  | cons x s ih =>
    obtain ⟨hx, hs⟩ := List.forall_mem_cons.mp hs
    cases h with
    | cons hpiece h =>
      obtain ⟨ps', rfl, h'⟩ := ih hs h
      have hkept := hpiece.resolve_right fun hm => hx (outer_of_mem_sentinels hm)
      exact ⟨ps', by rw [hkept]; rfl, h'⟩

theorem aligned_of_hidesAs {cs : List Char} {ps : List (List Char)}
    (h : List.Forall₂ HidesAs cs ps) : Aligned cs ps := by
  induction cs using escaped_induction generalizing ps with
  | nil =>
    cases h
    exact .nil
  | sentinel c s rest hs ih =>
    obtain ⟨ps', rfl, h'⟩ := pieces_of_not_outer (fun x hx ho => ho (c, s) hs hx) h
    exact .typed hs (ih h')
  | char c rest hc ih =>
    cases h with
    | cons hpiece h =>
      rcases hpiece with rfl | hs
      · exact .kept hc (sentinel?_cons_flatten h hc) (ih h)
      · exact .hidden hs hc (ih h)

/-- **The escaped text is read in the steps of the line.** -/
theorem aligned_pieces (line : List Char) : Aligned line (pieces line) :=
  aligned_of_hidesAs (hidesAs_piecesFrom .outside line)

/-! ## Reading back -/

theorem flatten_singletons_append (s : List Char) (ps : List (List Char)) :
    (s.map ([·]) ++ ps).flatten = s ++ ps.flatten := by
  induction s with
  | nil => rfl
  | cons x s ih => exact congrArg (x :: ·) ih

theorem Aligned.unescape_flatten {cs : List Char} {ps : List (List Char)} (h : Aligned cs ps) :
    unescape ps.flatten = unescape cs := by
  induction h with
  | nil => rfl
  | typed hs h ih =>
    rw [flatten_singletons_append, unescape_sentinel hs, unescape_sentinel hs, ih]
  | hidden hs hc h ih => rw [List.flatten_cons, unescape_sentinel hs, unescape_char hc, ih]
  | kept hc hp h ih =>
    rw [List.flatten_cons, List.singleton_append, unescape_char hp, unescape_char hc, ih]

/-- Escaping changes nothing of what a line is read as. -/
theorem unescape_escape_self (line : List Char) : unescape (escape line) = unescape line :=
  (aligned_pieces line).unescape_flatten

theorem unescape_of_plain {line : List Char} (h : Plain line) : unescape line = line := by
  induction line using escaped_induction with
  | nil => rfl
  | sentinel c s rest hs => exact absurd (List.prefix_append s rest).isInfix (h (c, s) hs)
  | char c rest hc ih =>
    have hrest : Plain rest := fun e he hin => h e he (hin.trans (List.suffix_cons c rest).isInfix)
    rw [unescape_char hc, ih hrest]

/-- **Escaping loses nothing of a plain line.** -/
theorem unescape_escape {line : List Char} (h : Plain line) : unescape (escape line) = line :=
  (unescape_escape_self line).trans (unescape_of_plain h)

theorem length_unescape_le (cs : List Char) : (unescape cs).length ≤ cs.length := by
  induction cs using escaped_induction with
  | nil => exact Nat.le_refl 0
  | sentinel c s rest hs ih =>
    have hpos := length_sentinel_pos hs
    rw [unescape_sentinel hs, List.length_cons, List.length_append]
    omega
  | char c rest hc ih =>
    rw [unescape_char hc]
    exact Nat.succ_le_succ ih

/-- A sentinel has more than one character. -/
theorem one_lt_length_sentinel {c : Char} {s : List Char} (h : (c, s) ∈ sentinels) :
    1 < s.length := by
  have hall : ∀ e ∈ sentinels, 1 < e.2.length := by decide
  exact hall (c, s) h

/-- A line that spells a sentinel is read as a shorter one. -/
theorem plain_of_unescape_eq {line : List Char} (h : unescape line = line) : Plain line := by
  rintro ⟨c, s⟩ hs ⟨front, rest, rfl⟩
  have hmark : (front ++ s ++ rest)[front.length]? = some '<' := by
    obtain ⟨t, rfl, -⟩ := sentinel_shape hs
    rw [List.append_assoc, List.getElem?_append_right (Nat.le_refl _), Nat.sub_self]
    rfl
  have hread := unescape_take_append_drop (boundary_of_mark hmark)
  rw [h, List.append_assoc, List.take_left, List.drop_left, unescape_sentinel hs] at hread
  have hlength := congrArg List.length hread
  have hfront := length_unescape_le front
  have hrest := length_unescape_le rest
  have hs' := one_lt_length_sentinel hs
  simp only [List.length_append, List.length_cons] at hlength
  omega

/-- **A line and its escaped text are read alike, and just the plain lines are read as they
are.** -/
theorem unescape_escape_eq (line : List Char) :
    unescape (escape line) = unescape line ∧ (unescape (escape line) = line ↔ Plain line) := by
  refine ⟨unescape_escape_self line, fun h => ?_, unescape_escape⟩
  exact plain_of_unescape_eq ((unescape_escape_self line).symm.trans h)

end PackLint.SkillLine
