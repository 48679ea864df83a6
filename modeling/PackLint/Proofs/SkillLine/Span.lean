import PackLint.Proofs.SkillLine.Boundary
import PackLint.Proofs.Text.Source
import PackLint.SkillLine.Config

/-!
# Where tokens stand

A token stands in a document if the span that it tells holds its value. An escaped text that shows a
piece of the document has the right token between any two of its boundaries, and what it has there
shows a piece of the document in turn.

Results:
* `Shows.slice`: a piece of an escaped text shows a piece of the document.
* `Shows.stands_covering`: the token between two boundaries stands in the document.
* `LineConfig.boundary_trimSpan`: trimming leads from boundaries to boundaries.
-/

namespace PackLint

open SkillLine

/-! ## Tokens -/

/-- The span of the token lies in the document and holds the text. -/
structure LineToken.Spells (src : Source) (t : LineToken) (text : List Char) : Prop where
  nonneg : 0 ≤ t.start
  ordered : t.start ≤ t.stop
  bounded : t.stop ≤ src.size
  slice_eq : src.slice t.start.toNat t.stop.toNat = text

/-- The token stands in the document: its span holds its value. -/
def LineToken.Stands (src : Source) (t : LineToken) : Prop := t.Spells src t.value.toList

/-! ## Escaped texts -/

/-- The escaped text stands for the piece of the document at the offset. -/
def Shows (src : Source) (escaped : List Char) (offset : Int) : Prop :=
  ∃ before after : List Char,
    src.toList = before ++ unescape escaped ++ after ∧ offset = (before.length : Int)

namespace Shows

variable {src : Source} {escaped : List Char} {offset : Int} {i k : Nat}

theorem slice (h : Shows src escaped offset) (hi : Boundary escaped i) (hk : Boundary escaped k)
    (hik : i ≤ k) : Shows src ((escaped.take k).drop i) (sourceOffset escaped offset i) := by
  obtain ⟨before, after, hsrc, rfl⟩ := h
  refine ⟨before ++ unescape (escaped.take i), unescape (escaped.drop k) ++ after, ?_, ?_⟩
  · have hinner := unescape_take_append_drop (hi.take hik)
    rw [List.take_take, Nat.min_eq_left hik] at hinner
    rw [hsrc, ← unescape_take_append_drop hk, ← hinner]
    simp only [List.append_assoc]
  · rw [sourceOffset, sourceCount_eq hi, List.length_append]
    omega

theorem drop (h : Shows src escaped offset) (hi : Boundary escaped i) :
    Shows src (escaped.drop i) (sourceOffset escaped offset i) := by
  have hs := h.slice hi (boundary_length escaped) hi.le_length
  rwa [List.take_length] at hs

/-- **The token between two boundaries stands in the document.** -/
theorem stands_covering (h : Shows src escaped offset) (hi : Boundary escaped i)
    (hk : Boundary escaped k) (hik : i ≤ k) :
    (LineToken.covering escaped offset i k).Stands src := by
  have hstart : sourceOffset escaped offset k = sourceOffset escaped offset i +
      ((unescape ((escaped.take k).drop i)).length : Int) := by
    have hinner := congrArg List.length (unescape_take_append_drop (hi.take hik))
    rw [List.take_take, Nat.min_eq_left hik, List.length_append, ← sourceCount_eq hi,
      ← sourceCount_eq hk] at hinner
    rw [sourceOffset, sourceOffset, ← hinner]
    omega
  obtain ⟨before, after, hsrc, hoffset⟩ := h.slice hi hk hik
  have hsize := congrArg List.length hsrc
  rw [List.length_append, List.length_append] at hsize
  rw [hoffset] at hstart
  refine ⟨?_, ?_, ?_, ?_⟩ <;> simp only [LineToken.covering, hoffset, hstart, String.toList_ofList]
  · exact Int.natCast_nonneg _
  · omega
  · change _ ≤ ((src.chars.size : Nat) : Int)
    rw [← Array.length_toList]
    change _ ≤ ((src.toList.length : Nat) : Int)
    omega
  · exact Source.slice_eq_of_append hsrc

end Shows

/-- An escaped line shows the line wherever it stands. -/
theorem shows_of_slice {src : Source} {escaped : List Char} {start : Nat}
    (hne : unescape escaped ≠ [])
    (h : src.slice start (start + (unescape escaped).length) = unescape escaped) :
    Shows src escaped start := by
  rw [Source.slice_eq] at h
  refine ⟨src.toList.take start, (src.toList.drop start).drop (unescape escaped).length, ?_, ?_⟩
  · conv => lhs; rw [← List.take_append_drop start src.toList]
    rw [List.append_assoc]
    conv => lhs; rw [← List.take_append_drop (unescape escaped).length (src.toList.drop start), h]
  · rw [List.length_take_of_le]
    refine Nat.le_of_not_lt fun hlt => hne ?_
    rw [← h, List.drop_eq_nil_of_le (Nat.le_of_lt hlt), List.take_nil]

/-! ## Single marks -/

theorem take_drop_of_getElem? {cs : List Char} {i : Nat} {x : Char} (h : cs[i]? = some x) :
    (cs.take (i + 1)).drop i = [x] := by
  obtain ⟨hi, rfl⟩ := List.getElem?_eq_some_iff.mp h
  rw [List.take_succ_eq_append_getElem hi]
  exact List.drop_left' (List.length_take_of_le (Nat.le_of_lt hi))

theorem unescape_outer {x : Char} (hx : Outer x) : unescape [x] = [x] := by
  rw [unescape_char (sentinel?_outer hx [])]
  rfl

/-- A mark that is in no sentinel stands in the document. -/
theorem Shows.stands_mark {src : Source} {escaped : List Char} {offset : Int} {i : Nat} {x : Char}
    (h : Shows src escaped offset) (hx : Outer x) (hi : escaped[i]? = some x) {value : String}
    (hvalue : value.toList = [x]) :
    (⟨value, sourceOffset escaped offset i, sourceOffset escaped offset (i + 1)⟩ :
      LineToken).Stands src := by
  obtain ⟨hb, hb'⟩ := boundary_of_outer hx hi
  have hs := h.stands_covering hb hb' (Nat.le_succ i)
  unfold LineToken.Stands LineToken.covering at hs
  rw [take_drop_of_getElem? hi, unescape_outer hx, String.toList_ofList] at hs
  unfold LineToken.Stands
  rw [hvalue]
  exact ⟨hs.nonneg, hs.ordered, hs.bounded, hs.slice_eq⟩

/-! ## Trimming -/

namespace LineConfig

theorem leadingBlanks_append (space s rest : List Char) :
    leadingBlanks space s.length (s ++ rest) = s.length + leadingBlanks space 0 rest := by
  induction s with
  | nil => rw [List.length_nil, Nat.zero_add]; rfl
  | cons x s ih =>
    rw [List.length_cons, List.cons_append, leadingBlanks, ih]
    omega

theorem leadingBlanks_space {space : List Char} (hne : space.head?.any fun c => !isBlank c)
    (rest : List Char) :
    leadingBlanks space 0 (space ++ rest) = space.length + leadingBlanks space 0 rest := by
  cases space with
  | nil => cases hne
  | cons x s =>
    have hx : isBlank x = false := by simpa using hne
    have hpre : (x :: s).isPrefixOf (x :: (s ++ rest)) = true := by
      rw [← List.cons_append]
      exact List.isPrefixOf_iff_prefix.mpr (List.prefix_append _ _)
    rw [List.cons_append, leadingBlanks]
    simp only [hx, hpre, if_true, Bool.false_eq_true, if_false, List.length_cons,
      Nat.add_sub_cancel]
    have happend := leadingBlanks_append (x :: s) s rest
    rw [happend]
    omega

theorem outer_of_isBlank {x : Char} (h : isBlank x) : Outer x := by
  have hall : sentinels.all (fun e => e.2.all fun c => !isBlank c) = true := by rfl
  intro e he hx
  have hblank := List.all_eq_true.mp (List.all_eq_true.mp hall e he) x hx
  rw [h] at hblank
  cases hblank

theorem mem_blockSpace : (' ', blockSpace) ∈ sentinels := by decide

/-- No other sentinel than the block space is blank. -/
theorem leadingBlanks_sentinel {c : Char} {s : List Char} (hs : (c, s) ∈ sentinels)
    (hspace : s ≠ blockSpace) (rest : List Char) : leadingBlanks blockSpace 0 (s ++ rest) = 0 := by
  obtain ⟨t, rfl, -⟩ := sentinel_shape hs
  have hpre : blockSpace.isPrefixOf ('<' :: (t ++ rest)) = false := by
    rw [Bool.eq_false_iff]
    intro hp
    have hread := sentinel?_append hs rest
    rw [List.cons_append,
      sentinel?_eq_some.mpr ⟨mem_blockSpace, List.isPrefixOf_iff_prefix.mp hp⟩] at hread
    cases hread
    exact hspace rfl
  rw [List.cons_append, leadingBlanks]
  simp only [hpre, (by decide : isBlank '<' = false), Bool.false_eq_true, if_false]

theorem leadingBlanks_char {c : Char} {rest : List Char} (hc : sentinel? (c :: rest) = none) :
    leadingBlanks blockSpace 0 (c :: rest) =
      if isBlank c then leadingBlanks blockSpace 0 rest + 1 else 0 := by
  have hpre : blockSpace.isPrefixOf (c :: rest) = false := by
    rw [Bool.eq_false_iff]
    intro hp
    rw [sentinel?_eq_some.mpr ⟨mem_blockSpace, List.isPrefixOf_iff_prefix.mp hp⟩] at hc
    cases hc
  rw [leadingBlanks]
  simp only [hpre, Bool.false_eq_true, if_false]

theorem boundary_leadingBlanks (span : List Char) :
    Boundary span (leadingBlanks blockSpace 0 span) := by
  induction span using escaped_induction with
  | nil => exact .zero []
  | sentinel c s rest hs ih =>
    by_cases hspace : s = blockSpace
    · rw [hspace, leadingBlanks_space (by decide)]
      exact .sentinel mem_blockSpace ih
    · rw [leadingBlanks_sentinel hs hspace]
      exact .zero _
  | char c rest hc ih =>
    rw [leadingBlanks_char hc]
    split
    · exact .char hc ih
    · exact .zero _

theorem leadingBlanks_le (space : List Char) (skip : Nat) (cs : List Char) :
    leadingBlanks space skip cs ≤ cs.length := by
  induction cs generalizing skip with
  | nil => exact Nat.le_refl 0
  | cons c cs ih =>
    unfold leadingBlanks
    split
    · exact Nat.succ_le_succ (ih _)
    · split
      · exact Nat.succ_le_succ (ih _)
      · split
        · exact Nat.succ_le_succ (ih _)
        · exact Nat.zero_le _

/-- The trailing blanks of a text are those that the reversed text starts with: block spaces, found
from their ends, and single blanks. -/
theorem trailingBlanks_cases (span : List Char) :
    (∃ front, span = front ++ blockSpace ∧ leadingBlanks blockSpace.reverse 0 span.reverse =
        blockSpace.length + leadingBlanks blockSpace.reverse 0 front.reverse) ∨
      (∃ front c, span = front ++ [c] ∧ isBlank c ∧
        leadingBlanks blockSpace.reverse 0 span.reverse =
          leadingBlanks blockSpace.reverse 0 front.reverse + 1) ∨
      leadingBlanks blockSpace.reverse 0 span.reverse = 0 := by
  by_cases hspace : blockSpace <:+ span
  · obtain ⟨front, rfl⟩ := hspace
    refine .inl ⟨front, rfl, ?_⟩
    rw [List.reverse_append, leadingBlanks_space (by decide), List.length_reverse]
  · refine .inr ?_
    rcases List.eq_nil_or_concat span with rfl | ⟨front, c, rfl⟩
    · exact .inr rfl
    · rw [List.concat_eq_append] at hspace ⊢
      rw [List.reverse_append, List.reverse_singleton, List.singleton_append, leadingBlanks]
      have hpre : ¬ blockSpace.reverse.isPrefixOf (c :: front.reverse) = true := by
        intro hp
        refine hspace (List.reverse_prefix.mp ?_)
        rw [List.reverse_append]
        exact List.isPrefixOf_iff_prefix.mp hp
      by_cases hc : isBlank c
      · refine .inl ⟨front, c, rfl, hc, ?_⟩
        simp only [hc, if_true]
      · refine .inr ?_
        simp only [hc, hpre, if_false, Bool.false_eq_true]

/-- Block spaces are found from their ends, but start at boundaries all the same. -/
theorem boundary_trailingBlanks (span : List Char) :
    Boundary span (span.length - leadingBlanks blockSpace.reverse 0 span.reverse) := by
  induction h : span.length using Nat.strongRecOn generalizing span with
  | ind n ih =>
    subst h
    rcases trailingBlanks_cases span with ⟨front, rfl, hblanks⟩ | ⟨front, c, rfl, hc, hblanks⟩ |
      hblanks
    · have hmark : (front ++ blockSpace)[front.length]? = some '<' := by
        rw [List.getElem?_append_right (Nat.le_refl _), Nat.sub_self]
        rfl
      have hfront := ih front.length (by simp [blockSpace]) front rfl
      rw [hblanks, List.length_append, Nat.add_comm front.length, Nat.add_sub_add_left]
      refine (boundary_of_mark hmark).of_take ?_
      rwa [List.take_left]
    · have hlast : (front ++ [c])[front.length]? = some c := List.getElem?_concat_length
      have hfront := ih front.length (by simp) front rfl
      rw [hblanks, List.length_append, List.length_singleton, Nat.add_sub_add_right]
      refine (boundary_of_outer (outer_of_isBlank hc) hlast).1.of_take ?_
      rwa [List.take_left]
    · rw [hblanks, Nat.sub_zero]
      exact boundary_length _

/-- **Trimming leads from boundaries to boundaries.** -/
theorem boundary_trimSpan {text : List Char} {start stop : Nat} (hstart : Boundary text start)
    (hstop : Boundary text stop) (hle : start ≤ stop) :
    Boundary text (trimSpan text start stop).1 ∧ Boundary text (trimSpan text start stop).2 ∧
      start ≤ (trimSpan text start stop).1 ∧
      (trimSpan text start stop).1 ≤ (trimSpan text start stop).2 ∧
      (trimSpan text start stop).2 ≤ stop := by
  have hlen : ((text.take stop).drop start).length = stop - start := by
    rw [List.length_drop, List.length_take_of_le hstop.le_length]
  unfold trimSpan
  simp only
  generalize hspan : (text.take stop).drop start = span at hlen ⊢
  have hfront := boundary_leadingBlanks span
  have hfrontle := leadingBlanks_le blockSpace 0 span
  generalize leadingBlanks blockSpace 0 span = front at hfront hfrontle ⊢
  have hback := boundary_trailingBlanks (span.drop front)
  have hbackle := leadingBlanks_le blockSpace.reverse 0 (span.drop front).reverse
  generalize leadingBlanks blockSpace.reverse 0 (span.drop front).reverse = back at hback hbackle ⊢
  rw [List.length_reverse, List.length_drop] at hbackle
  rw [List.length_drop] at hback
  -- the span of the text lies between boundaries, so its boundaries are boundaries of the text
  have hlift : ∀ {i : Nat}, Boundary span i → Boundary text (start + i) := fun hi =>
    hstop.of_take ((hstart.take hle).add (hspan ▸ hi))
  have hstop' : stop - back = start + (front + (span.length - front - back)) := by omega
  refine ⟨hlift hfront, ?_, ?_, ?_, ?_⟩
  · rw [hstop']
    exact hlift (hfront.add hback)
  · omega
  · omega
  · omega

end LineConfig

end PackLint
