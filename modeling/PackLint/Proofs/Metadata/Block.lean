import Mathlib.Order.Bounds.Defs
import PackLint.Metadata.Block
import PackLint.Proofs.Text.Positions
import PackLint.Proofs.Tree.Dotted

/-!
# Offsets into the metadata block

The metadata block (`metadata_source`) is made of lines of the document, each ended by a line feed,
with the marks blanked out. Blanking out a mark moves no line feed, and a position depends on the
line feeds in front of it only, so an offset has one position in the block and in the document.

Results:
* `endedLines_linesOf`: the lines of a text, each ended by a line feed, make the text with one line
  feed more.
* `getElem?_endedLines_unmarked`: blanking out the marks changes the first two characters of a line
  only.
* `metadataBlock_keeps_places`: the block as a whole.
-/

namespace PackLint

/-! ## Lines that are ended by line feeds -/

/-- The lines, each ended by a line feed. -/
def endedLines (lines : List (List Char)) : List Char :=
  lines.flatMap (· ++ ['\n'])

@[simp]
theorem endedLines_cons (line : List Char) (lines : List (List Char)) :
    endedLines (line :: lines) = line ++ '\n' :: endedLines lines := by
  rw [endedLines, List.flatMap_cons, List.append_assoc, List.singleton_append, endedLines]

theorem endedLines_append (lines lines' : List (List Char)) :
    endedLines (lines ++ lines') = endedLines lines ++ endedLines lines' :=
  List.flatMap_append

/-- The lines of a text, each ended by a line feed, make the text with one line feed more. -/
theorem endedLines_linesOf (cs : List Char) : endedLines (linesOf cs) = cs ++ ['\n'] := by
  unfold linesOf
  induction cs with
  | nil => rfl
  | cons c cs ih =>
    obtain ⟨line, lines, hcut⟩ := List.exists_cons_of_ne_nil (cutAt_ne_nil '\n' cs)
    simp only [hcut, endedLines_cons] at ih
    by_cases hc : c = '\n'
    · simp only [cutAt, hc, if_true, hcut, endedLines_cons, ih, List.nil_append, List.cons_append]
    · simp only [cutAt, hc, if_false, hcut, endedLines_cons, ih, List.cons_append]

/-- Lines that are ended by line feeds are found again, and an empty one behind the last of them. -/
theorem linesOf_endedLines {lines : List (List Char)} (h : ∀ line ∈ lines, '\n' ∉ line) :
    linesOf (endedLines lines) = lines ++ [[]] := by
  induction lines with
  | nil => rfl
  | cons line lines ih =>
    obtain ⟨hline, hlines⟩ := List.forall_mem_cons.mp h
    rw [endedLines_cons, linesOf, cutAt_append hline]
    exact congrArg (line :: ·) (ih hlines)

/-! ## Positions on lines that are ended by line feeds -/

/-- On the first line the position is the number of characters in front. -/
theorem positionBehind_of_not_mem {front : List Char} (h : '\n' ∉ front) :
    positionBehind front = ⟨0, front.length⟩ := by
  have hall : front.rtakeWhile (· ≠ '\n') = front :=
    List.rtakeWhile_eq_self_iff.mpr fun c hc => by
      simpa using fun heq : c = '\n' => h (heq ▸ hc)
  rw [positionBehind, List.count_eq_zero_of_not_mem h, hall]
  rfl

/-- A line in front moves the position by one line. -/
theorem positionBehind_append {line : List Char} (h : '\n' ∉ line) (front : List Char) :
    positionBehind (line ++ '\n' :: front) =
      ⟨(positionBehind front).line + 1, (positionBehind front).character⟩ := by
  have hlast : ((line ++ '\n' :: front).rtakeWhile (· ≠ '\n')).length =
      (front.rtakeWhile (· ≠ '\n')).length := by
    unfold List.rtakeWhile
    rw [List.reverse_append, List.reverse_cons, List.append_assoc, List.takeWhile_append]
    split
    · rename_i hall
      simp only [List.singleton_append, List.length_reverse] at hall ⊢
      rw [List.takeWhile_cons_of_neg (by simp), List.append_nil, List.length_reverse, hall]
    · rfl
  rw [positionBehind, hlast, List.count_append, List.count_eq_zero_of_not_mem h,
    List.count_cons_self, Nat.zero_add]
  rfl

/-! ## Blanking out the marks -/

/-- The line with a mark of two characters blanked out. -/
def unmarked (line : List Char) : List Char :=
  ' ' :: ' ' :: line.drop 2

theorem isMetadataLine_iff {line : List Char} : isMetadataLine line ↔ ['#', '#'] <+: line := by
  unfold isMetadataLine
  constructor
  · intro h
    split at h
    · rename_i rest
      exact ⟨rest, rfl⟩
    · cases h
  · rintro ⟨rest, rfl⟩
    rfl

/-- Blanking out the marks moves no line feed. -/
theorem map_eq_feed_unmarked {lines : List (List Char)} (h : ∀ line ∈ lines, ['#', '#'] <+: line) :
    (endedLines (lines.map unmarked)).map (· == '\n') = (endedLines lines).map (· == '\n') := by
  induction lines with
  | nil => rfl
  | cons line lines ih =>
    obtain ⟨⟨rest, rfl⟩, hlines⟩ := List.forall_mem_cons.mp h
    simp only [List.map_cons, endedLines_cons, List.map_append, ih hlines]
    rfl

theorem getElem?_append_cons_of_le {cs : List Char} {i : Nat} (c : Char) (hi : i ≤ cs.length)
    (ds : List Char) : (cs ++ c :: ds)[i]? = (cs ++ [c])[i]? := by
  rw [← List.singleton_append, ← List.append_assoc,
    List.getElem?_append_left (by rw [List.length_append, List.length_singleton]; omega)]

theorem getElem?_append_cons_add (cs : List Char) (c : Char) (ds : List Char) (j : Nat) :
    (cs ++ c :: ds)[cs.length + (j + 1)]? = ds[j]? := by
  rw [List.getElem?_append_right (Nat.le_add_right _ _), Nat.add_sub_cancel_left,
    List.getElem?_cons_succ]

/-- **Blanking out the marks changes the first two characters of a line only**, and all of the
characters are on one of the lines. -/
theorem getElem?_endedLines_unmarked {lines : List (List Char)}
    (hmarked : ∀ line ∈ lines, ['#', '#'] <+: line) (hfeed : ∀ line ∈ lines, '\n' ∉ line) {i : Nat}
    (hi : i < (endedLines lines).length) :
    (positionBehind ((endedLines lines).take i)).line < lines.length ∧
      if (positionBehind ((endedLines lines).take i)).character < 2 then
        (endedLines lines)[i]? = some '#' ∧ (endedLines (lines.map unmarked))[i]? = some ' '
      else (endedLines (lines.map unmarked))[i]? = (endedLines lines)[i]? := by
  induction lines generalizing i with
  | nil => exact absurd hi (Nat.not_lt_zero i)
  | cons line lines ih =>
    obtain ⟨⟨rest, hrest⟩, hmarked⟩ := List.forall_mem_cons.mp hmarked
    obtain ⟨hline, hfeed⟩ := List.forall_mem_cons.mp hfeed
    have hlength : (unmarked line).length = line.length := by rw [← hrest]; rfl
    rw [endedLines_cons] at hi ⊢
    rw [List.map_cons, endedLines_cons]
    by_cases hon : i ≤ line.length
    · -- on the first line, whose mark is its first two characters
      rw [List.take_append_of_le_length hon,
        positionBehind_of_not_mem fun hmem => hline (List.mem_of_mem_take hmem),
        List.length_take_of_le hon]
      refine ⟨by rw [List.length_cons]; simp only; omega, ?_⟩
      subst hrest
      rcases i with _ | _ | i
      · exact ⟨rfl, rfl⟩
      · exact ⟨rfl, rfl⟩
      · rw [if_neg (by simp only; omega), getElem?_append_cons_of_le _ hon,
          getElem?_append_cons_of_le _ (hon.trans_eq hlength.symm)]
        rfl
    · obtain ⟨j, rfl⟩ := Nat.exists_eq_add_of_lt (Nat.lt_of_not_le hon)
      have hback :=
        getElem?_append_cons_add (unmarked line) '\n' (endedLines (lines.map unmarked)) j
      rw [hlength] at hback
      rw [List.length_append, List.length_cons] at hi
      rw [Nat.add_assoc, List.take_length_add_append, List.take_succ_cons,
        positionBehind_append hline, getElem?_append_cons_add, hback]
      obtain ⟨hwithin, hchars⟩ := ih hmarked hfeed (i := j) (by omega)
      exact ⟨by rw [List.length_cons]; simp only; omega, hchars⟩

/-! ## The metadata block -/

/-- The number of metadata lines that a text starts with. -/
def metadataLineCount (text : List Char) : Nat :=
  ((linesOf text).takeWhile isMetadataLine).length

theorem takeWhile_isMetadataLine (text : List Char) :
    (linesOf text).takeWhile isMetadataLine = (linesOf text).take (metadataLineCount text) :=
  List.prefix_iff_eq_take.mp (List.takeWhile_prefix _)

/-- The block is made of the metadata lines, unmarked. -/
theorem metadataBlock_eq (text : List Char) :
    metadataBlock text =
      endedLines (((linesOf text).take (metadataLineCount text)).map unmarked) := by
  rw [metadataBlock, takeWhile_isMetadataLine, endedLines, List.flatMap_map]
  rfl

theorem mark_prefix_of_mem_take {text line : List Char}
    (h : line ∈ (linesOf text).take (metadataLineCount text)) : ['#', '#'] <+: line := by
  rw [← takeWhile_isMetadataLine] at h
  exact isMetadataLine_iff.mp (List.mem_takeWhile_imp h)

/-- **The metadata lines are the longest run of leading lines with the mark.** -/
theorem isGreatest_metadataLineCount (text : List Char) :
    IsGreatest {n | n ≤ (linesOf text).length ∧ ∀ line ∈ (linesOf text).take n, ['#', '#'] <+: line}
      (metadataLineCount text) := by
  constructor
  · exact ⟨(List.takeWhile_sublist _).length_le, fun line => mark_prefix_of_mem_take⟩
  · rintro n ⟨hn, hmarked⟩
    have hall : ∀ line ∈ (linesOf text).take n, isMetadataLine line := fun line hline =>
      isMetadataLine_iff.mpr (hmarked line hline)
    rw [metadataLineCount, ← List.take_append_drop n (linesOf text),
      List.takeWhile_append_of_pos hall, List.length_append, List.length_take_of_le hn]
    exact Nat.le_add_right _ _

/-- The metadata lines as the text has them, each ended by a line feed. -/
def metadataText (text : List Char) : List Char :=
  endedLines ((linesOf text).take (metadataLineCount text))

theorem feed_not_mem_of_mem_take {text line : List Char}
    (h : line ∈ (linesOf text).take (metadataLineCount text)) : '\n' ∉ line :=
  not_mem_of_mem_cutAt (List.mem_of_mem_take h)

/-- The text starts with its metadata lines, of which the last may end with the text. -/
theorem metadataText_prefix_append (text : List Char) : metadataText text <+: text ++ ['\n'] := by
  rw [← endedLines_linesOf, ← List.take_append_drop (metadataLineCount text) (linesOf text),
    endedLines_append]
  exact List.prefix_append _ _

theorem take_metadataText {text : List Char} {o : Nat} (ho : o ≤ (metadataText text).length)
    (hlength : o ≤ text.length) : (metadataText text).take o = text.take o := by
  rw [List.prefix_iff_eq_take.mp (metadataText_prefix_append text), List.take_take,
    Nat.min_eq_left ho, List.take_append_of_le_length hlength]

/-- The block has its line feeds where the metadata lines have theirs. -/
theorem map_eq_feed_metadataBlock (text : List Char) :
    (metadataBlock text).map (· == '\n') = (metadataText text).map (· == '\n') := by
  rw [metadataBlock_eq, map_eq_feed_unmarked fun line => mark_prefix_of_mem_take, metadataText]

theorem length_metadataBlock (text : List Char) :
    (metadataBlock text).length = (metadataText text).length := by
  simpa only [List.length_map] using congrArg List.length (map_eq_feed_metadataBlock text)

/-- The lines of the block are the metadata lines, unmarked, and an empty one. -/
theorem linesOf_metadataBlock (text : List Char) :
    linesOf (metadataBlock text) =
      ((linesOf text).take (metadataLineCount text)).map unmarked ++ [[]] := by
  rw [metadataBlock_eq, linesOf_endedLines]
  intro line hline
  obtain ⟨line, hmem, rfl⟩ := List.mem_map.mp hline
  have hrest : '\n' ∉ line.drop 2 := fun h => feed_not_mem_of_mem_take hmem (List.mem_of_mem_drop h)
  simpa [unmarked] using hrest

/-- The block has the characters of the metadata lines but for the marks. -/
theorem getElem?_metadataBlock {text : List Char} {i : Nat} (hi : i < (metadataText text).length) :
    (positionBehind ((metadataText text).take i)).line < metadataLineCount text ∧
      if (positionBehind ((metadataText text).take i)).character < 2 then
        text[i]? = some '#' ∧ (metadataBlock text)[i]? = some ' '
      else (metadataBlock text)[i]? = (text ++ ['\n'])[i]? := by
  have hmarked : ∀ line ∈ (linesOf text).take (metadataLineCount text), ['#', '#'] <+: line :=
    fun line => mark_prefix_of_mem_take
  obtain ⟨hline, hchars⟩ :=
    getElem?_endedLines_unmarked hmarked (fun line => feed_not_mem_of_mem_take) hi
  obtain ⟨back, hback⟩ := metadataText_prefix_append text
  have hsame : (metadataText text)[i]? = (text ++ ['\n'])[i]? := by
    rw [← hback, List.getElem?_append_left hi]
  rw [← metadataBlock_eq, ← metadataText, hsame] at hchars
  refine ⟨hline.trans_le (Int.ofNat_le.mpr (List.length_take_le _ _)), ?_⟩
  split at hchars
  · rename_i hfirst
    obtain ⟨hmark, hspace⟩ := hchars
    rw [if_pos hfirst]
    refine ⟨?_, hspace⟩
    rw [List.getElem?_append] at hmark
    split at hmark
    · exact hmark
    · -- behind the end of the text there is a line feed, not a mark
      have hmem := List.mem_of_getElem? hmark
      exact absurd (List.mem_singleton.mp hmem) (by decide)
  · rename_i hbehind
    rwa [if_neg hbehind]

/-- **Offsets into the metadata block are offsets into the document.** The block holds the longest
run of leading lines that start with the mark, is at most one character longer than the document,
and has the characters of the document but for the marks, which are blanked out, and a line feed
behind the end of the document. An offset that both have is at one position in both. -/
theorem metadataBlock_keeps_places (src : Source) :
    let block := Source.ofList (metadataBlock src.toList)
    let count := metadataLineCount src.toList
    IsGreatest {n | n ≤ src.lines.length ∧ ∀ line ∈ src.lines.take n, ['#', '#'] <+: line} count ∧
      block.lines = (src.lines.take count).map unmarked ++ [[]] ∧
      block.size ≤ src.size + 1 ∧
      (∀ i < block.size,
        (src.position i).line < count ∧
        if (src.position i).character < 2 then
          src.toList[i]? = some '#' ∧ block.toList[i]? = some ' '
        else block.toList[i]? = (src.toList ++ ['\n'])[i]?) ∧
      ∀ o : Int, 0 ≤ o → o ≤ block.size → o ≤ src.size → block.position o = src.position o := by
  intro block count
  have hblock : block.toList = metadataBlock src.toList := List.toList_toArray
  have hsize : block.size = (metadataText src.toList).length := by
    rw [← block.length_toList, hblock, length_metadataBlock]
  have hle : block.size ≤ src.size + 1 := by
    have hlength := (metadataText_prefix_append src.toList).length_le
    rwa [List.length_append, Source.length_toList, ← hsize] at hlength
  have hfront : ∀ o ≤ block.size, o ≤ src.size →
      (metadataText src.toList).take o = src.toList.take o := fun o hob hos =>
    take_metadataText (hob.trans_eq hsize) (hos.trans_eq src.length_toList.symm)
  refine ⟨isGreatest_metadataLineCount src.toList, ?_, hle, fun i hi => ?_, fun o ho hob hos => ?_⟩
  · rw [Source.lines, hblock, linesOf_metadataBlock, Source.lines]
  · have hchars := getElem?_metadataBlock (hi.trans_eq hsize)
    rw [hfront i hi.le (by omega), ← src.position_eq (by omega)] at hchars
    obtain ⟨hline, hchars⟩ := hchars
    exact ⟨hline, by rwa [hblock]⟩
  · obtain ⟨o, rfl⟩ := Int.eq_ofNat_of_zero_le ho
    have hob : o ≤ block.size := Int.ofNat_le.mp hob
    have hos : o ≤ src.size := Int.ofNat_le.mp hos
    rw [block.position_eq hob, src.position_eq hos, hblock, ← hfront o hob hos]
    exact positionBehind_congr (by rw [List.map_take, List.map_take, map_eq_feed_metadataBlock])

/-- A document that is metadata up to its end, where the block has a line feed more. -/
theorem metadataBlock_keeps_places_whole_document :
    let src := Source.ofString "##\r\n## a"
    let block := Source.ofList (metadataBlock src.toList)
    metadataLineCount src.toList = 2 ∧ block.text = "  \r\n   a\n" ∧ block.size = src.size + 1 ∧
      (7 < block.size ∧ ¬ (src.position (7 : Nat)).character < 2 ∧
        block.toList[7]? = (src.toList ++ ['\n'])[7]?) ∧
      (0 : Int) ≤ 8 ∧ (8 : Int) ≤ block.size ∧ (8 : Int) ≤ src.size ∧
        block.position 8 = src.position 8 := by
  intro src block
  obtain ⟨-, -, -, hchars, hplaces⟩ := metadataBlock_keeps_places src
  have hsize : 7 < block.size := by decide +kernel
  have hbehind : ¬ (src.position (7 : Nat)).character < 2 := by decide +kernel
  have hsame := (hchars 7 hsize).2
  rw [if_neg hbehind] at hsame
  have hblock : (8 : Int) ≤ block.size := by decide +kernel
  have hsrc : (8 : Int) ≤ src.size := by decide +kernel
  exact ⟨by decide +kernel, by decide +kernel, by decide +kernel, ⟨hsize, hbehind, hsame⟩,
    by omega, hblock, hsrc, hplaces 8 (by omega) hblock hsrc⟩

end PackLint
