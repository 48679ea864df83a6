import Mathlib.Data.Set.Function
import PackLint.Text.Lines
import PackLint.Proofs.Text.Source
import Mathlib.Data.List.DropRight

/-!
# Offsets and positions are in bijection

Cutting a text at its line feeds says which positions there are: a line of the cut text, and a
character at or before the end of that line. A line starts behind the lines in front of it, each
counted with its line feed, so `Source.position` and `Source.offset` (`offset_to_position`,
`position_to_offset`), which work with the starts of the lines only, undo each other between the
offsets of a text and these positions.

The position of an offset depends on the text in front of it only, and of this only on where the
line feeds are: they are counted for the line, and the characters behind the last of them make the
character.

Results:
* `Source.lineEnd_eq`: a line ends its length behind its start.
* `Source.position_offset`: the position of the offset of a position of the text is that position.
* `Source.positions_bijOn_offsets`: `position` and `offset` are inverse bijections, and both of them
  move what lies outside the text into it.
* `Source.position_eq`: the position of an offset is that behind the text in front of it.
* `positionBehind_congr`: the position behind a text depends on its line feeds only.
-/

namespace PackLint

/-! ## Starts of the lines of a cut text -/

/-- The number of the characters of the first `n` lines, each with its line feed. -/
def frontLength (lines : List (List Char)) (n : Nat) : Nat :=
  ((lines.take n).flatMap (· ++ ['\n'])).length

@[simp]
theorem frontLength_cons_succ (line : List Char) (lines : List (List Char)) (n : Nat) :
    frontLength (line :: lines) (n + 1) = line.length + 1 + frontLength lines n := by
  rw [frontLength, List.take_succ_cons, List.flatMap_cons, List.length_append, List.length_append,
    List.length_singleton, frontLength]

theorem frontLength_succ {lines : List (List Char)} {n : Nat} (hn : n < lines.length) :
    frontLength lines (n + 1) = frontLength lines n + lines[n].length + 1 := by
  rw [frontLength, List.take_succ_eq_append_getElem hn, List.flatMap_append, List.length_append,
    frontLength, List.flatMap_singleton, List.length_append, List.length_singleton, Nat.add_assoc]

/-- A line feed is counted behind the last line too, where there is none. -/
theorem frontLength_linesOf (cs : List Char) :
    frontLength (linesOf cs) (linesOf cs).length = cs.length + 1 := by
  unfold linesOf
  induction cs with
  | nil => rfl
  | cons c cs ih =>
    obtain ⟨line, lines, hcut⟩ := List.exists_cons_of_ne_nil (cutAt_ne_nil '\n' cs)
    simp only [hcut, List.length_cons, frontLength_cons_succ] at ih
    by_cases hc : c = '\n'
    · simp only [cutAt, hc, if_true, hcut, List.length_cons, frontLength_cons_succ,
        List.length_nil]
      omega
    · simp only [cutAt, hc, if_false, hcut, List.length_cons, frontLength_cons_succ]
      omega

/-- There is a start for every line but the first one, behind all lines in front of it. -/
theorem lineStartsAfter_eq (start : Nat) (cs : List Char) :
    lineStartsAfter start cs =
      (List.range ((linesOf cs).length - 1)).map fun n =>
        start + frontLength (linesOf cs) (n + 1) := by
  unfold linesOf
  induction cs generalizing start with
  | nil => rfl
  | cons c cs ih =>
    obtain ⟨line, lines, hcut⟩ := List.exists_cons_of_ne_nil (cutAt_ne_nil '\n' cs)
    have htail := ih (start + 1)
    rw [hcut, List.length_cons, Nat.add_sub_cancel] at htail
    by_cases hc : c = '\n'
    · simp only [lineStartsAfter, cutAt, hc, if_true, hcut, htail, List.length_cons,
        Nat.add_sub_cancel, List.range_succ_eq_map, List.map_cons, List.map_map]
      refine congrArg₂ _ rfl (List.map_congr_left fun n _ => ?_)
      simp only [Function.comp_apply, frontLength_cons_succ, List.length_nil]
      omega
    · simp only [lineStartsAfter, cutAt, hc, if_false, hcut, htail, List.length_cons,
        Nat.add_sub_cancel]
      refine List.map_congr_left fun n _ => ?_
      simp only [frontLength_cons_succ, List.length_cons]
      omega

theorem lineStartsOf_eq (cs : List Char) :
    lineStartsOf cs = (List.range (linesOf cs).length).map (frontLength (linesOf cs)) := by
  have hpos := List.length_pos_iff.mpr (cutAt_ne_nil '\n' cs)
  obtain ⟨count, hcount⟩ := Nat.exists_eq_add_of_lt hpos
  rw [lineStartsOf, lineStartsAfter_eq, linesOf, hcount, Nat.zero_add, Nat.add_sub_cancel,
    List.range_succ_eq_map, List.map_cons, List.map_map]
  simp only [Nat.zero_add]
  rfl

namespace Source

variable (src : Source)

/-- The lines of the text, without their line feeds. -/
def lines : List (List Char) := linesOf src.toList

theorem length_lineStartsOf : (lineStartsOf src.toList).length = src.lines.length := by
  rw [lineStartsOf_eq, List.length_map, List.length_range, lines]

theorem lineCount_eq_length_lines : src.lineCount = src.lines.length := by
  rw [lineCount_eq, length_lineStartsOf]

variable {src}

theorem lineStart_eq_frontLength {line : Nat} (hline : line < src.lines.length) :
    src.lineStart line = frontLength src.lines line := by
  rw [lineStart_eq src (by rwa [length_lineStartsOf])]
  simp only [lineStartsOf_eq, List.getElem_map, List.getElem_range]
  rfl

/-- **A line ends its length behind its start**, the last line as well as those that a line feed
ends. -/
theorem lineEnd_eq {line : Nat} (hline : line < src.lines.length) :
    src.lineEnd line = src.lineStart line + src.lines[line].length := by
  have hnext := frontLength_succ hline
  rw [← lineStart_eq_frontLength hline] at hnext
  unfold lineEnd
  rw [lineCount_eq_length_lines]
  split
  · rename_i hlt
    rw [lineStart_eq_frontLength hlt, hnext, Nat.add_sub_cancel]
  · have hlast : line + 1 = src.lines.length := by omega
    have hsize : src.size = src.toList.length := (Array.length_toList).symm
    have hall := frontLength_linesOf src.toList
    change frontLength src.lines src.lines.length = _ at hall
    rw [hlast, hall] at hnext
    omega

/-! ## The positions of a text -/

variable (src)

/-- The position `p` is one of the text: its line is there, and its character is at or before the
end of that line. -/
def HasPosition (p : Position) : Prop :=
  ∃ (line character : Nat) (hline : line < src.lines.length),
    p = ⟨line, character⟩ ∧ character ≤ src.lines[line].length

theorem hasPosition_position (o : Int) : src.HasPosition (src.position o) := by
  obtain ⟨hline, hstart, hend⟩ := src.lineOf_bounds (src.clamp_le o)
  rw [lineCount_eq_length_lines] at hline
  rw [lineEnd_eq hline] at hend
  refine ⟨src.lineOf (src.clamp o), src.clamp o - src.lineStart (src.lineOf (src.clamp o)), hline,
    ?_, by omega⟩
  rw [position, Int.ofNat_sub hstart]

theorem lineEnd_le_size (line : Nat) : src.lineEnd line ≤ src.size := by
  unfold lineEnd
  split
  · rename_i hnext
    have hlt : line + 1 < (lineStartsOf src.toList).length := by rwa [← lineCount_eq]
    have hmem := List.getElem_mem hlt
    rw [← lineStart_eq src hlt] at hmem
    have hle : src.lineStart (line + 1) ≤ src.size := by
      rcases List.mem_cons.mp hmem with hzero | hmem
      · omega
      · have hbounds := (lineStartsAfter_bounds 0 src.toList _ hmem).2
        rwa [Nat.zero_add] at hbounds
    omega
  · exact Nat.le_refl _

theorem offset_le (p : Position) : src.offset p ≤ src.size := by
  unfold offset
  split
  · exact Nat.zero_le _
  · split
    · exact Nat.le_refl _
    · exact (Nat.min_le_right _ _).trans (src.lineEnd_le_size _)

theorem clamp_of_le {o : Nat} (ho : o ≤ src.size) : src.clamp o = o := by
  rw [clamp, Int.toNat_natCast, Nat.min_eq_left ho]

/-- The line that holds an offset is the one between whose start and end it lies. -/
theorem lineOf_eq_of_bounds {o line : Nat} (hline : line < src.lines.length)
    (hstart : src.lineStart line ≤ o) (hend : o ≤ src.lineEnd line) : src.lineOf o = line := by
  have hsorted := pairwise_lineStartsOf src.toList
  have hlt : line < (lineStartsOf src.toList).length := by rwa [length_lineStartsOf]
  have hfront : line < (lineStartsOf src.toList).countP (· ≤ o) := by
    rwa [← getElem_le_iff_lt_countP hsorted o hlt, ← lineStart_eq src hlt]
  have hbehind : ¬ line + 1 < (lineStartsOf src.toList).countP (· ≤ o) := by
    intro hmore
    have hnext := hmore.trans_le List.countP_le_length
    rw [← getElem_le_iff_lt_countP hsorted o hnext, ← lineStart_eq src hnext] at hmore
    have hstep := frontLength_succ hline
    rw [length_lineStartsOf] at hnext
    rw [← lineStart_eq_frontLength hline, ← lineStart_eq_frontLength hnext] at hstep
    rw [lineEnd_eq hline] at hend
    omega
  rw [lineOf_eq]
  omega

variable {src} in
/-- **The position of the offset of a position of the text is that position.** -/
theorem position_offset {p : Position} (hp : src.HasPosition p) :
    src.position (src.offset p) = p := by
  obtain ⟨line, character, hline, rfl, hcharacter⟩ := hp
  have hend := lineEnd_eq hline
  have hoffset : src.offset ⟨line, character⟩ = src.lineStart line + character := by
    have hcount := src.lineCount_eq_length_lines
    unfold offset
    simp only
    rw [if_neg (by omega), if_neg (by omega), Int.toNat_natCast, Int.toNat_natCast]
    omega
  have hclamp := src.clamp_of_le (src.offset_le ⟨line, character⟩)
  rw [hoffset] at hclamp ⊢
  rw [position, hclamp, src.lineOf_eq_of_bounds hline (Nat.le_add_right _ _) (by omega)]
  refine congrArg (Position.mk _) ?_
  omega

/-- An offset outside the text is moved to its nearer end first. -/
theorem position_clamped (o : Int) : src.position o = src.position (max 0 (min o src.size)) := by
  have hclamp : src.clamp (max 0 (min o src.size)) = src.clamp o := by
    unfold clamp
    omega
  rw [position, position, hclamp]

/-- **`position` and `offset` are inverse bijections** between the offsets of a text, its end
included, and its positions. An offset outside the text has the position of the nearer end, and any
position at all has an offset whose position is one of the text and leads back to the same
offset. -/
theorem positions_bijOn_offsets :
    Set.BijOn src.position {o | 0 ≤ o ∧ o ≤ src.size} {p | src.HasPosition p} ∧
      Set.BijOn (fun p => (src.offset p : Int)) {p | src.HasPosition p}
        {o | 0 ≤ o ∧ o ≤ src.size} ∧
      Set.InvOn (fun p => (src.offset p : Int)) src.position {o | 0 ≤ o ∧ o ≤ src.size}
        {p | src.HasPosition p} ∧
      (∀ o : Int, src.position o = src.position (max 0 (min o src.size))) ∧
      ∀ p : Position, src.HasPosition (src.position (src.offset p)) ∧
        src.offset (src.position (src.offset p)) = src.offset p := by
  have hinv : Set.InvOn (fun p => (src.offset p : Int)) src.position {o | 0 ≤ o ∧ o ≤ src.size}
      {p | src.HasPosition p} := by
    constructor
    · rintro o ⟨hnonneg, hle⟩
      exact src.offset_position_of_le hnonneg hle
    · intro p hp
      exact position_offset hp
  have hthere : Set.MapsTo src.position {o | 0 ≤ o ∧ o ≤ src.size} {p | src.HasPosition p} :=
    fun o _ => src.hasPosition_position o
  have hback : Set.MapsTo (fun p => (src.offset p : Int)) {p | src.HasPosition p}
      {o | 0 ≤ o ∧ o ≤ src.size} :=
    fun p _ => ⟨Int.natCast_nonneg _, Int.ofNat_le.mpr (src.offset_le p)⟩
  refine ⟨hinv.bijOn hthere hback, hinv.symm.bijOn hback hthere, hinv, src.position_clamped, ?_⟩
  intro p
  refine ⟨src.hasPosition_position _, ?_⟩
  rw [offset_position, src.clamp_of_le (src.offset_le p)]

end Source

/-! ## The text in front of a position -/

/-- The position behind a text: the number of its line feeds, and that of the characters behind the
last one. -/
def positionBehind (front : List Char) : Position :=
  ⟨front.count '\n', (front.rtakeWhile (· ≠ '\n')).length⟩

/-- The position behind a text depends on its line feeds only. -/
theorem positionBehind_congr {front front' : List Char}
    (h : front.map (· == '\n') = front'.map (· == '\n')) :
    positionBehind front = positionBehind front' := by
  have hcount : ∀ cs : List Char, cs.count '\n' = (cs.map (· == '\n')).countP id := fun cs => by
    rw [List.countP_map]
    rfl
  have hlast : ∀ cs : List Char, (cs.rtakeWhile (· ≠ '\n')).length =
      ((cs.map (· == '\n')).rtakeWhile (!·)).length := fun cs => by
    unfold List.rtakeWhile
    rw [← List.map_reverse, List.takeWhile_map, List.length_reverse, List.length_reverse,
      List.length_map]
    congr 2
    funext c
    simp [beq_eq_decide]
  unfold positionBehind
  rw [hcount, hcount, hlast, hlast, h]

/-- As many lines start behind the first one, up to an offset, as there are line feeds in front of
the offset. -/
theorem countP_lineStartsAfter (start n : Nat) (cs : List Char) :
    (lineStartsAfter start cs).countP (· ≤ start + n) = (cs.take n).count '\n' := by
  induction cs generalizing start n with
  | nil => rw [List.take_nil]; rfl
  | cons c cs ih =>
    cases n with
    | zero =>
      rw [List.take_zero, List.count_nil, List.countP_eq_zero]
      intro s hs
      have hlt := (lineStartsAfter_bounds _ _ s hs).1
      simpa using hlt
    | succ n =>
      have htail := ih (start + 1) n
      rw [Nat.succ_add_eq_add_succ] at htail
      rw [List.take_succ_cons, lineStartsAfter]
      split
      · rename_i hc
        rw [hc, List.count_cons_self, List.countP_cons_of_pos (by simp), htail]
      · rename_i hc
        rw [List.count_cons_of_ne hc, htail]

namespace Source

variable (src : Source)

theorem length_toList : src.toList.length = src.size := Array.length_toList

theorem lineOf_eq_count (o : Nat) : src.lineOf o = (src.toList.take o).count '\n' := by
  have hcount := countP_lineStartsAfter 0 o src.toList
  rw [Nat.zero_add] at hcount
  rw [lineOf_eq, lineStartsOf, List.countP_cons_of_pos (by simp), hcount, Nat.add_sub_cancel]

/-- A line behind that of an offset starts behind the offset. -/
theorem lt_lineStart {o line : Nat} (hline : line < src.lineCount) (h : src.lineOf o < line) :
    o < src.lineStart line := by
  rw [lineCount_eq] at hline
  rw [src.lineOf_eq] at h
  rw [lineStart_eq src hline]
  have hbehind := getElem_le_iff_lt_countP (pairwise_lineStartsOf src.toList) o hline
  omega

/-- A line feed starts the next line behind it. -/
theorem lineStart_lineOf_succ {o : Nat} (h : src.toList[o]? = some '\n') :
    src.lineStart (src.lineOf (o + 1)) = o + 1 := by
  obtain ⟨ho, -⟩ := List.getElem?_eq_some_iff.mp h
  rw [length_toList] at ho
  have hstep : src.lineOf (o + 1) = src.lineOf o + 1 := by
    rw [lineOf_eq_count, lineOf_eq_count, List.take_add_one, h, List.count_append]
    rfl
  obtain ⟨hline, hstart, -⟩ := src.lineOf_bounds (o := o + 1) ho
  have hbehind := src.lt_lineStart (o := o) hline (by omega)
  omega

/-- The characters behind the last line feed in front of an offset stand on the line of the
offset. -/
theorem lineStart_lineOf_add {o : Nat} (ho : o ≤ src.size) :
    src.lineStart (src.lineOf o) + ((src.toList.take o).rtakeWhile (· ≠ '\n')).length = o := by
  induction o with
  | zero =>
    obtain ⟨-, hstart, -⟩ := src.lineOf_bounds ho
    rw [Nat.le_zero.mp hstart, List.take_zero, List.rtakeWhile_nil, List.length_nil]
  | succ o ih =>
    have hlt : o < src.toList.length := by rwa [length_toList]
    have hget := List.getElem?_eq_getElem hlt
    by_cases hc : src.toList[o] = '\n'
    · rw [hc] at hget
      rw [src.lineStart_lineOf_succ hget, List.take_add_one, hget, Option.toList_some,
        List.rtakeWhile_concat_neg _ _ _ (by simp), List.length_nil]
    · have hline : src.lineOf (o + 1) = src.lineOf o := by
        rw [lineOf_eq_count, lineOf_eq_count, List.take_add_one, hget, List.count_append,
          Option.toList_some, List.count_singleton, if_neg (by simpa using hc)]
        rfl
      have hfront := ih (Nat.le_of_succ_le ho)
      rw [hline, List.take_add_one, hget, Option.toList_some,
        List.rtakeWhile_concat_pos _ _ _ (by simpa using hc), List.length_append,
        List.length_singleton]
      omega

/-- What stands on the line of an offset in front of it is what follows the last line feed. -/
theorem slice_lineStart {o : Nat} (ho : o ≤ src.size) :
    src.slice (src.lineStart (src.lineOf o)) o = (src.toList.take o).rtakeWhile (· ≠ '\n') := by
  have hlast := src.lineStart_lineOf_add ho
  have hsuffix := List.rtakeWhile_suffix (· ≠ '\n') (src.toList.take o)
  rw [List.suffix_iff_eq_drop] at hsuffix
  rw [List.length_take_of_le (by rwa [length_toList])] at hsuffix
  rw [hsuffix, slice, Array.toList_extract, List.extract_eq_take_drop, List.take_drop, ← toList]
  congr 2 <;> omega

/-- **The position of an offset is that behind the text in front of it.** -/
theorem position_eq {o : Nat} (ho : o ≤ src.size) :
    src.position o = positionBehind (src.toList.take o) := by
  have hline := src.lineStart_lineOf_add ho
  have hcharacter : (o : Int) - src.lineStart (src.lineOf o) =
      ((src.toList.take o).rtakeWhile (· ≠ '\n')).length := by omega
  unfold position positionBehind
  rw [src.clamp_of_le ho, ← lineOf_eq_count, ← hcharacter]

end Source

end PackLint
