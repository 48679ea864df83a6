import Mathlib.Data.List.GetD
import PackLint.Proofs.Metadata.Block
import PackLint.Schema.Registration
import PackLint.Tree.Load

/-!
# Comments above a key

The comment above a key (`_comment_before`) is found by looking at the first character of each line
above it that is not blank: the longest run of lines that start with the mark of a comment is taken.
Such a line may be a comment, but it may be metadata or a line of a scalar as well, which only the
tokens of the text tell, and these are not looked at.

Results:
* `Source.slice_line`: the characters between the start and the end of a line are the line.
* `linesOf_joinWith`: lines that are joined are found again.
* `documentationText_joinWith`: a comment of marked lines is documented by all of them.
* `Source.commentLines_eq`: the lines that are looked for are the longest run of marked lines.
* `Source.IsMarked.isComment_or`: what a marked line may be, besides a comment.
* `Registration.pairDocumentation_eq`: what a pair documents, by the marked lines above its key.
-/

namespace PackLint

/-! ## Trimmed texts -/

theorem trim_eq_nil_iff {cs : List Char} : trim cs = [] ↔ ∀ c ∈ cs, isBlank c := by
  have hend : trim cs = (cs.dropWhile isBlank).rdropWhile isBlank := rfl
  rw [hend, List.rdropWhile_eq_nil_iff]
  constructor
  · intro h c hc
    rw [← List.takeWhile_append_dropWhile (p := isBlank) (l := cs)] at hc
    rcases List.mem_append.mp hc with hc | hc
    · exact List.mem_takeWhile_imp hc
    · exact h c hc
  · exact fun h c hc => h c ((List.dropWhile_suffix isBlank).subset hc)

theorem trim_prefix_trimStart (cs : List Char) : trim cs <+: trimStart cs :=
  List.rdropWhile_prefix isBlank _

theorem trim_subset (cs : List Char) : trim cs ⊆ cs :=
  fun _ hc => (List.dropWhile_suffix isBlank).subset ((trim_prefix_trimStart cs).subset hc)

@[simp]
theorem trim_trim (cs : List Char) : trim (trim cs) = trim cs := by
  have hstart : trimStart (trim cs) = trim cs := by
    cases htrim : trim cs with
    | nil => rfl
    | cons c rest =>
      obtain ⟨behind, hbehind⟩ := trim_prefix_trimStart cs
      have hfirst := List.head?_dropWhile_not isBlank cs
      rw [← trimStart, ← hbehind, htrim] at hfirst
      exact List.dropWhile_cons_of_neg (Bool.eq_false_iff.mp hfirst)
  have htwice : trim (trim cs) = (trimStart (trim cs)).rdropWhile isBlank := rfl
  rw [htwice, hstart]
  exact List.rdropWhile_idempotent isBlank _

/-! ## Lines that are joined -/

theorem linesOf_joinWith {lines : List (List Char)} (hne : lines ≠ [])
    (h : ∀ line ∈ lines, '\n' ∉ line) : linesOf (joinWith '\n' lines) = lines :=
  cutAt_joinWith hne h

/-! ## The documentation of marked lines -/

theorem foldl_addCommentLine {lines run : List (List Char)}
    (h : ∀ line ∈ lines, trim line = line ∧ line.head? = some '#') :
    lines.foldl addCommentLine run = run ++ lines.map commentText := by
  induction lines generalizing run with
  | nil => rw [List.foldl_nil, List.map_nil, List.append_nil]
  | cons line lines ih =>
    obtain ⟨⟨htrim, hmark⟩, hlines⟩ := List.forall_mem_cons.mp h
    have hstep : addCommentLine run line = run ++ [commentText line] := by
      unfold addCommentLine
      simp only
      rw [htrim, if_pos hmark]
    rw [List.foldl_cons, hstep, ih hlines, List.map_cons, List.append_assoc, List.singleton_append]

/-- **A comment of marked lines is documented by all of them.** -/
theorem documentationText_joinWith {lines : List (List Char)} (hne : lines ≠ [])
    (hfeed : ∀ line ∈ lines, '\n' ∉ line)
    (hmarked : ∀ line ∈ lines, trim line = line ∧ line.head? = some '#') :
    documentationText (String.ofList (joinWith '\n' lines)) =
      String.ofList (joinWith '\n' (lines.map commentText)) := by
  unfold documentationText
  rw [String.toList_ofList, linesOf_joinWith hne hfeed, foldl_addCommentLine hmarked,
    List.nil_append]

/-! ## Runs of lines -/

/-- The longest run of lines with a property that ends right above line `line` starts at line
`first`. -/
structure RunAbove (P : Nat → Prop) (line first : Nat) : Prop where
  le : first ≤ line
  all : ∀ l, first ≤ l → l < line → P l
  longest : ∀ l, first = l + 1 → ¬ P l

namespace RunAbove

variable {P Q : Nat → Prop} {line first : Nat}

theorem zero : RunAbove P 0 0 where
  le := Nat.le_refl 0
  all l _ h := absurd h (Nat.not_lt_zero l)
  longest _ h := nomatch h

theorem of_not (h : ¬ P line) : RunAbove P (line + 1) (line + 1) where
  le := Nat.le_refl _
  all l hfirst hlast := absurd hlast (Nat.not_lt_of_le hfirst)
  longest l hl := by
    cases hl
    exact h

theorem succ (hrun : RunAbove P line first) (h : P line) : RunAbove P (line + 1) first where
  le := Nat.le_succ_of_le hrun.le
  all l hfirst hlast := by
    rcases Nat.lt_succ_iff_lt_or_eq.mp hlast with hlt | rfl
    · exact hrun.all l hfirst hlt
    · exact h
  longest := hrun.longest

end RunAbove

namespace Source

variable (src : Source)

/-! ## Lines of a source -/

/-- **The characters between the start and the end of a line are the line.** -/
theorem slice_line {line : Nat} (hline : line < src.lines.length) :
    src.slice (src.lineStart line) (src.lineEnd line) = src.lines[line] := by
  have hfront : src.lineStart line = (endedLines (src.lines.take line)).length :=
    lineStart_eq_frontLength hline
  have hend := lineEnd_eq hline
  have hcut : src.toList ++ ['\n'] = endedLines (src.lines.take line) ++ src.lines[line] ++
      '\n' :: endedLines (src.lines.drop (line + 1)) := by
    rw [List.append_assoc, ← endedLines_linesOf, ← endedLines_cons, List.getElem_cons_drop,
      ← endedLines_append, List.take_append_drop, lines]
  -- the line feed behind the last line is not in the text
  have hle : (endedLines (src.lines.take line) ++ src.lines[line]).length ≤ src.toList.length := by
    rw [List.length_append, ← hfront, ← hend, src.length_toList]
    exact src.lineEnd_le_size line
  obtain ⟨behind, hbehind⟩ :=
    List.prefix_of_prefix_length_le ⟨_, hcut.symm⟩ (List.prefix_append _ _) hle
  rw [hend, hfront]
  exact slice_eq_of_append hbehind.symm

/-- A line without the blanks at its ends; no text for a line that is not there. -/
def trimmedLine (line : Nat) : List Char := trim (src.lines.getD line [])

theorem feed_not_mem_trimmedLine (line : Nat) : '\n' ∉ src.trimmedLine line := by
  intro h
  have hmem := trim_subset _ h
  rw [List.getD_eq_getElem?_getD] at hmem
  cases hline : src.lines[line]? with
  | none =>
    rw [hline] at hmem
    cases hmem
  | some text =>
    rw [hline] at hmem
    exact not_mem_of_mem_cutAt (List.mem_of_getElem? hline) hmem

/-- A line is marked if its first character that is not blank is the mark of a comment. -/
def IsMarked (line : Nat) : Prop := (src.trimmedLine line).head? = some '#'

instance : DecidablePred src.IsMarked := fun _ => inferInstanceAs (Decidable (_ = _))

/-- **The lines that are looked for are the longest run of marked lines.** -/
theorem commentLines_eq {line : Nat} (hline : line ≤ src.lines.length) :
    ∃ first, RunAbove src.IsMarked line first ∧
      src.commentLines line = ((List.range' first (line - first)).map src.trimmedLine).reverse := by
  induction line with
  | zero => exact ⟨0, .zero, rfl⟩
  | succ line ih =>
    have htext : trim (src.slice (src.lineStart line) (src.lineEnd line)) =
        src.trimmedLine line := by
      rw [src.slice_line hline, trimmedLine, List.getD_eq_getElem _ _ hline]
    rw [commentLines, htext]
    split
    · rename_i hmark
      obtain ⟨first, hrun, hlines⟩ := ih (Nat.le_of_succ_le hline)
      refine ⟨first, hrun.succ hmark, ?_⟩
      have hlast : first + (line - first) = line := Nat.add_sub_cancel' hrun.le
      rw [Nat.succ_sub hrun.le, List.range'_1_concat, hlast, List.map_append, List.map_singleton,
        List.reverse_append, List.reverse_singleton, List.singleton_append, hlines]
    · rename_i hmark
      exact ⟨line + 1, .of_not hmark, by rw [Nat.sub_self]; rfl⟩

/-! ## Comment lines -/

/-- The rest of a line from its first character that is neither blank nor a byte order mark. -/
def content (line : Nat) : List Char :=
  (src.lines.getD line []).dropWhile fun c => isBlank c || c = '\uFEFF'

/-- Where the content of a line starts. -/
def contentStart (line : Nat) : Nat :=
  src.lineStart line +
    ((src.lines.getD line []).takeWhile fun c => isBlank c || c = '\uFEFF').length

/-- A line with nothing but a comment on it. -/
structure IsComment (line : Nat) : Prop where
  behind_metadata : metadataLineCount src.toList ≤ line
  mark : (src.content line).head? = some '#'
  outside_tokens : ∀ t ∈ (Yaml.Token.stream src.toList).tokens,
    src.contentStart line < t.start.index ∨ t.stop.index ≤ src.contentStart line
  /-- The comment goes on up to the end of the line. -/
  unbroken : ∀ c ∈ trimEnd (src.content line), ¬ Yaml.isLineEnd c

/-- What may be dropped with more may be dropped before that. -/
theorem dropWhile_dropWhile_or {α : Type} (p q : α → Bool) (l : List α) :
    (l.dropWhile p).dropWhile (fun a => p a || q a) = l.dropWhile fun a => p a || q a := by
  induction l with
  | nil => rfl
  | cons a l ih =>
    by_cases hp : p a
    · rw [List.dropWhile_cons_of_pos hp, ih, List.dropWhile_cons_of_pos (by simp [hp])]
    · rw [List.dropWhile_cons_of_neg hp]

/-- The content of a marked line starts with the mark. -/
theorem IsMarked.head?_content {line : Nat} (h : src.IsMarked line) :
    (src.content line).head? = some '#' := by
  obtain ⟨behind, hbehind⟩ := trim_prefix_trimStart (src.lines.getD line [])
  unfold IsMarked trimmedLine at h
  obtain ⟨rest, hrest⟩ : ∃ rest, trim (src.lines.getD line []) = '#' :: rest := by
    cases htrim : trim (src.lines.getD line []) with
    | nil => rw [htrim] at h; cases h
    | cons c rest => rw [htrim] at h; cases h; exact ⟨rest, rfl⟩
  have hstart : (src.lines.getD line []).dropWhile isBlank = '#' :: (rest ++ behind) := by
    rw [← List.cons_append, ← hrest]
    exact hbehind.symm
  unfold content
  rw [← dropWhile_dropWhile_or, hstart]
  rfl

/-- **A marked line is a comment line, a line of the metadata, a line whose mark stands in a token
such as a scalar, or one on which the comment ends** at a line end other than a line feed. -/
theorem IsMarked.isComment_or {line : Nat} (h : src.IsMarked line) :
    src.IsComment line ∨ line < metadataLineCount src.toList ∨
      (∃ t ∈ (Yaml.Token.stream src.toList).tokens,
        t.start.index ≤ src.contentStart line ∧ src.contentStart line < t.stop.index) ∨
      ∃ c ∈ trimEnd (src.content line), Yaml.isLineEnd c := by
  by_contra hnone
  simp only [not_or, not_exists, not_and, Nat.not_lt] at hnone
  obtain ⟨hcomment, hmetadata, htokens, hends⟩ := hnone
  refine hcomment ⟨hmetadata, h.head?_content, fun t ht => ?_, hends⟩
  rcases Nat.lt_or_ge (src.contentStart line) t.start.index with hlt | hle
  · exact Or.inl hlt
  · exact Or.inr (htokens t ht hle)

/-! ## The comment above an offset -/

/-- What stands in front of an offset on its line. -/
def lineFront (o : Nat) : List Char := src.slice (src.lineStart (src.lineOf o)) o

theorem lineOf_lt_length_lines (o : Nat) : src.lineOf o < src.lines.length := by
  have hcount : src.lineStarts.countP (· ≤ o) ≤ src.lineCount := Array.countP_le_size
  have hlines : 0 < src.lines.length := List.length_pos_iff.mpr (cutAt_ne_nil '\n' src.toList)
  rw [lineCount_eq_length_lines] at hcount
  rw [lineOf]
  omega

theorem commentBefore_of_not_blank {o : Nat} (hfront : ∃ c ∈ src.lineFront o, ¬ isBlank c) :
    src.commentBefore o = none := by
  refine if_neg fun hempty => ?_
  obtain ⟨c, hc, hblank⟩ := hfront
  exact hblank (trim_eq_nil_iff.mp (List.isEmpty_iff.mp hempty) c hc)

/-- **The comment above an offset that nothing but blanks stands in front of** is made of the
longest run of marked lines above. -/
theorem commentBefore_eq {o : Nat} (hfront : ∀ c ∈ src.lineFront o, isBlank c) :
    ∃ first, RunAbove src.IsMarked (src.lineOf o) first ∧
      src.commentBefore o =
        if first = src.lineOf o then none
        else some (String.ofList (joinWith '\n'
          ((List.range' first (src.lineOf o - first)).map src.trimmedLine))) := by
  obtain ⟨first, hrun, hlines⟩ := src.commentLines_eq (Nat.le_of_lt (src.lineOf_lt_length_lines o))
  refine ⟨first, hrun, (if_pos (List.isEmpty_iff.mpr (trim_eq_nil_iff.mpr hfront))).trans ?_⟩
  have hle := hrun.le
  rw [hlines]
  split
  · rename_i hnil
    rw [List.reverse_eq_nil_iff, List.map_eq_nil_iff, List.range'_eq_nil_iff] at hnil
    rw [if_pos (by omega)]
  · rename_i hne
    rw [List.reverse_reverse, if_neg fun heq => hne (by rw [heq, Nat.sub_self]; rfl)]

/-- The text of the lines from `first` up to line `line`, each without its mark and one space behind
it; none if it is empty. -/
def documentationOf (first line : Nat) : Option String :=
  let text := joinWith '\n'
    ((List.range' first (line - first)).map fun l => commentText (src.trimmedLine l))
  if text = [] then none else some (String.ofList text)

end Source

namespace Registration

variable {src : Source} {p : Pair}

theorem pairDocumentation_of_not_blank (hp : p.commentBefore = src.commentBefore p.key.start)
    (hfront : ∃ c ∈ src.lineFront p.key.start, ¬ isBlank c) : pairDocumentation p = none := by
  rw [pairDocumentation, hp, src.commentBefore_of_not_blank hfront]
  rfl

/-- **What a pair documents is the longest run of marked lines above the line of its key.** -/
theorem pairDocumentation_eq (hp : p.commentBefore = src.commentBefore p.key.start)
    (hfront : ∀ c ∈ src.lineFront p.key.start, isBlank c) :
    ∃ first, RunAbove src.IsMarked (src.lineOf p.key.start) first ∧
      pairDocumentation p = src.documentationOf first (src.lineOf p.key.start) := by
  obtain ⟨first, hrun, hcomment⟩ := src.commentBefore_eq hfront
  refine ⟨first, hrun, ?_⟩
  unfold pairDocumentation Source.documentationOf
  rw [hp, hcomment]
  have hle := hrun.le
  split
  · rename_i hnone
    rw [hnone, Nat.sub_self]
    rfl
  · rename_i hsome
    have hne : (List.range' first (src.lineOf p.key.start - first)).map src.trimmedLine ≠ [] := by
      rw [Ne, List.map_eq_nil_iff, List.range'_eq_nil_iff]
      omega
    have hmarked : ∀ text ∈
        (List.range' first (src.lineOf p.key.start - first)).map src.trimmedLine,
        '\n' ∉ text ∧ trim text = text ∧ text.head? = some '#' := by
      intro text htext
      obtain ⟨line, hline, rfl⟩ := List.mem_map.mp htext
      rw [List.mem_range'_1] at hline
      exact ⟨src.feed_not_mem_trimmedLine line, trim_trim _, hrun.all line hline.1 (by omega)⟩
    simp only [Option.bind_eq_bind, Option.bind_some]
    rw [documentationText_joinWith hne (fun text h => (hmarked text h).1)
      fun text h => (hmarked text h).2, List.map_map]
    simp only [String.ofList_eq_empty_iff]
    rfl

end Registration

end PackLint
