import PackLint.Proofs.SkillLine.Hidden
import PackLint.SkillLine.Mechanic

/-!
# The units of a skill line

Escaping treats a closed block as one unit and every other character by itself; from the first brace
on that is never closed, nothing is a block any more. The escaped line is cut at the spaces that are
units, so its parts are the runs of units between them.

Results:
* `SkillLine.units_induction`: a line is empty, or starts with one of three kinds of units.
* `SkillLine.escape_eq_units`: a line is escaped unit by unit.
* `Mechanic.texts_parts`: the parts of an escaped line are the runs of the line.
-/

namespace PackLint

namespace SkillLine

/-! ## Blocks -/

/-- The text is a block that its last character closes. -/
structure IsBlock (block : List Char) : Prop where
  opens : block.head? = some '{'
  closes : blockLength? block = some block.length

variable {block rest cs : List Char} {depth n : Nat} {quote : Option Char}

/-- A character closes the block, or the search goes on behind it. -/
theorem blockLengthFrom_cons (depth : Nat) (quote : Option Char) (c : Char) :
    (∀ cs, blockLengthFrom depth quote (c :: cs) = some 1) ∨
      ∃ depth', ∀ cs, blockLengthFrom depth quote (c :: cs) =
        (blockLengthFrom depth' (quoteAfter quote c) cs).map (· + 1) := by
  by_cases hopen : quote.isNone && c = '{'
  · refine .inr ⟨depth + 1, fun cs => ?_⟩
    simp only [blockLengthFrom, hopen, if_true]
  · by_cases hclose : quote.isNone && c = '}'
    · by_cases hlast : depth ≤ 1
      · refine .inl fun cs => ?_
        simp only [blockLengthFrom, hopen, hclose, hlast, if_true, if_false, Bool.false_eq_true]
      · refine .inr ⟨depth - 1, fun cs => ?_⟩
        simp only [blockLengthFrom, hopen, hclose, hlast, if_true, if_false, Bool.false_eq_true]
    · refine .inr ⟨depth, fun cs => ?_⟩
      simp only [blockLengthFrom, hopen, hclose, if_false, Bool.false_eq_true]

/-- A block is closed by its own characters, whatever stands behind it. -/
theorem blockLengthFrom_append (h : blockLengthFrom depth quote cs = some n) (rest : List Char) :
    blockLengthFrom depth quote (cs ++ rest) = some n := by
  induction cs generalizing depth quote n with
  | nil => cases h
  | cons c cs ih =>
    rw [List.cons_append]
    rcases blockLengthFrom_cons depth quote c with hone | ⟨depth', hstep⟩
    · rw [hone] at h ⊢
      exact h
    · rw [hstep] at h ⊢
      obtain ⟨k, hk, rfl⟩ := Option.map_eq_some_iff.mp h
      rw [ih hk, Option.map_some]

/-- A closed block lies in the text, and is closed without what stands behind it. -/
theorem blockLengthFrom_take (h : blockLengthFrom depth quote cs = some n) :
    0 < n ∧ n ≤ cs.length ∧ blockLengthFrom depth quote (cs.take n) = some n := by
  induction cs generalizing depth quote n with
  | nil => cases h
  | cons c cs ih =>
    rcases blockLengthFrom_cons depth quote c with hone | ⟨depth', hstep⟩
    · rw [hone] at h
      cases h
      exact ⟨Nat.one_pos, Nat.succ_le_succ (Nat.zero_le _), hone _⟩
    · rw [hstep] at h
      obtain ⟨k, hk, rfl⟩ := Option.map_eq_some_iff.mp h
      obtain ⟨-, hle, htake⟩ := ih hk
      refine ⟨Nat.succ_pos k, Nat.succ_le_succ hle, ?_⟩
      rw [List.take_succ_cons, hstep, htake, Option.map_some]

theorem isBlock_take (hopen : cs.head? = some '{') (h : blockLength? cs = some n) :
    IsBlock (cs.take n) ∧ n = (cs.take n).length := by
  obtain ⟨hpos, hle, htake⟩ := blockLengthFrom_take h
  have hlength : n = (cs.take n).length := (List.length_take_of_le hle).symm
  refine ⟨⟨?_, ?_⟩, hlength⟩
  · rw [List.head?_take, if_neg (by omega)]
    exact hopen
  · rw [← hlength]
    exact htake

/-- A block has its braces, so it is no single character. -/
theorem IsBlock.two_le_length (h : IsBlock block) : 2 ≤ block.length := by
  obtain ⟨hopen, hclosed⟩ := h
  match block with
  | [] => cases hopen
  | [c] =>
    cases hopen
    cases hclosed
  | _ :: _ :: _ => exact Nat.succ_le_succ (Nat.succ_le_succ (Nat.zero_le _))

/-! ## Units -/

/-- The units of a line, of which `skip` characters belong to the unit in front; if the line is
`lost`, it goes on behind a brace that is never closed. -/
def unitsFrom (lost : Bool) (skip : Nat) : List Char → List (List Char)
  | [] => []
  | c :: cs =>
    match skip with
    | n + 1 => unitsFrom lost n cs
    | 0 =>
      if lost || c ≠ '{' then [c] :: unitsFrom lost 0 cs
      else
        match blockLength? (c :: cs) with
        | some n => (c :: cs).take n :: unitsFrom false (n - 1) cs
        | none => [c] :: unitsFrom true 0 cs

/-- The closed blocks of a line, and each other character of it. -/
def units (line : List Char) : List (List Char) := unitsFrom false 0 line

theorem unitsFrom_skip (lost : Bool) (skip : Nat) (cs : List Char) :
    unitsFrom lost skip cs = unitsFrom lost 0 (cs.drop skip) := by
  induction cs generalizing skip with
  | nil =>
    rw [List.drop_nil]
    rfl
  | cons c cs ih =>
    cases skip with
    | zero => rfl
    | succ skip => exact ih skip

theorem units_char {c : Char} (hc : c ≠ '{') (cs : List Char) :
    units (c :: cs) = [c] :: units cs := by
  have hchar : (false || decide (c ≠ '{')) = true := by simpa using hc
  rw [units, unitsFrom]
  simp only [hchar, if_true]
  rfl

theorem units_block (h : IsBlock block) (rest : List Char) :
    units (block ++ rest) = block :: units rest := by
  have hlength := h.two_le_length
  obtain ⟨hopen, hclosed⟩ := h
  cases block with
  | nil => cases hopen
  | cons c cs =>
    cases hopen
    have hwhole := blockLengthFrom_append hclosed rest
    rw [units, List.cons_append, unitsFrom]
    simp only [blockLength?]
    rw [List.cons_append] at hwhole
    rw [hwhole]
    simp only [ne_eq, not_true_eq_false, decide_false, Bool.or_self, Bool.false_eq_true, if_false]
    rw [unitsFrom_skip, ← List.cons_append, List.take_left, List.length_cons, Nat.add_sub_cancel,
      List.drop_left, units]

theorem unitsFrom_lost (cs : List Char) : unitsFrom true 0 cs = cs.map ([·]) := by
  induction cs with
  | nil => rfl
  | cons c cs ih =>
    rw [unitsFrom]
    simp only [Bool.true_or, if_true]
    rw [ih, List.map_cons]

theorem units_unclosed (h : blockLength? ('{' :: cs) = none) :
    units ('{' :: cs) = ('{' :: cs).map ([·]) := by
  rw [units, unitsFrom]
  simp only [h, ne_eq, not_true_eq_false, decide_false, Bool.or_self, Bool.false_eq_true, if_false]
  rw [unitsFrom_lost, List.map_cons]

/-- A line is empty, or starts with a character, with a closed block, or with a brace that is never
closed. -/
@[elab_as_elim]
theorem units_induction {P : List Char → Prop} (line : List Char) (nil : P [])
    (char : ∀ c cs, c ≠ '{' → P cs → P (c :: cs))
    (block : ∀ block rest, IsBlock block → P rest → P (block ++ rest))
    (unclosed : ∀ cs, blockLength? ('{' :: cs) = none → P ('{' :: cs)) : P line := by
  induction h : line.length using Nat.strongRecOn generalizing line with
  | ind n ih =>
    subst h
    cases line with
    | nil => exact nil
    | cons c cs =>
      by_cases hc : c = '{'
      · subst hc
        cases hlength : blockLength? ('{' :: cs) with
        | none => exact unclosed cs hlength
        | some n =>
          obtain ⟨hblock, -⟩ := isBlock_take rfl hlength
          obtain ⟨hpos, hle, -⟩ := blockLengthFrom_take hlength
          rw [← List.take_append_drop n ('{' :: cs)]
          refine block _ _ hblock (ih _ ?_ _ rfl)
          rw [List.length_drop]
          omega
      · exact char c cs hc (ih cs.length (Nat.lt_succ_self _) cs rfl)

/-- A unit is a single character or a closed block. -/
theorem of_mem_units {line u : List Char} (h : u ∈ units line) : (∃ c, u = [c]) ∨ IsBlock u := by
  induction line using units_induction with
  | nil => cases h
  | char c cs hc ih =>
    rw [units_char hc] at h
    rcases List.mem_cons.mp h with rfl | h
    · exact .inl ⟨c, rfl⟩
    · exact ih h
  | block block rest hblock ih =>
    rw [units_block hblock] at h
    rcases List.mem_cons.mp h with rfl | h
    · exact .inr hblock
    · exact ih h
  | unclosed cs hnone =>
    rw [units_unclosed hnone] at h
    obtain ⟨c, -, rfl⟩ := List.mem_map.mp h
    exact .inl ⟨c, rfl⟩

/-! ## Escaping -/

/-- What a unit is escaped to: a character to itself, a block as a whole. -/
def shownUnit (u : List Char) : List Char :=
  if u.length = 1 then u else hideFrom none u

theorem shownUnit_char (c : Char) : shownUnit [c] = [c] := rfl

theorem shownUnit_block (h : IsBlock block) : shownUnit block = hideFrom none block := by
  have hlength := h.two_le_length
  exact if_neg (by omega)

theorem piecesFrom_char {c : Char} (hc : c ≠ '{') (cs : List Char) :
    piecesFrom .outside (c :: cs) = [c] :: piecesFrom .outside cs := by
  have hhead : ¬ (c :: cs).head? = some '{' := by
    rw [List.head?_cons, Option.some_inj]
    exact hc
  rw [piecesFrom, Place.settle, if_neg hhead]
  · rintro _ _ ⟨⟩
  · rintro ⟨⟩

theorem piecesFrom_inside_zero (quote : Option Char) (cs : List Char) :
    piecesFrom (.inside 0 quote) cs = piecesFrom .outside cs := by
  cases cs <;> rfl

/-- The rest of a block is hidden, and the line goes on outside. -/
theorem flatten_piecesFrom_append (quote : Option Char) (cs rest : List Char) :
    (piecesFrom (.inside cs.length quote) (cs ++ rest)).flatten =
      hideFrom quote cs ++ (piecesFrom .outside rest).flatten := by
  induction cs generalizing quote with
  | nil =>
    rw [List.length_nil, List.nil_append, piecesFrom_inside_zero]
    rfl
  | cons c cs ih =>
    rw [List.length_cons, List.cons_append, piecesFrom, Place.settle, List.flatten_cons, ih,
      hideFrom, List.append_assoc]

theorem flatten_piecesFrom_block (h : IsBlock block) (rest : List Char) :
    (piecesFrom .outside (block ++ rest)).flatten =
      hideFrom none block ++ (piecesFrom .outside rest).flatten := by
  have hwhole := blockLengthFrom_append h.closes rest
  obtain ⟨hopen, hclosed⟩ := h
  cases block with
  | nil => cases hopen
  | cons c cs =>
    cases hopen
    have hsettle : Place.outside.settle ('{' :: cs ++ rest) =
        .inside ('{' :: cs).length none := by
      have hlength : blockLength? ('{' :: cs ++ rest) = some ('{' :: cs).length := hwhole
      have hhead : ('{' :: cs ++ rest).head? = some '{' := rfl
      rw [Place.settle, if_pos hhead, hlength]
      · rintro _ _ ⟨⟩
      · rintro ⟨⟩
    rw [← flatten_piecesFrom_append, List.cons_append, piecesFrom, piecesFrom]
    rw [List.cons_append] at hsettle
    rw [hsettle]
    rfl

theorem flatten_piecesFrom_unclosed (cs : List Char) :
    (piecesFrom .unclosed cs).flatten = cs := by
  induction cs with
  | nil => rfl
  | cons c cs ih => exact congrArg (c :: ·) ih

/-- **A line is escaped unit by unit.** -/
theorem escape_eq_units (line : List Char) : escape line = (units line).flatMap shownUnit := by
  unfold escape pieces
  induction line using units_induction with
  | nil => rfl
  | char c cs hc ih =>
    rw [piecesFrom_char hc, units_char hc, List.flatten_cons, ih, List.flatMap_cons,
      shownUnit_char]
  | block block rest hblock ih =>
    rw [flatten_piecesFrom_block hblock, units_block hblock, ih, List.flatMap_cons,
      shownUnit_block hblock]
  | unclosed cs hnone =>
    have hsettle : Place.outside.settle ('{' :: cs) = .unclosed := by
      have hhead : ('{' :: cs).head? = some '{' := rfl
      rw [Place.settle, if_pos hhead, hnone]
      · rintro _ _ ⟨⟩
      · rintro ⟨⟩
    have hshown : ∀ ds : List Char, (ds.map ([·])).flatMap shownUnit = ds := by
      intro ds
      induction ds with
      | nil => rfl
      | cons d ds ih =>
        rw [List.map_cons, List.flatMap_cons, ih]
        rfl
    rw [piecesFrom, hsettle, units_unclosed hnone, hshown]
    simp only [List.flatten_cons, flatten_piecesFrom_unclosed, List.singleton_append]

/-- In a block no space stays. -/
theorem space_not_mem_hide (hquote : ∀ q ∈ quote, isQuote q) (c : Char) : ' ' ∉ hide quote c := by
  intro h
  have houter : Outer ' ' := by decide
  rcases hidesAs_hide quote c with hkept | hs
  · rw [hkept, List.mem_singleton] at h
    subst h
    cases quote with
    | none => exact absurd hkept (by decide)
    | some q =>
      have hq : ' ' ≠ q := by
        rintro rfl
        exact absurd (hquote ' ' rfl) (by decide)
      rw [hide, if_neg hq] at hkept
      exact absurd hkept (by decide)
  · exact houter _ hs h

theorem space_not_mem_hideFrom (hquote : ∀ q ∈ quote, isQuote q) (cs : List Char) :
    ' ' ∉ hideFrom quote cs := by
  induction cs generalizing quote with
  | nil => exact List.not_mem_nil
  | cons c cs ih =>
    rw [hideFrom, List.mem_append, not_or]
    exact ⟨space_not_mem_hide hquote c, ih (isQuote_of_quoteAfter hquote c)⟩

/-- Only a space by itself is shown as a space. -/
theorem space_not_mem_shownUnit {line u : List Char} (h : u ∈ units line) (hu : u ≠ [' ']) :
    ' ' ∉ shownUnit u := by
  rcases of_mem_units h with ⟨c, rfl⟩ | hblock
  · rw [shownUnit_char, List.mem_singleton]
    rintro rfl
    exact hu rfl
  · rw [shownUnit_block hblock]
    exact space_not_mem_hideFrom none_quotes u

/-- A block is shown with its opening brace in front. -/
theorem head?_shownUnit_block (h : IsBlock block) : (shownUnit block).head? = some '{' := by
  rw [shownUnit_block h]
  obtain ⟨hopen, -⟩ := h
  cases block with
  | nil => cases hopen
  | cons c cs =>
    cases hopen
    rw [hideFrom, hide_mark (by decide)]
    rfl

theorem shownUnit_ne_nil {line u : List Char} (h : u ∈ units line) : shownUnit u ≠ [] := by
  rcases of_mem_units h with ⟨c, rfl⟩ | hblock
  · exact List.cons_ne_nil c []
  · intro hnil
    have hhead := head?_shownUnit_block hblock
    rw [hnil] at hhead
    cases hhead

/-! ## Runs -/

/-- A text that is put together from pieces is cut at the pieces that are the separator, if no other
piece has the separator in it. -/
theorem splitOn_flatMap {α β : Type} [BEq α] [LawfulBEq α] [BEq β] [LawfulBEq β] {f : α → List β}
    {sep : α} {b : β} (hsep : f sep = [b]) {as : List α} (has : ∀ a ∈ as, a ≠ sep → b ∉ f a) :
    (as.flatMap f).splitOn b = (as.splitOn sep).map (·.flatMap f) := by
  suffices h : ∀ front : List α, sep ∉ front → (∀ a ∈ front, b ∉ f a) →
      ((front ++ as).flatMap f).splitOn b = ((front ++ as).splitOn sep).map (·.flatMap f) from
    h [] List.not_mem_nil (fun _ h => nomatch h)
  induction as with
  | nil =>
    intro front hfront hfree
    have hflat : b ∉ front.flatMap f := by
      rw [List.mem_flatMap]
      rintro ⟨a, ha, hb⟩
      exact hfree a ha hb
    rw [List.append_nil, List.splitOn_eq_singleton hfront, List.splitOn_eq_singleton hflat]
    rfl
  | cons a as ih =>
    obtain ⟨ha, has⟩ := List.forall_mem_cons.mp has
    intro front hfront hfree
    by_cases hcut : a = sep
    · have hflat : b ∉ front.flatMap f := by
        rw [List.mem_flatMap]
        rintro ⟨a, ha, hb⟩
        exact hfree a ha hb
      have hrest := ih has [] List.not_mem_nil (fun _ h => nomatch h)
      rw [List.nil_append] at hrest
      rw [hcut, List.splitOn_append_cons_self_of_not_mem hfront, List.flatMap_append,
        List.flatMap_cons, hsep, List.singleton_append,
        List.splitOn_append_cons_self_of_not_mem hflat, hrest, List.map_cons]
    · have hnext := ih has (front ++ [a])
      rw [List.append_assoc, List.singleton_append] at hnext
      refine hnext ?_ ?_
      · rw [List.mem_append, List.mem_singleton, not_or]
        exact ⟨hfront, Ne.symm hcut⟩
      · exact List.forall_mem_append.mpr ⟨hfree, List.forall_mem_singleton.mpr (ha hcut)⟩

/-- What is cut out of a list consists of members of the list. -/
theorem mem_of_mem_splitOn {α : Type} [BEq α] [LawfulBEq α] {sep a : α} {as run : List α}
    (hrun : run ∈ as.splitOn sep) (ha : a ∈ run) : a ∈ as := by
  induction as generalizing run with
  | nil =>
    rw [List.splitOn_nil, List.mem_singleton] at hrun
    rw [hrun] at ha
    cases ha
  | cons x as ih =>
    rw [List.splitOn_cons_eq_if_modifyHead] at hrun
    split at hrun
    · rcases List.mem_cons.mp hrun with rfl | hrun
      · cases ha
      · exact List.mem_cons_of_mem x (ih hrun ha)
    · obtain ⟨first, others, hsplit⟩ := List.exists_cons_of_ne_nil (List.splitOn_ne_nil sep as)
      rw [hsplit] at ih
      rw [hsplit, List.modifyHead_cons] at hrun
      rcases List.mem_cons.mp hrun with rfl | hrun
      · rcases List.mem_cons.mp ha with rfl | ha
        · exact List.mem_cons_self
        · exact List.mem_cons_of_mem x (ih List.mem_cons_self ha)
      · exact List.mem_cons_of_mem x (ih (List.mem_cons_of_mem first hrun) ha)

/-- The runs of units between the spaces of a line. -/
def runs (line : List Char) : List (List (List Char)) :=
  ((units line).splitOn [' ']).filter (· ≠ [])

theorem mem_units_of_mem_runs {line u : List Char} {run : List (List Char)}
    (hrun : run ∈ runs line) (hu : u ∈ run) : u ∈ units line :=
  mem_of_mem_splitOn (List.mem_filter.mp hrun).1 hu

end SkillLine

namespace Mechanic

open SkillLine

theorem texts_partsFrom (i : Nat) {run : List Char} (hrun : ' ' ∉ run) (cs : List Char) :
    (partsFrom i run cs).map (·.text) =
      ((run.reverse ++ cs).splitOn ' ').filter (· ≠ []) := by
  have hreverse : ∀ {run : List Char}, ' ' ∉ run → ' ' ∉ run.reverse := fun h =>
    mt List.mem_reverse.mp h
  induction cs generalizing i run with
  | nil =>
    rw [List.append_nil, List.splitOn_eq_singleton (hreverse hrun), partsFrom]
    cases run with
    | nil => rfl
    | cons x run => simp
  | cons c cs ih =>
    rw [partsFrom]
    by_cases hc : c = ' '
    · rw [if_pos hc, hc, List.splitOn_append_cons_self_of_not_mem (hreverse hrun)]
      have hrest := ih (i + 1) List.not_mem_nil
      rw [List.reverse_nil, List.nil_append] at hrest
      cases run with
      | nil =>
        rw [List.filter_cons_of_neg (by simp)]
        exact hrest
      | cons x run =>
        rw [List.filter_cons_of_pos (by simp), ← hrest]
        rfl
    · have hnext := ih (i + 1) (List.not_mem_cons_of_ne_of_not_mem (Ne.symm hc) hrun)
      rw [if_neg hc, hnext, List.reverse_cons, List.append_assoc, List.singleton_append]

/-- **The parts of an escaped line are the runs of the line**, each escaped unit by unit. -/
theorem texts_parts (line : List Char) :
    (parts (escape line)).map (·.text) = (runs line).map (·.flatMap shownUnit) := by
  have htexts := texts_partsFrom 0 List.not_mem_nil (escape line)
  have hsplit : ((units line).flatMap shownUnit).splitOn ' ' =
      ((units line).splitOn [' ']).map (·.flatMap shownUnit) :=
    splitOn_flatMap (f := shownUnit) rfl fun _ hu => space_not_mem_shownUnit hu
  rw [List.reverse_nil, List.nil_append, escape_eq_units, hsplit, List.filter_map] at htexts
  have hempty : ∀ run ∈ (units line).splitOn [' '],
      ((fun text => decide (text ≠ [])) ∘ fun run => run.flatMap shownUnit) run =
        decide (run ≠ []) := by
    intro run hrun
    refine decide_eq_decide.mpr (not_congr ?_)
    rw [List.flatMap_eq_nil_iff]
    constructor
    · intro h
      refine List.eq_nil_iff_forall_not_mem.mpr fun u hu => ?_
      exact shownUnit_ne_nil (mem_of_mem_splitOn hrun hu) (h u hu)
    · rintro rfl
      exact List.forall_mem_nil _
  rw [List.filter_congr hempty] at htexts
  rw [parts, escape_eq_units, htexts, runs]

end Mechanic

end PackLint
