import PackLint.Proofs.SkillLine.Units

/-!
# Where a skill line is cut

A space of a line splits it unless it lies in a block, and the parts of the line are the longest
stretches without such a space. A block reaches from a brace to the one that matches it, braces in
quotations left aside; blocks are looked for from the left, and no more from the first brace on that
is never closed. The line is cut in its escaped form (`_split_components`), and each part, put back
and moved to its place in the line, is one of these stretches.

Results:
* `SkillLine.isBlock_iff`: a block is closed where as many braces are closed as are open.
* `SkillLine.splits_iff`: a space splits the line just if it is a unit of the line.
* `SkillLine.mem_cuts`: the stretches that are cut out are the runs between the splitting places.
* `Mechanic.parts_escape`: the parts of an escaped line are the runs of the line.
-/

namespace PackLint

namespace SkillLine

variable {block rest cs line : List Char} {quote : Option Char} {m : Nat}

/-! ## Blocks -/

/-- What a character adds to the number of open braces; in a quotation it adds nothing. -/
def braceStep (quote : Option Char) (c : Char) : Int :=
  if quote = none ∧ c = '{' then 1 else if quote = none ∧ c = '}' then -1 else 0

/-- The number of braces that a text leaves open; `quote` is open in front of it. -/
def openBraces (quote : Option Char) : List Char → Int
  | [] => 0
  | c :: cs => braceStep quote c + openBraces (quoteAfter quote c) cs

/-- The text starts with a brace that its last character is the first to close. -/
structure ClosedBlock (block : List Char) : Prop where
  opens : block.head? = some '{'
  inner : ∀ n, 0 < n → n < block.length → 0 < openBraces none (block.take n)
  closes : openBraces none block = 0

theorem blockLengthFrom_step {depth : Nat} (hdepth : 1 ≤ depth) (quote : Option Char) (c : Char)
    (cs : List Char) :
    (depth + braceStep quote c = 0 ∧ blockLengthFrom depth quote (c :: cs) = some 1) ∨
      ∃ depth' : Nat, 1 ≤ depth' ∧ (depth' : Int) = depth + braceStep quote c ∧
        blockLengthFrom depth quote (c :: cs) =
          (blockLengthFrom depth' (quoteAfter quote c) cs).map (· + 1) := by
  rw [blockLengthFrom, braceStep]
  simp only [Bool.and_eq_true, Option.isNone_iff_eq_none, decide_eq_true_eq]
  split
  · exact .inr ⟨depth + 1, by omega, by omega, rfl⟩
  · split
    · split
      · exact .inl ⟨by omega, rfl⟩
      · exact .inr ⟨depth - 1, by omega, by omega, rfl⟩
    · exact .inr ⟨depth, hdepth, by omega, rfl⟩

/-- The search for the end of a block ends with the text just if the text is the first to close what
is open. -/
theorem blockLengthFrom_eq_length {depth : Nat} (hdepth : 1 ≤ depth) :
    blockLengthFrom depth quote cs = some cs.length ↔
      (∀ n < cs.length, 0 < depth + openBraces quote (cs.take n)) ∧
        depth + openBraces quote cs = 0 := by
  induction cs generalizing depth quote with
  | nil =>
    simp only [blockLengthFrom, openBraces, reduceCtorEq, false_iff]
    omega
  | cons c cs ih =>
    have htake : ∀ n, openBraces quote ((c :: cs).take (n + 1)) =
        braceStep quote c + openBraces (quoteAfter quote c) (cs.take n) := fun n => by
      rw [List.take_succ_cons, openBraces]
    rcases blockLengthFrom_step hdepth quote c cs with ⟨hstep, hone⟩ | ⟨depth', hpos, hstep, hmore⟩
    · rw [hone, Option.some_inj, List.length_cons]
      constructor
      · intro hlength
        have hcs : cs = [] := List.eq_nil_of_length_eq_zero (Nat.succ.inj hlength).symm
        subst hcs
        rw [openBraces, openBraces, Int.add_zero]
        refine ⟨fun n hn => ?_, hstep⟩
        obtain rfl : n = 0 := by
          rw [List.length_nil] at hn
          omega
        rw [List.take_zero, openBraces]
        omega
      · rintro ⟨hinner, -⟩
        by_contra hlength
        have hopen := hinner 1 (by omega)
        rw [htake 0, List.take_zero, openBraces] at hopen
        omega
    · rw [hmore, List.length_cons]
      have hmap : (blockLengthFrom depth' (quoteAfter quote c) cs).map (· + 1) =
          some (cs.length + 1) ↔
            blockLengthFrom depth' (quoteAfter quote c) cs = some cs.length := by
        cases blockLengthFrom depth' (quoteAfter quote c) cs <;> simp
      rw [hmap, ih hpos, openBraces]
      refine and_congr ⟨fun h n hn => ?_, fun h n hn => ?_⟩ (by omega)
      · cases n with
        | zero =>
          rw [List.take_zero, openBraces]
          omega
        | succ n =>
          have hn := h n (by omega)
          rw [htake]
          omega
      · have hn := h (n + 1) (by omega)
        rw [htake] at hn
        omega

/-- **A block is closed where as many braces are closed as are open.** -/
theorem isBlock_iff : IsBlock block ↔ ClosedBlock block := by
  cases block with
  | nil => exact ⟨fun h => (nomatch h.opens), fun h => (nomatch h.opens)⟩
  | cons c cs =>
    by_cases hc : c = '{'
    · subst hc
      have hstep : ∀ text, openBraces none ('{' :: text) = 1 + openBraces none text := fun _ => rfl
      have hclosed : blockLength? ('{' :: cs) = some ('{' :: cs).length ↔
          blockLengthFrom 1 none cs = some cs.length := by
        change (blockLengthFrom 1 none cs).map (· + 1) = some (cs.length + 1) ↔ _
        cases blockLengthFrom 1 none cs <;> simp
      constructor
      · intro h
        obtain ⟨hinner, hwhole⟩ := (blockLengthFrom_eq_length (Nat.le_refl 1)).mp
          (hclosed.mp h.closes)
        refine ⟨rfl, fun n hpos hn => ?_, (hstep cs).trans hwhole⟩
        obtain ⟨n, rfl⟩ := Nat.exists_eq_succ_of_ne_zero (Nat.ne_of_gt hpos)
        rw [List.take_succ_cons, hstep]
        exact hinner n (Nat.lt_of_succ_lt_succ hn)
      · intro h
        refine ⟨rfl, hclosed.mpr ((blockLengthFrom_eq_length (Nat.le_refl 1)).mpr
          ⟨fun n hn => ?_, (hstep cs).symm.trans h.closes⟩)⟩
        have hinner := h.inner (n + 1) (Nat.succ_pos n) (Nat.succ_lt_succ hn)
        rwa [List.take_succ_cons, hstep] at hinner
    · have hhead : (c :: cs).head? ≠ some '{' := by
        rw [List.head?_cons, Ne, Option.some_inj]
        exact hc
      exact ⟨fun h => absurd h.opens hhead, fun h => absurd h.opens hhead⟩

/-- Blocks at the start of one line are the same. -/
theorem IsBlock.eq_of_append {block' rest' : List Char} (h : IsBlock block) (h' : IsBlock block')
    (heq : block ++ rest = block' ++ rest') : block = block' ∧ rest = rest' := by
  have hlength := blockLengthFrom_append h.closes rest
  rw [heq, blockLengthFrom_append h'.closes rest'] at hlength
  exact List.append_inj heq (Option.some.inj hlength).symm

/-! ## Splitting spaces -/

/-- The place lies in a block of the line. Blocks are looked for from the left, and the search does
not go past a brace that is never closed. -/
inductive InBlock : List Char → Nat → Prop
  | here {block rest : List Char} {m : Nat} (h : ClosedBlock block) (hm : m < block.length) :
      InBlock (block ++ rest) m
  | behind {block rest : List Char} {m : Nat} (h : ClosedBlock block) (hm : InBlock rest m) :
      InBlock (block ++ rest) (block.length + m)
  | char {c : Char} {cs : List Char} {m : Nat} (h : c ≠ '{') (hm : InBlock cs m) :
      InBlock (c :: cs) (m + 1)

/-- A space stands at the place and lies in no block. -/
def Splits (cs : List Char) (m : Nat) : Prop :=
  cs[m]? = some ' ' ∧ ¬ InBlock cs m

theorem inBlock_block (h : IsBlock block) :
    InBlock (block ++ rest) m ↔
      m < block.length ∨ ∃ k, m = block.length + k ∧ InBlock rest k := by
  constructor
  · intro hm
    generalize hline : block ++ rest = line at hm
    cases hm with
    | here h' hm =>
      obtain ⟨rfl, rfl⟩ := h.eq_of_append (isBlock_iff.mpr h') hline
      exact .inl hm
    | behind h' hm =>
      obtain ⟨rfl, rfl⟩ := h.eq_of_append (isBlock_iff.mpr h') hline
      exact .inr ⟨_, rfl, hm⟩
    | char hc hm =>
      obtain ⟨hopen, -⟩ := h
      cases block with
      | nil => cases hopen
      | cons d block =>
        cases hopen
        cases hline
        exact absurd rfl hc
  · rintro (hm | ⟨k, rfl, hk⟩)
    · exact .here (isBlock_iff.mp h) hm
    · exact .behind (isBlock_iff.mp h) hk

theorem inBlock_char {c : Char} (hc : c ≠ '{') :
    InBlock (c :: cs) m ↔ ∃ k, m = k + 1 ∧ InBlock cs k := by
  have hopen : ∀ {block rest : List Char}, ClosedBlock block → block ++ rest ≠ c :: cs := by
    intro block rest h heq
    obtain ⟨hopen, -, -⟩ := h
    cases block with
    | nil => cases hopen
    | cons d block =>
      cases hopen
      cases heq
      exact hc rfl
  constructor
  · intro hm
    generalize hline : c :: cs = line at hm
    cases hm with
    | here h _ => exact absurd hline.symm (hopen h)
    | behind h _ => exact absurd hline.symm (hopen h)
    | char _ hm =>
      cases hline
      exact ⟨_, rfl, hm⟩
  · rintro ⟨k, rfl, hk⟩
    exact .char hc hk

theorem not_inBlock_unclosed (h : blockLength? ('{' :: cs) = none) : ¬ InBlock ('{' :: cs) m := by
  have hblock : ∀ {block rest : List Char}, ClosedBlock block → block ++ rest ≠ '{' :: cs := by
    intro block rest hblock heq
    rw [← heq, blockLength?, blockLengthFrom_append (isBlock_iff.mpr hblock).closes] at h
    cases h
  intro hm
  generalize hline : '{' :: cs = line at hm
  cases hm with
  | here h _ => exact hblock h hline.symm
  | behind h _ => exact hblock h hline.symm
  | char hc _ =>
    cases hline
    exact hc rfl

/-- A place of a line, found among its units, belongs to a space by itself. -/
def SpaceAt : List (List Char) → Nat → Prop
  | [], _ => False
  | u :: us, m => if m < u.length then u = [' '] else SpaceAt us (m - u.length)

theorem spaceAt_singletons (cs : List Char) (m : Nat) :
    SpaceAt (cs.map ([·])) m ↔ cs[m]? = some ' ' := by
  induction cs generalizing m with
  | nil => simp [SpaceAt]
  | cons c cs ih =>
    rw [List.map_cons, SpaceAt]
    cases m with
    | zero => simp
    | succ m =>
      rw [if_neg (by simp), List.length_singleton, Nat.add_sub_cancel, ih, List.getElem?_cons_succ]

/-- **A space splits the line just if it is a unit of the line.** -/
theorem splits_iff (line : List Char) (m : Nat) : Splits line m ↔ SpaceAt (units line) m := by
  induction line using units_induction generalizing m with
  | nil => simp [Splits, units, unitsFrom, SpaceAt]
  | char c cs hc ih =>
    rw [units_char hc, SpaceAt, Splits, inBlock_char hc]
    cases m with
    | zero => simp
    | succ m =>
      rw [if_neg (by simp), List.length_singleton, Nat.add_sub_cancel, ← ih,
        List.getElem?_cons_succ, Splits]
      simp
  | block block rest hblock ih =>
    have hspace : block ≠ [' '] := by
      rintro rfl
      exact absurd hblock.opens (by decide)
    rw [units_block hblock, SpaceAt, Splits, inBlock_block hblock]
    split
    · rename_i hm
      exact iff_of_false (fun h => h.2 (.inl hm)) hspace
    · rename_i hm
      obtain ⟨k, rfl⟩ := Nat.exists_eq_add_of_le (Nat.not_lt.mp hm)
      rw [Nat.add_sub_cancel_left, ← ih, List.getElem?_append_right (Nat.le_add_right _ _),
        Nat.add_sub_cancel_left, Splits]
      simp
  | unclosed cs hnone =>
    rw [units_unclosed hnone, spaceAt_singletons, Splits]
    exact and_iff_left (not_inBlock_unclosed hnone)

/-! ## Runs between splitting places -/

/-- A longest stretch of a text of the length `n` without one of the places `S`. -/
structure Run (S : Nat → Prop) (n i j : Nat) : Prop where
  lt : i < j
  le : j ≤ n
  whole : ∀ m, i ≤ m → m < j → ¬ S m
  left : i = 0 ∨ S (i - 1)
  right : j = n ∨ S j

/-- A run behind `start` is the one up to the next splitting place, or lies behind that one. -/
theorem run_iff {S : Nat → Prop} {n start k i j : Nat} (hleft : start = 0 ∨ S (start - 1))
    (hfree : ∀ m, start ≤ m → m < k → ¬ S m) (hk : k ≤ n) (hstop : k = n ∨ S k) :
    start ≤ i ∧ Run S n i j ↔
      (start < k ∧ i = start ∧ j = k) ∨ (k + 1 ≤ i ∧ start ≤ i ∧ Run S n i j) := by
  constructor
  · rintro ⟨hi, h⟩
    by_cases hbehind : k + 1 ≤ i
    · exact .inr ⟨hbehind, hi, h⟩
    · have hlt := h.lt
      have hle := h.le
      have hne : ¬ (i ≤ k ∧ k < j) := fun ⟨hik, hkj⟩ =>
        hstop.elim (by omega) fun hS => h.whole k hik hkj hS
      have hjk : j = k := by
        by_contra hj
        exact h.right.elim (by omega) fun hS => hfree j (by omega) (by omega) hS
      have his : i = start := by
        by_contra hi'
        exact h.left.elim (by omega) fun hS => hfree (i - 1) (by omega) (by omega) hS
      exact .inl ⟨by omega, his, hjk⟩
  · rintro (⟨hlt, rfl, rfl⟩ | ⟨-, h⟩)
    · exact ⟨Nat.le_refl _, hlt, hk, hfree, hleft, hstop⟩
    · exact h

/-- The stretches that units are cut into at the spaces among them; the current stretch starts at
the place `start`, and the next unit stands at `k`. -/
def cutsFrom (start k : Nat) : List (List Char) → List (Nat × Nat)
  | [] => if start < k then [(start, k)] else []
  | u :: us =>
    if u = [' '] then
      (if start < k then [(start, k)] else []) ++ cutsFrom (k + 1) (k + 1) us
    else cutsFrom start (k + u.length) us

/-- The stretches of a line. -/
def cuts (line : List Char) : List (Nat × Nat) := cutsFrom 0 0 (units line)

theorem mem_stretch {start k i j : Nat} :
    (i, j) ∈ (if start < k then [(start, k)] else []) ↔ start < k ∧ i = start ∧ j = k := by
  split <;> simp [*]

/-- The stretches are the runs between the splitting places, if these are the spaces by
themselves. -/
theorem mem_cutsFrom {S : Nat → Prop} {us : List (List Char)} {start k : Nat} (hstart : start ≤ k)
    (hleft : start = 0 ∨ S (start - 1)) (hfree : ∀ m, start ≤ m → m < k → ¬ S m)
    (hS : ∀ m, S (k + m) ↔ SpaceAt us m) (i j : Nat) :
    (i, j) ∈ cutsFrom start k us ↔ start ≤ i ∧ Run S (k + us.flatten.length) i j := by
  induction us generalizing start k with
  | nil =>
    rw [cutsFrom, mem_stretch, List.flatten_nil, List.length_nil, Nat.add_zero,
      run_iff hleft hfree (Nat.le_refl k) (.inl rfl), or_iff_left]
    rintro ⟨hbehind, -, h⟩
    have hlt := h.lt
    have hle := h.le
    omega
  | cons u us ih =>
    have hfirst : ∀ m < u.length, S (k + m) ↔ u = [' '] := fun m hm => by
      rw [hS, SpaceAt, if_pos hm]
    have hothers : ∀ m, S (k + u.length + m) ↔ SpaceAt us m := fun m => by
      rw [Nat.add_assoc, hS, SpaceAt, if_neg (by omega), Nat.add_sub_cancel_left]
    have hlength : k + (u :: us).flatten.length = k + u.length + us.flatten.length := by
      rw [List.flatten_cons, List.length_append, Nat.add_assoc]
    rw [cutsFrom, hlength]
    split
    · rename_i hu
      rw [hu] at hfirst hothers ⊢
      have hspace : S k := (hfirst 0 Nat.one_pos).mpr rfl
      rw [List.mem_append, mem_stretch, run_iff hleft hfree (by omega) (.inr hspace)]
      have hnone : ∀ m, k + 1 ≤ m → m < k + 1 → ¬ S m := fun m h h' => by omega
      have hnext : k + 1 = 0 ∨ S (k + 1 - 1) := .inr hspace
      rw [ih (Nat.le_refl _) hnext hnone hothers, List.length_singleton]
      exact or_congr_right ⟨fun ⟨hi, h⟩ => ⟨hi, by omega, h⟩, fun ⟨hi, _, h⟩ => ⟨hi, h⟩⟩
    · rename_i hu
      refine ih (Nat.le_add_right_of_le hstart) hleft (fun m hm hlt => ?_) hothers
      by_cases hmk : m < k
      · exact hfree m hm hmk
      · obtain ⟨m, rfl⟩ := Nat.exists_eq_add_of_le (Nat.not_lt.mp hmk)
        rw [hfirst m (by omega)]
        exact hu

theorem flatten_units (line : List Char) : (units line).flatten = line := by
  have hsingle : ∀ cs : List Char, (cs.map ([·])).flatten = cs := fun cs => by
    simpa using flatten_singletons_append cs []
  induction line using units_induction with
  | nil => rfl
  | char c cs hc ih => rw [units_char hc, List.flatten_cons, ih, List.singleton_append]
  | block block rest hblock ih => rw [units_block hblock, List.flatten_cons, ih]
  | unclosed cs hnone => rw [units_unclosed hnone, hsingle]

/-- **The stretches that are cut out are the runs between the splitting places.** -/
theorem mem_cuts (line : List Char) (i j : Nat) :
    (i, j) ∈ cuts line ↔ Run (Splits line) line.length i j := by
  have hS : ∀ m, Splits line (0 + m) ↔ SpaceAt (units line) m := fun m => by
    rw [Nat.zero_add]
    exact splits_iff line m
  have hcuts := mem_cutsFrom (Nat.le_refl 0) (.inl rfl) (fun _ _ h => nomatch h) hS i j
  rw [flatten_units, Nat.zero_add] at hcuts
  exact hcuts.trans (and_iff_right (Nat.zero_le i))

theorem cutsFrom_inOrder {us : List (List Char)} {start k : Nat} (hstart : start ≤ k) :
    (∀ s ∈ cutsFrom start k us, start ≤ s.1) ∧
      (cutsFrom start k us).Pairwise fun s t => s.2 < t.1 := by
  induction us generalizing start k with
  | nil =>
    rw [cutsFrom]
    split
    · exact ⟨List.forall_mem_singleton.mpr (Nat.le_refl _), List.pairwise_singleton _ _⟩
    · exact ⟨List.forall_mem_nil _, .nil⟩
  | cons u us ih =>
    rw [cutsFrom]
    split
    · obtain ⟨hbound, hpairwise⟩ := ih (Nat.le_refl (k + 1))
      split
      · refine ⟨List.forall_mem_cons.mpr ⟨Nat.le_refl _, fun s hs => ?_⟩,
          List.pairwise_cons.mpr ⟨fun s hs => hbound s hs, hpairwise⟩⟩
        have hs := hbound s hs
        omega
      · refine ⟨fun s hs => ?_, hpairwise⟩
        have hs := hbound s hs
        omega
    · exact ih (Nat.le_add_right_of_le hstart)

/-! ## The escaped line -/

theorem escapesTo_flatMap {us : List (List Char)} (hus : ∀ u ∈ us, u ∈ units line) :
    EscapesTo us.flatten (us.flatMap shownUnit) := by
  induction us with
  | nil => exact .self []
  | cons u us ih =>
    obtain ⟨hu, hus⟩ := List.forall_mem_cons.mp hus
    rw [List.flatten_cons, List.flatMap_cons]
    refine EscapesTo.append ?_ (ih hus)
    rcases of_mem_units hu with ⟨c, rfl⟩ | hblock
    · exact .self [c]
    · rw [shownUnit_block hblock]
      exact .hideFrom none u

end SkillLine

namespace Mechanic

open SkillLine

theorem partsFrom_append (i : Nat) (run : List Char) {text : List Char} (htext : ' ' ∉ text)
    (rest : List Char) :
    partsFrom i run (text ++ rest) =
      partsFrom (i + text.length) (text.reverse ++ run) rest := by
  induction text generalizing i run with
  | nil => rfl
  | cons c text ih =>
    rw [List.mem_cons, not_or] at htext
    rw [List.cons_append, partsFrom, if_neg (Ne.symm htext.1), ih _ _ htext.2, List.length_cons,
      List.reverse_cons, List.append_assoc, List.singleton_append, Nat.add_right_comm,
      Nat.add_assoc]

/-- A run of units is put back, and moved to its place in the line. -/
theorem place_run {line : List Char} (hplain : Plain line) {before run rest : List (List Char)}
    (hunits : units line = before ++ run ++ rest) (offset : Int) :
    sourceOffset (escape line) offset (before.flatMap shownUnit).length =
        offset + before.flatten.length ∧
      unescape (run.flatMap shownUnit) =
        (line.take (before.flatten.length + run.flatten.length)).drop before.flatten.length := by
  have hline : line = before.flatten ++ (run.flatten ++ rest.flatten) := by
    rw [← List.flatten_append, ← List.flatten_append, ← List.append_assoc, ← hunits, flatten_units]
  have hshown : ∀ us ⊆ units line, EscapesTo us.flatten (us.flatMap shownUnit) := fun us hus =>
    escapesTo_flatMap hus
  have hbefore := hshown before (hunits ▸ fun u hu => by simp [hu])
  have hrun := hshown run (hunits ▸ fun u hu => by simp [hu])
  have hrest := hshown (run ++ rest) (hunits ▸ fun u hu => by simp [List.mem_append.mp hu])
  constructor
  · have hcount := hbefore.sourceCount_eq hrest (by rwa [List.flatten_append, ← hline])
    rw [← List.flatMap_append, ← List.append_assoc, ← hunits, ← escape_eq_units] at hcount
    rw [sourceOffset, hcount, Int.add_comm]
  · have hinfix : run.flatten <:+: line :=
      ⟨before.flatten, rest.flatten, by simpa using hline.symm⟩
    rw [hrun.unescape_eq (hplain.of_infix hinfix), hline, ← List.append_assoc,
      ← List.length_append, List.take_left, List.drop_left]

/-- What is cut out of the escaped line when a run of units ends, moved to its place in the line. -/
theorem map_stretch {line : List Char} (hplain : Plain line) (offset : Int)
    {before run rest : List (List Char)} (hunits : units line = before ++ run ++ rest)
    {tail : List Part} {tail' : List (Nat × Nat)}
    (htail : tail.map (fun p => (sourceOffset (escape line) offset p.start, unescape p.text)) =
      tail'.map fun s => (offset + s.1, (line.take s.2).drop s.1)) :
    (if (run.flatMap shownUnit).reverse.isEmpty then tail
      else ⟨((before ++ run).flatMap shownUnit).length - (run.flatMap shownUnit).reverse.length,
        (run.flatMap shownUnit).reverse.reverse⟩ :: tail).map
        (fun p => (sourceOffset (escape line) offset p.start, unescape p.text)) =
      ((if before.flatten.length < (before ++ run).flatten.length then
        [(before.flatten.length, (before ++ run).flatten.length)] else []) ++ tail').map
        fun s => (offset + s.1, (line.take s.2).drop s.1) := by
  cases run with
  | nil => simpa using htail
  | cons u run =>
    have hu : u ∈ units line := hunits ▸ by simp
    have hshown : ¬ ((u :: run).flatMap shownUnit).reverse.isEmpty := by
      simp [shownUnit_ne_nil hu]
    have hpos : 0 < u.length := by
      rcases of_mem_units hu with ⟨c, rfl⟩ | hblock
      · exact Nat.one_pos
      · exact Nat.lt_of_lt_of_le Nat.two_pos hblock.two_le_length
    have hlt : before.flatten.length < (before ++ u :: run).flatten.length := by
      rw [List.flatten_append, List.length_append, List.flatten_cons, List.length_append]
      omega
    obtain ⟨hstart, htext⟩ := place_run hplain hunits offset
    rw [if_neg hshown, if_pos hlt, List.singleton_append, List.map_cons, List.map_cons, htail,
      List.reverse_reverse, List.length_reverse, List.flatMap_append, List.length_append,
      Nat.add_sub_cancel, hstart, htext, List.flatten_append, List.length_append]

/-- What is left of an escaped line is cut as its units are. -/
theorem map_partsFrom {line : List Char} (hplain : Plain line) (offset : Int)
    {before run rest : List (List Char)} (hunits : units line = before ++ run ++ rest) :
    (partsFrom ((before ++ run).flatMap shownUnit).length (run.flatMap shownUnit).reverse
        (rest.flatMap shownUnit)).map
        (fun p => (sourceOffset (escape line) offset p.start, unescape p.text)) =
      (cutsFrom before.flatten.length (before ++ run).flatten.length rest).map
        fun s => (offset + s.1, (line.take s.2).drop s.1) := by
  induction rest generalizing before run with
  | nil =>
    have hnone : ([] : List Part).map
        (fun p => (sourceOffset (escape line) offset p.start, unescape p.text)) =
          ([] : List (Nat × Nat)).map fun s => (offset + s.1, (line.take s.2).drop s.1) := rfl
    have hlast := map_stretch hplain offset hunits hnone
    rw [List.append_nil] at hlast
    exact hlast
  | cons u rest ih =>
    rw [cutsFrom, List.flatMap_cons]
    split
    · rename_i hu
      subst hu
      have hnext : units line = (before ++ run ++ [[' ']]) ++ [] ++ rest := by
        rw [hunits]
        simp
      have hshown : ((before ++ run ++ [[' ']]).flatMap shownUnit).length =
          ((before ++ run).flatMap shownUnit).length + 1 := by
        rw [List.flatMap_append, List.length_append]
        rfl
      have hflat : (before ++ run ++ [[' ']]).flatten.length =
          (before ++ run).flatten.length + 1 := by
        rw [List.flatten_append, List.length_append]
        rfl
      have hrest := ih hnext
      rw [List.append_nil, hshown, hflat] at hrest
      rw [shownUnit_char, List.singleton_append, partsFrom, if_pos rfl]
      exact map_stretch hplain offset hunits hrest
    · rename_i hu
      have hnext : units line = before ++ (run ++ [u]) ++ rest := by
        rw [hunits]
        simp
      have hin : u ∈ units line := hunits ▸ by simp
      have hrest := ih hnext
      rw [partsFrom_append _ _ (space_not_mem_shownUnit hin hu)]
      simpa [Nat.add_assoc] using hrest

/-- **The parts of an escaped line are the runs of the line between its splitting spaces**, put back
and each at its place in the line. -/
theorem parts_escape {line : List Char} (hplain : Plain line) (offset : Int) :
    ∃ spans : List (Nat × Nat),
      spans.Pairwise (fun s t => s.2 < t.1) ∧
      (∀ i j, (i, j) ∈ spans ↔ Run (Splits line) line.length i j) ∧
      (parts (escape line)).map
          (fun p => (sourceOffset (escape line) offset p.start, unescape p.text)) =
        spans.map fun s => (offset + s.1, (line.take s.2).drop s.1) := by
  have hparts := map_partsFrom hplain offset
    (show units line = [] ++ [] ++ units line from (List.nil_append _).symm)
  rw [← escape_eq_units] at hparts
  exact ⟨cuts line, (cutsFrom_inOrder (Nat.le_refl 0)).2, mem_cuts line, hparts⟩

/-- The space between the braces does not split the line. -/
theorem parts_escape_block :
    Plain "heal\x7ba=1 2\x7d  0.5 ".toList ∧
      ∃ spans : List (Nat × Nat),
        spans.Pairwise (fun s t => s.2 < t.1) ∧
        (∀ i j, (i, j) ∈ spans ↔ Run (Splits "heal\x7ba=1 2\x7d  0.5 ".toList) 17 i j) ∧
        spans.map (fun s =>
            (5 + (s.1 : Int), ("heal\x7ba=1 2\x7d  0.5 ".toList.take s.2).drop s.1)) =
          [(5, "heal\x7ba=1 2\x7d".toList), (18, "0.5".toList)] := by
  have hplain : Plain "heal\x7ba=1 2\x7d  0.5 ".toList := plain_of_unescape_eq (by decide)
  obtain ⟨spans, horder, hruns, hparts⟩ := parts_escape hplain 5
  exact ⟨hplain, spans, horder, hruns, hparts.symm.trans (by decide)⟩

end Mechanic

end PackLint
