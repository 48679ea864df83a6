import PackLint.Proofs.Value.Same
import PackLint.Schema.Check

/-!
# Repeated items

A list whose items have to differ (`allow_duplicates`) is read from front to back
(`_check_duplicates`). An item is reported if it is not null and the same as any item before it,
reported or not. Removing what is reported leaves each value of the list once. Values are compared
as they are read, where all halves of surrogate pairs are one character (`Yaml.Scan.numericEscape`).

Results:
* `Schema.repeated_eq`: which items are reported.
* `Schema.repeated_novel`: the items that are left are not reported, and `Schema.exists_novel`: each
  item is the same as one of them.
* `Schema.checkStructure_differing`: what the check of a list says of repeated items.
-/

namespace PackLint

/-- The item is null. -/
def Node.isNull (n : Node) : Bool :=
  match n.toValue with
  | .null => true
  | _ => false

theorem Node.isNull_iff {n : Node} : n.isNull = true ↔ n.toValue = .null := by
  unfold isNull
  split <;> simp_all

namespace Schema

variable {site : Site} {earlier : List Value} {items : List Node} {n : Node}

/-- The report on an item that is the same as an earlier one. -/
def repeatedItem (site : Site) (n : Node) : Report :=
  site.problem n .duplicateListItem ("Duplicate item `" ++ site.nodeText n ++ "`.")

/-- Whether an item is the same as one of some values, and not null. -/
def isRepeat (earlier : List Value) (n : Node) : Bool :=
  !n.isNull && earlier.any (Value.same n.toValue)

theorem repeated_cons (n : Node) (items : List Node) :
    repeated site earlier (n :: items) =
      (if isRepeat earlier n then repeatedItem site n else .empty) ::
        repeated site (n.toValue :: earlier) items := rfl

theorem isRepeat_iff : isRepeat earlier n = true ↔
    n.isNull = false ∧ ∃ v ∈ earlier, Value.same n.toValue v = true := by
  simp [isRepeat]

/-- What is said of an item depends on the values before it, in whatever order. -/
theorem getElem?_repeated (items : List Node) (i : Nat) :
    (repeated site earlier items)[i]? = items[i]?.map fun n =>
      if isRepeat (((items.take i).map Node.toValue).reverse ++ earlier) n then repeatedItem site n
      else .empty := by
  induction items generalizing earlier i with
  | nil => rfl
  | cons n items ih =>
    rw [repeated_cons]
    cases i with
    | zero => rfl
    | succ i =>
      rw [List.getElem?_cons_succ, ih, List.getElem?_cons_succ, List.take_succ_cons, List.map_cons,
        List.reverse_cons, List.append_assoc]
      rfl

theorem isRepeat_reverse : isRepeat earlier.reverse n = isRepeat earlier n := by
  simp [isRepeat]

/-! ## What is left -/

/-- The items that are not repeated, reported items counting as earlier ones as well. -/
def novel (earlier : List Value) : List Node → List Node
  | [] => []
  | n :: ns =>
    if isRepeat earlier n then novel (n.toValue :: earlier) ns
    else n :: novel (n.toValue :: earlier) ns

/-- The items with a report that has no diagnostics. -/
def unreported (items : List Node) (reports : List Report) : List Node :=
  ((items.zip reports).filter fun p => p.2.diagnostics.isEmpty).map (·.1)

theorem unreported_repeated (site : Site) (earlier : List Value) (items : List Node) :
    unreported items (repeated site earlier items) = novel earlier items := by
  induction items generalizing earlier with
  | nil => rfl
  | cons n items ih =>
    rw [repeated_cons, novel, ← ih]
    cases isRepeat earlier n <;> rfl

theorem mem_of_mem_novel (h : n ∈ novel earlier items) : n ∈ items := by
  induction items generalizing earlier with
  | nil => cases h
  | cons m items ih =>
    rw [novel] at h
    split at h
    · exact List.mem_cons_of_mem _ (ih h)
    · rcases List.mem_cons.mp h with rfl | h
      · exact List.mem_cons_self
      · exact List.mem_cons_of_mem _ (ih h)

theorem not_isRepeat_of_subset {before : List Value} (hsub : before ⊆ earlier)
    (h : ¬ isRepeat earlier n) : ¬ isRepeat before n := by
  rw [isRepeat_iff] at h ⊢
  rintro ⟨hnull, v, hv, hsame⟩
  exact h ⟨hnull, v, hsub hv, hsame⟩

theorem not_isRepeat_of_mem_novel (h : n ∈ novel earlier items) : ¬ isRepeat earlier n := by
  induction items generalizing earlier with
  | nil => cases h
  | cons m items ih =>
    have hrest : n ∈ novel (m.toValue :: earlier) items → ¬ isRepeat earlier n := fun hn =>
      not_isRepeat_of_subset (List.subset_cons_self _ _) (ih hn)
    rw [novel] at h
    split at h
    · exact hrest h
    · rcases List.mem_cons.mp h with rfl | h
      · assumption
      · exact hrest h

/-- The items that are left are not reported: fewer values are before them than there were. -/
theorem repeated_novel {before : List Value} (hsub : before ⊆ earlier) :
    ∀ r ∈ repeated site before (novel earlier items), r = .empty := by
  induction items generalizing earlier before with
  | nil => exact fun r hr => nomatch hr
  | cons n items ih =>
    rw [novel]
    split
    · exact ih (List.Subset.trans hsub (List.subset_cons_self _ _))
    · rename_i hn
      rw [repeated_cons, if_neg (not_isRepeat_of_subset hsub hn)]
      exact List.forall_mem_cons.mpr ⟨rfl, ih (List.cons_subset_cons _ hsub)⟩

/-- No two items that are left are the same, nulls aside. -/
theorem pairwise_novel : (novel earlier items).Pairwise fun n m =>
    m.isNull = true ∨ Value.same m.toValue n.toValue = false := by
  induction items generalizing earlier with
  | nil => exact .nil
  | cons n items ih =>
    rw [novel]
    split
    · exact ih
    · refine List.pairwise_cons.mpr ⟨fun m hm => ?_, ih⟩
      have hnot := not_isRepeat_of_mem_novel hm
      rw [isRepeat_iff, not_and_or, Bool.not_eq_false] at hnot
      refine hnot.imp_right fun h => Bool.eq_false_iff.mpr fun hsame => h ?_
      exact ⟨_, List.mem_cons_self, hsame⟩

section Values

variable (hkeys : ∀ n ∈ items, n.toValue.KeysApart) (hnan : ∀ n ∈ items, n.toValue.isNan = false)

include hkeys hnan

/-- Each item is the same as a value before it or as an item that is left: an item that is the same
as a reported one is the same as what this one repeats. -/
theorem exists_novel (hearlier : ∀ v ∈ earlier, v.KeysApart) (hn : n ∈ items) :
    (∃ v ∈ earlier, Value.same n.toValue v = true) ∨
      ∃ m ∈ novel earlier items, Value.same n.toValue m.toValue = true := by
  induction items generalizing earlier with
  | nil => cases hn
  | cons m items ih =>
    obtain ⟨hm, hitems⟩ := List.forall_mem_cons.mp hkeys
    obtain ⟨hmnan, hitemsnan⟩ := List.forall_mem_cons.mp hnan
    rw [novel]
    rcases List.mem_cons.mp hn with rfl | hn
    · split
      · rename_i h
        exact .inl (isRepeat_iff.mp h).2
      · exact .inr ⟨n, List.mem_cons_self, Value.same_self hm hmnan⟩
    · rcases ih hitems hitemsnan (List.forall_mem_cons.mpr ⟨hm, hearlier⟩) hn with
        ⟨v, hv, hsame⟩ | ⟨k, hk, hsame⟩
      · rcases List.mem_cons.mp hv with rfl | hv
        · split
          · rename_i h
            obtain ⟨-, v, hv, hsame'⟩ := isRepeat_iff.mp h
            exact .inl ⟨v, hv, Value.same_trans (hitems n hn) hm (hearlier v hv) hsame hsame'⟩
          · exact .inr ⟨m, List.mem_cons_self, hsame⟩
        · exact .inl ⟨v, hv, hsame⟩
      · refine .inr ⟨k, ?_, hsame⟩
        split
        · exact hk
        · exact List.mem_cons_of_mem _ hk

theorem exists_novel_nil (hn : n ∈ items) :
    ∃ m ∈ novel [] items, Value.same n.toValue m.toValue = true := by
  rcases exists_novel hkeys hnan (fun v hv => absurd hv List.not_mem_nil) hn with ⟨v, hv, -⟩ | h
  · cases hv
  · exact h

end Values

/-! ## How many there are -/

/-- Of the items that are not null each is reported or left. -/
theorem length_repeated_add (site : Site) (earlier : List Value) (items : List Node) :
    (Report.mergeAll (repeated site earlier items)).diagnostics.length +
      ((novel earlier items).filter (!·.isNull)).length =
        (items.filter (!·.isNull)).length := by
  induction items generalizing earlier with
  | nil => rfl
  | cons n items ih =>
    have hrest := ih (n.toValue :: earlier)
    rw [repeated_cons, Report.mergeAll_cons, novel]
    cases hn : isRepeat earlier n with
    | true =>
      have hnull : n.isNull = false := (isRepeat_iff.mp hn).1
      simp only [if_true, Report.merge, List.length_append, List.filter_cons, hnull, Bool.not_false,
        List.length_cons, repeatedItem, Site.problem, Report.ofDiagnostic, List.length_nil]
      omega
    | false =>
      simp only [Bool.false_eq_true, if_false, Report.empty_merge, List.filter_cons]
      split
      · rw [List.length_cons, List.length_cons]
        omega
      · exact hrest

/-! ## The check of a list -/

/-- What reports, one for each item of a list, say of repeated items. -/
structure TellsRepeated (site : Site) (items : List Node) (reports : List Report) : Prop where
  /-- An item is reported iff it is not null and the same as an item before it. -/
  flagged (i : Nat) (n : Node) (hi : items[i]? = some n) : reports[i]? = some
    (if isRepeat ((items.take i).map Node.toValue) n then repeatedItem site n else .empty)
  /-- Null is never reported. -/
  null (i : Nat) (n : Node) (hi : items[i]? = some n) (hn : n.toValue = .null) :
    reports[i]? = some .empty
  /-- The first item with a value is never reported. -/
  first (i : Nat) (n : Node) (hi : items[i]? = some n)
    (hfirst : ∀ m ∈ items.take i, Value.same n.toValue m.toValue = false) :
    reports[i]? = some .empty
  /-- Of the items that are not reported none would be without the others. -/
  silent : ∀ r ∈ repeated site [] (unreported items reports), r = .empty
  /-- Every value is still there without the items that are reported. -/
  covered : ∀ n ∈ items, ∃ m ∈ unreported items reports, Value.same n.toValue m.toValue = true
  /-- There are as many diagnostics as items that are not null beyond one for each value. -/
  count : (Report.mergeAll reports).diagnostics.length +
    Value.distinctCount ((items.filter (!·.isNull)).map Node.toValue) =
      (items.filter (!·.isNull)).length

/-- The items that are left and not null have each value once. -/
theorem distinctCount_eq_length_novel (hkeys : ∀ n ∈ items, n.toValue.KeysApart)
    (hnan : ∀ n ∈ items, n.toValue.isNan = false) :
    Value.distinctCount ((items.filter (!·.isNull)).map Node.toValue) =
      ((novel [] items).filter (!·.isNull)).length := by
  rw [← List.length_map (f := Node.toValue)]
  refine Value.distinctCount_eq ?_ ?_ ?_ ?_ ?_
  · exact List.forall_mem_map.mpr fun n hn => hkeys n (List.mem_filter.mp hn).1
  · exact List.forall_mem_map.mpr fun n hn => hnan n (List.mem_filter.mp hn).1
  · refine List.map_subset _ fun n hn => ?_
    obtain ⟨hn, hnull⟩ := List.mem_filter.mp hn
    exact List.mem_filter.mpr ⟨mem_of_mem_novel hn, hnull⟩
  · refine List.pairwise_map.mpr ((pairwise_novel.filter _).imp_of_mem fun hn hm h => ?_)
    obtain ⟨hn, -⟩ := List.mem_filter.mp hn
    obtain ⟨hm, hnull⟩ := List.mem_filter.mp hm
    refine Bool.eq_false_iff.mpr fun hsame => ?_
    have hback := Value.same_symm (hkeys _ (mem_of_mem_novel hn)) (hkeys _ (mem_of_mem_novel hm))
      hsame
    rcases h with h | h
    · simp [h] at hnull
    · exact Bool.false_ne_true (h.symm.trans hback)
  · refine List.forall_mem_map.mpr fun n hn => ?_
    obtain ⟨hn, hnull⟩ := List.mem_filter.mp hn
    obtain ⟨m, hm, hsame⟩ := exists_novel_nil hkeys hnan hn
    have hmnull : m.isNull = false := by
      refine Bool.eq_false_iff.mpr fun h => ?_
      rw [Node.isNull_iff.mp h] at hsame
      simp [Node.isNull_iff.mpr (Value.eq_null_of_same hsame)] at hnull
    exact ⟨_, List.mem_map_of_mem (List.mem_filter.mpr ⟨hm, by simp [hmnull]⟩), hsame⟩

/-- The reports on the items of a list tell what is repeated. -/
theorem tellsRepeated_repeated (hkeys : ∀ n ∈ items, n.toValue.KeysApart)
    (hnan : ∀ n ∈ items, n.toValue.isNan = false) :
    TellsRepeated site items (repeated site [] items) := by
  have hflagged : ∀ (i : Nat) (n : Node), items[i]? = some n →
      (repeated site [] items)[i]? = some
        (if isRepeat ((items.take i).map Node.toValue) n then repeatedItem site n else .empty) := by
    intro i n hi
    rw [getElem?_repeated, hi, List.append_nil, Option.map_some, isRepeat_reverse]
  refine ⟨hflagged, fun i n hi hn => ?_, fun i n hi hfirst => ?_, ?_, ?_, ?_⟩
  · rw [hflagged i n hi, if_neg]
    rw [isRepeat_iff, Node.isNull_iff.mpr hn]
    exact fun h => Bool.noConfusion h.1
  · rw [hflagged i n hi, if_neg]
    rw [isRepeat_iff]
    rintro ⟨-, v, hv, hsame⟩
    obtain ⟨m, hm, rfl⟩ := List.mem_map.mp hv
    exact Bool.false_ne_true ((hfirst m hm).symm.trans hsame)
  · rw [unreported_repeated]
    exact repeated_novel (List.Subset.refl [])
  · intro n hn
    rw [unreported_repeated]
    exact exists_novel_nil hkeys hnan hn
  · rw [distinctCount_eq_length_novel hkeys hnan]
    exact length_repeated_add site [] items

/-- **What the check of a list says of repeated items**, if no two items may be the same. The check
ends in a fault if a key in an item cannot be written as text. -/
theorem checkStructure_differing {visit : Visit} {info : SchemaInfo}
    {rule : Context → ItemsOf Schema} {allowDuplicates : Context → Bool} {start stop : Nat}
    (hdiffer : allowDuplicates (.ofNode site (.seq items start stop)) = false)
    (hatoms : ∀ n ∈ items, n.HasAtoms) (hnan : ∀ n ∈ items, n.toValue.isNan = false) :
    ∃ reports, TellsRepeated site items reports ∧
      checkStructure visit (.list info rule allowDuplicates) site (.seq items start stop) =
        checkItems visit site (.seq items start stop) items
          (rule (.ofNode site (.seq items start stop))) >>= fun report =>
            if items.all (·.hasTextKeys) then .ok (report ++ .mergeAll reports)
            else .error .integerTooLong := by
  refine ⟨repeated site [] items,
    tellsRepeated_repeated (fun n hn => Node.keysApart_toValue (hatoms n hn)) hnan, ?_⟩
  simp only [checkStructure, checkList, hdiffer, checkRepeated]
  refine congrArg (checkItems visit site _ items _ >>= ·) (funext fun report => ?_)
  rw [if_neg Bool.false_ne_true]
  split <;> rfl

/-- The items of `[1, 1.0, ~, ~, {k: 1, l: 2}, {l: 2, k: 1}]`. -/
def doubledSample : List Node :=
  let scalar (value : Value) (text : String) (start : Nat) : Node :=
    .scalar ⟨value, text, start, start + text.length, .plain⟩
  let key (text : String) (start : Nat) : Node := .scalar (.ofString text start (start + 1))
  [scalar (.number (.int 1)) "1" 1,
    scalar (.number (.float (.finite false (2 ^ 52) (-52)))) "1.0" 4,
    scalar .null "~" 9, scalar .null "~" 12,
    .map [⟨key "k" 16, scalar (.number (.int 1)) "1" 19, none⟩,
      ⟨key "l" 22, scalar (.number (.int 2)) "2" 25, none⟩] 15 27,
    .map [⟨key "l" 30, scalar (.number (.int 2)) "2" 33, none⟩,
      ⟨key "k" 36, scalar (.number (.int 1)) "1" 39, none⟩] 29 41]

/-- The document of the items. -/
def doubledSite : Site :=
  ⟨{}, {}, [], "file:///doubled.yml",
    .ofString "[1, 1.0, ~, ~, \x7bk: 1, l: 2\x7d, \x7bl: 2, k: 1\x7d]", none⟩

/-- The number and the map are repeated, and null is not. -/
example : (repeated doubledSite [] doubledSample).map (fun r => r.diagnostics.length) =
    [0, 1, 0, 0, 0, 1] := by decide

theorem checkStructure_differing_sample :
    let visit : Visit := fun s m => s.check doubledSite m
    let n := Node.seq doubledSample 0 42
    (∀ m ∈ doubledSample, m.HasAtoms) ∧ (∀ m ∈ doubledSample, m.toValue.isNan = false) ∧
      ∃ reports, TellsRepeated doubledSite doubledSample reports ∧
        checkStructure visit (listOf anyString false) doubledSite n =
          checkItems visit doubledSite n doubledSample (.each anyString) >>= fun report =>
            if doubledSample.all (·.hasTextKeys) then .ok (report ++ .mergeAll reports)
            else .error .integerTooLong := by
  intro visit n
  have hatoms : ∀ m ∈ doubledSample, m.HasAtoms := by
    simp [doubledSample, Value.isAtom]
  have hnan : ∀ m ∈ doubledSample, m.toValue.isNan = false := by decide
  exact ⟨hatoms, hnan, checkStructure_differing rfl hatoms hnan⟩

end Schema

end PackLint
