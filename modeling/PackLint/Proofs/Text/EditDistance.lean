import PackLint.Text.EditDistance
import Mathlib.Order.Bounds.Defs
import Mathlib.Order.MinMax

/-!
# The edit distance counts edits

An edit inserts, deletes or substitutes one character, and the distance of two texts is the least
number of edits that turn one into the other. The distance by recursion on both texts is such a
number, and no edit brings a text nearer to another one by more than one. The rows of `editDistance`
(`levenshtein`) hold the recursive distances of the parts that have been read, the latest character
first; since edits can be read backwards too, the last entry is the distance of the texts.

Results:
* `isLeast_recursiveDistance`: the recursive distance is the least number of edits.
* `foldl_distanceRow`: the rows hold the distances of what has been read.
* `isLeast_editDistance`: so does the distance row by row, which therefore is a metric.
-/

namespace PackLint

/-! ## Edits -/

/-- One text becomes the other by one edit of a single character. -/
inductive Edit : List Char → List Char → Prop
  | insert (front back : List Char) (c : Char) : Edit (front ++ back) (front ++ c :: back)
  | delete (front back : List Char) (c : Char) : Edit (front ++ c :: back) (front ++ back)
  | substitute (front back : List Char) (c d : Char) :
      Edit (front ++ c :: back) (front ++ d :: back)

/-- One text becomes the other by so many edits, one after the other. -/
inductive Edits : Nat → List Char → List Char → Prop
  | refl (a : List Char) : Edits 0 a a
  | step {n : Nat} {a b c : List Char} (h : Edit a b) (hs : Edits n b c) : Edits (n + 1) a c

variable {a b c : List Char} {m n : Nat}

namespace Edit

theorem symm (h : Edit a b) : Edit b a := by
  cases h with
  | insert front back c => exact .delete front back c
  | delete front back c => exact .insert front back c
  | substitute front back c d => exact .substitute front back d c

theorem cons (h : Edit a b) (x : Char) : Edit (x :: a) (x :: b) := by
  cases h with
  | insert front back c => exact .insert (x :: front) back c
  | delete front back c => exact .delete (x :: front) back c
  | substitute front back c d => exact .substitute (x :: front) back c d

theorem reverse (h : Edit a b) : Edit a.reverse b.reverse := by
  cases h with
  | insert front back c => simpa using insert back.reverse front.reverse c
  | delete front back c => simpa using delete back.reverse front.reverse c
  | substitute front back c d => simpa using substitute back.reverse front.reverse c d

end Edit

namespace Edits

theorem trans (h : Edits m a b) (h' : Edits n b c) : Edits (m + n) a c := by
  induction h with
  | refl a => rwa [Nat.zero_add]
  | step h _ ih =>
    rw [Nat.add_right_comm]
    exact .step h (ih h')

theorem symm (h : Edits n a b) : Edits n b a := by
  induction h with
  | refl a => exact .refl a
  | step h _ ih => exact ih.trans (.step h.symm (.refl _))

theorem cons (h : Edits n a b) (x : Char) : Edits n (x :: a) (x :: b) := by
  induction h with
  | refl a => exact .refl _
  | step h _ ih => exact .step (h.cons x) ih

theorem reverse (h : Edits n a b) : Edits n a.reverse b.reverse := by
  induction h with
  | refl a => exact .refl _
  | step h _ ih => exact .step h.reverse ih

theorem min (h : Edits m a b) (h' : Edits n a b) : Edits (Min.min m n) a b := by
  rcases min_choice m n with heq | heq
  · rwa [heq]
  · rwa [heq]

theorem eq_of_zero (h : Edits 0 a b) : a = b := by
  cases h
  rfl

end Edits

/-! ## The recursive distance -/

/-- The distance of two texts by their first characters: the first of one is deleted, that of the
other inserted, or the one becomes the other. -/
def recursiveDistance : List Char → List Char → Nat
  | [], b => b.length
  | a, [] => a.length
  | c :: a, d :: b =>
    min (min (recursiveDistance a (d :: b) + 1) (recursiveDistance (c :: a) b + 1))
      (recursiveDistance a b + if c = d then 0 else 1)
termination_by a b => a.length + b.length

theorem recursiveDistance_nil_left (b : List Char) : recursiveDistance [] b = b.length := by
  rw [recursiveDistance]

theorem recursiveDistance_nil_right (a : List Char) : recursiveDistance a [] = a.length := by
  cases a with
  | nil => rw [recursiveDistance_nil_left]
  | cons c a => rw [recursiveDistance]; exact List.cons_ne_nil c a

theorem recursiveDistance_cons (c d : Char) (a b : List Char) :
    recursiveDistance (c :: a) (d :: b) =
      min (min (recursiveDistance a (d :: b) + 1) (recursiveDistance (c :: a) b + 1))
        (recursiveDistance a b + if c = d then 0 else 1) := by
  rw [recursiveDistance]

theorem edits_nil (a : List Char) : Edits a.length a [] := by
  induction a with
  | nil => exact .refl []
  | cons c a ih => exact .step (.delete [] a c) ih

/-- The recursive distance is a number of edits. -/
theorem edits_recursiveDistance (a b : List Char) : Edits (recursiveDistance a b) a b := by
  fun_induction recursiveDistance a b with
  | case1 b => exact (edits_nil b).symm
  | case2 a _ => exact edits_nil a
  | case3 c a d b ihdelete ihinsert ihkeep =>
    have hdelete : Edits (recursiveDistance a (d :: b) + 1) (c :: a) (d :: b) :=
      .step (.delete [] a c) ihdelete
    have hinsert : Edits (recursiveDistance (c :: a) b + 1) (c :: a) (d :: b) :=
      ihinsert.trans (.step (.insert [] b d) (.refl _))
    have hkeep : Edits (recursiveDistance a b + if c = d then 0 else 1) (c :: a) (d :: b) := by
      split
      · rename_i heq
        exact heq ▸ ihkeep.cons c
      · exact (ihkeep.cons c).trans (.step (.substitute [] b c d) (.refl _))
    exact (hdelete.min hinsert).min hkeep

/-! ## No edit brings a text nearer by more than one -/

theorem recursiveDistance_le_insert (a b : List Char) (d : Char) :
    recursiveDistance a (d :: b) ≤ recursiveDistance a b + 1 := by
  cases a with
  | nil => rw [recursiveDistance_nil_left, recursiveDistance_nil_left, List.length_cons]
  | cons c a =>
    rw [recursiveDistance_cons]
    omega

theorem recursiveDistance_le_delete (a b : List Char) (c : Char) :
    recursiveDistance (c :: a) b ≤ recursiveDistance a b + 1 := by
  cases b with
  | nil => rw [recursiveDistance_nil_right, recursiveDistance_nil_right, List.length_cons]
  | cons d b =>
    rw [recursiveDistance_cons]
    omega

theorem recursiveDistance_le_of_insert (a b : List Char) (c : Char) :
    recursiveDistance a b ≤ recursiveDistance (c :: a) b + 1 := by
  induction b with
  | nil =>
    rw [recursiveDistance_nil_right, recursiveDistance_nil_right, List.length_cons]
    omega
  | cons d b ih =>
    have hd := recursiveDistance_le_insert a b d
    rw [recursiveDistance_cons]
    omega

theorem recursiveDistance_le_of_substitute (a b : List Char) (c d : Char) :
    recursiveDistance (c :: a) b ≤ recursiveDistance (d :: a) b + 1 := by
  induction b with
  | nil =>
    rw [recursiveDistance_nil_right, recursiveDistance_nil_right]
    exact Nat.le_succ _
  | cons x b ih =>
    rw [recursiveDistance_cons, recursiveDistance_cons]
    have hc : (if c = x then 0 else 1) ≤ 1 := by split <;> omega
    omega

/-- What an edit changes by at most one it still does behind one more character. -/
theorem recursiveDistance_le_of_cons (h : ∀ b, recursiveDistance a b ≤ recursiveDistance c b + 1)
    (x : Char) (b : List Char) :
    recursiveDistance (x :: a) b ≤ recursiveDistance (x :: c) b + 1 := by
  induction b with
  | nil =>
    have hnil := h []
    rw [recursiveDistance_nil_right, recursiveDistance_nil_right] at hnil ⊢
    exact Nat.succ_le_succ hnil
  | cons d b ih =>
    have hdelete := h (d :: b)
    have hkeep := h b
    rw [recursiveDistance_cons, recursiveDistance_cons]
    omega

/-- **No edit brings a text nearer by more than one.** -/
theorem Edit.recursiveDistance_le (h : Edit a c) (b : List Char) :
    recursiveDistance a b ≤ recursiveDistance c b + 1 := by
  have hfront : ∀ {front a c : List Char},
      (∀ b, recursiveDistance a b ≤ recursiveDistance c b + 1) →
        ∀ b, recursiveDistance (front ++ a) b ≤ recursiveDistance (front ++ c) b + 1 := by
    intro front a c h
    induction front with
    | nil => exact h
    | cons x front ih => exact recursiveDistance_le_of_cons ih x
  cases h with
  | insert front back x => exact hfront (fun b => recursiveDistance_le_of_insert back b x) b
  | delete front back x => exact hfront (fun b => recursiveDistance_le_delete back b x) b
  | substitute front back x y =>
    exact hfront (fun b => recursiveDistance_le_of_substitute back b x y) b

theorem recursiveDistance_self (a : List Char) : recursiveDistance a a = 0 := by
  induction a with
  | nil => rw [recursiveDistance_nil_left, List.length_nil]
  | cons c a ih => rw [recursiveDistance_cons, ih, if_pos rfl, Nat.add_zero, Nat.min_zero]

theorem Edits.recursiveDistance_le (h : Edits n a b) : recursiveDistance a b ≤ n := by
  induction h with
  | refl a => exact Nat.le_of_eq (recursiveDistance_self a)
  | step h _ ih => exact Nat.le_trans (h.recursiveDistance_le _) (Nat.succ_le_succ ih)

/-- **The recursive distance is the least number of edits.** -/
theorem isLeast_recursiveDistance (a b : List Char) :
    IsLeast {n | Edits n a b} (recursiveDistance a b) :=
  ⟨edits_recursiveDistance a b, fun _ h => h.recursiveDistance_le⟩

theorem recursiveDistance_reverse (a b : List Char) :
    recursiveDistance a.reverse b.reverse = recursiveDistance a b := by
  have hle : ∀ a b, recursiveDistance a.reverse b.reverse ≤ recursiveDistance a b := fun a b =>
    (edits_recursiveDistance a b).reverse.recursiveDistance_le
  refine Nat.le_antisymm (hle a b) ?_
  have hback := hle a.reverse b.reverse
  rwa [List.reverse_reverse, List.reverse_reverse] at hback

/-! ## Rows -/

/-- The distances from the text `a` to the text `b` and to what it grows to when the characters
`ds` are put in front of it one by one. -/
def distancesFrom (a b : List Char) : List Char → List Nat
  | [] => [recursiveDistance a b]
  | d :: ds => recursiveDistance a b :: distancesFrom a (d :: b) ds

theorem distancesFrom_eq_cons (a b ds : List Char) :
    distancesFrom a b ds = recursiveDistance a b :: (distancesFrom a b ds).tail := by
  cases ds <;> rfl

theorem range'_eq_distancesFrom (b ds : List Char) :
    List.range' b.length (ds.length + 1) = distancesFrom [] b ds := by
  induction ds generalizing b with
  | nil => rw [distancesFrom, recursiveDistance_nil_left]; rfl
  | cons d ds ih =>
    rw [distancesFrom, ← ih, recursiveDistance_nil_left, List.length_cons, List.range'_succ]
    rfl

theorem getLast?_distancesFrom (a b ds : List Char) :
    (distancesFrom a b ds).getLast? = some (recursiveDistance a (ds.reverse ++ b)) := by
  induction ds generalizing b with
  | nil => rfl
  | cons d ds ih =>
    rw [distancesFrom, distancesFrom_eq_cons, List.getLast?_cons_cons, ← distancesFrom_eq_cons, ih,
      List.reverse_cons, List.append_assoc, List.singleton_append]

/-- An entry is the distance that the entries around it give. -/
theorem distanceRowFrom_distancesFrom (c : Char) (a b ds : List Char) :
    distanceRowFrom c (recursiveDistance (c :: a) b) ds (distancesFrom a b ds) =
      (distancesFrom (c :: a) b ds).tail := by
  induction ds generalizing b with
  | nil => rfl
  | cons d ds ih =>
    rw [distancesFrom, distancesFrom_eq_cons a (d :: b), distanceRowFrom]
    rw [← recursiveDistance_cons, ← distancesFrom_eq_cons, ih, distancesFrom, List.tail_cons,
      ← distancesFrom_eq_cons]

theorem distanceRow_distancesFrom (c : Char) (a b : List Char) :
    distanceRow b (distancesFrom a [] b) c = distancesFrom (c :: a) [] b := by
  have hrow := distanceRowFrom_distancesFrom c a [] b
  have hfirst : recursiveDistance a [] + 1 = recursiveDistance (c :: a) [] := by
    rw [recursiveDistance_nil_right, recursiveDistance_nil_right, List.length_cons]
  rw [distancesFrom_eq_cons a, distanceRow, ← distancesFrom_eq_cons, hfirst, hrow,
    ← distancesFrom_eq_cons]

/-- **The rows hold the distances of what has been read.** -/
theorem foldl_distanceRow (a front b : List Char) :
    a.foldl (distanceRow b) (distancesFrom front [] b) =
      distancesFrom (a.reverse ++ front) [] b := by
  induction a generalizing front with
  | nil => rfl
  | cons c a ih =>
    rw [List.foldl_cons, distanceRow_distancesFrom, ih, List.reverse_cons, List.append_assoc,
      List.singleton_append]

theorem editDistance_eq (a b : List Char) : editDistance a b = recursiveDistance a b := by
  have hfirst := range'_eq_distancesFrom [] b
  rw [List.length_nil, ← List.range_eq_range'] at hfirst
  rw [editDistance, hfirst, foldl_distanceRow, getLast?_distancesFrom, List.append_nil,
    List.append_nil, Option.getD_some, recursiveDistance_reverse]

/-! ## Distances -/

/-- **The edit distance is the least number of edits that turn one text into the other**, as it is
by recursion on both texts. So it does not matter which of the texts is read row by row, only equal
texts have no distance, and no detour is shorter. -/
theorem isLeast_editDistance (a b : List Char) :
    IsLeast {n | Edits n a b} (editDistance a b) ∧
      editDistance a b = recursiveDistance a b ∧
      editDistance b a = editDistance a b ∧
      (editDistance a b = 0 ↔ a = b) ∧
      ∀ c, editDistance a c ≤ editDistance a b + editDistance b c := by
  have hedits : ∀ a b, Edits (editDistance a b) a b := fun a b =>
    editDistance_eq a b ▸ edits_recursiveDistance a b
  have hle : ∀ {n a b}, Edits n a b → editDistance a b ≤ n := fun {n a b} h =>
    editDistance_eq a b ▸ h.recursiveDistance_le
  refine ⟨⟨hedits a b, fun _ h => hle h⟩, editDistance_eq a b, ?_, ⟨fun hzero => ?_, ?_⟩,
    fun c => hle ((hedits a b).trans (hedits b c))⟩
  · exact Nat.le_antisymm (hle (hedits a b).symm) (hle (hedits b a).symm)
  · have hnone := hedits a b
    rw [hzero] at hnone
    exact hnone.eq_of_zero
  · rintro rfl
    exact Nat.le_zero.mp (hle (.refl a))

end PackLint
