import PackLint.Proofs.Tree.Height
import PackLint.Text.Source
import PackLint.Tree.KeyPath
import Mathlib.Data.List.Forall2

/-!
# Copies of nodes

A copy of a node stands elsewhere, perhaps in another document. Its scalars have the same values
and texts; how they and the collections around them are written is free. The scalars of a literal
copy are also written the same, except that a block of lines may have another indentation.

Results:
* `Node.Copy.toValue_eq`, `Node.Copy.keyText_eq`, `Node.Copy.hasTextKeys_eq`: what is read off a
  node without its place is the same for a copy.
* `findPairs_copy`: a dotted key leads to copies of the same pairs.
-/

namespace PackLint

theorem optionRel_imp {α β : Type} {R S : α → β → Prop} {a : Option α} {b : Option β}
    (h : Option.Rel R a b) (hRS : ∀ x y, a = some x → b = some y → R x y → S x y) :
    Option.Rel S a b := by
  cases h with
  | none => exact .none
  | some h => exact .some (hRS _ _ rfl rfl h)

/-- Two scalars are written the same. A block of lines may have another indentation. -/
structure Scalar.WrittenAlike (src src' : Source) (s s' : Scalar) : Prop where
  style : s.style = s'.style
  length : s.isBlock = false → s.stop - s.start = s'.stop - s'.start
  text : s.isBlock = false → src.slice s.start s.stop = src'.slice s'.start s'.stop

/-- A scalar and a copy of it, which may have to be literal. -/
structure Scalar.Copy (literal : Prop) (src src' : Source) (s s' : Scalar) : Prop where
  value : s.value = s'.value
  text : s.text = s'.text
  written : literal → s.WrittenAlike src src' s'

/-- Two pairs with related keys and values under the same comment. -/
inductive KeyValue.Rel {α : Type} (R : α → α → Prop) : KeyValue α → KeyValue α → Prop
  | intro {key key' : α} {value value' : Option α} (comment : Option String) (hkey : R key key')
      (hvalue : Option.Rel R value value') : Rel R ⟨key, value, comment⟩ ⟨key', value', comment⟩

/-- A node and a copy of it. -/
inductive Node.Copy (literal : Prop) (src src' : Source) : Node → Node → Prop
  | scalar {s s' : Scalar} (h : s.Copy literal src src' s') :
      Copy literal src src' (.scalar s) (.scalar s')
  | seq {items items' : List Node} (start stop start' stop' : Nat)
      (h : List.Forall₂ (Copy literal src src') items items') :
      Copy literal src src' (.seq items start stop) (.seq items' start' stop')
  | map {pairs pairs' : List (KeyValue Node)} (start stop start' stop' : Nat)
      (h : List.Forall₂ (KeyValue.Rel (Copy literal src src')) pairs pairs') :
      Copy literal src src' (.map pairs start stop) (.map pairs' start' stop')

/-- A pair and a copy of it. -/
abbrev KeyValue.Copy (literal : Prop) (src src' : Source) : Pair → Pair → Prop :=
  KeyValue.Rel (Node.Copy literal src src')

namespace Node

variable {literal : Prop} {src src' : Source} {n n' : Node}

/-- **Induction along a copy.** -/
theorem Copy.induction {P : Node → Node → Prop}
    (scalar : ∀ s s', Scalar.Copy literal src src' s s' → P (.scalar s) (.scalar s'))
    (seq : ∀ items items' start stop start' stop',
      List.Forall₂ (fun m m' => Copy literal src src' m m' ∧ P m m') items items' →
      P (.seq items start stop) (.seq items' start' stop'))
    (map : ∀ pairs pairs' start stop start' stop',
      List.Forall₂ (KeyValue.Rel fun m m' => Copy literal src src' m m' ∧ P m m') pairs pairs' →
      P (.map pairs start stop) (.map pairs' start' stop'))
    (h : Copy literal src src' n n') : P n n' := by
  refine @Copy.rec literal src src' (fun m m' _ => P m m')
    (fun items items' _ =>
      List.Forall₂ (fun m m' => Copy literal src src' m m' ∧ P m m') items items')
    (fun pairs pairs' _ =>
      List.Forall₂ (KeyValue.Rel fun m m' => Copy literal src src' m m' ∧ P m m') pairs pairs')
    (fun p p' _ => KeyValue.Rel (fun m m' => Copy literal src src' m m' ∧ P m m') p p')
    (fun v v' _ => Option.Rel (fun m m' => Copy literal src src' m m' ∧ P m m') v v')
    ?_ ?_ ?_ ?_ ?_ ?_ ?_ ?_ ?_ ?_ n n' h
  · exact fun hs => scalar _ _ hs
  · exact fun start stop start' stop' _ ih => seq _ _ start stop start' stop' ih
  · exact fun start stop start' stop' _ ih => map _ _ start stop start' stop' ih
  · exact .nil
  · exact fun hm _ ihm ih => .cons ⟨hm, ihm⟩ ih
  · exact .nil
  · exact fun _ _ ihp ih => .cons ihp ih
  · exact fun comment hkey _ ihkey ihvalue => .intro comment ⟨hkey, ihkey⟩ ihvalue
  · exact fun hm ihm => .some ⟨hm, ihm⟩
  · exact .none

/-- A node is a copy of itself. -/
theorem Copy.refl (literal : Prop) (src : Source) (n : Node) : Copy literal src src n n := by
  induction n using Node.height_induction with
  | step n ih =>
    cases n with
    | scalar s => exact .scalar ⟨rfl, rfl, fun _ => ⟨rfl, fun _ => rfl, fun _ => rfl⟩⟩
    | seq items start stop =>
      refine .seq start stop start stop (List.forall₂_same.mpr fun m hm => ?_)
      exact ih m (height_item_lt hm start stop)
    | map pairs start stop =>
      refine .map start stop start stop (List.forall₂_same.mpr fun p hp => ?_)
      have hkey : p.key.height < (Node.map pairs start stop).height := by
        simp only [height]
        exact Nat.lt_succ_of_le (height_key_le hp)
      obtain ⟨key, value, comment⟩ := p
      refine .intro comment (ih key hkey) ?_
      cases value with
      | none => exact .none
      | some v => exact .some (ih v (height_value_lt hp rfl start stop))

/-! ## What a node stands for -/

theorem pairValues_cons (p : Pair) (pairs : List Pair) (entries : List (String × Value)) :
    pairValues (p :: pairs) entries =
      pairValues pairs (Entries.insert p.keyText ((p.value.map toValue).getD .null) entries) := by
  obtain ⟨key, value, comment⟩ := p
  cases key <;> cases value <;> rfl

theorem pairsHaveTextKeys_cons (p : Pair) (pairs : List Pair) :
    pairsHaveTextKeys (p :: pairs) =
      (p.key.isTextKey && (p.value.map hasTextKeys).getD true && pairsHaveTextKeys pairs) := by
  obtain ⟨key, value, comment⟩ := p
  cases value <;> rfl

theorem Copy.isScalar_eq (h : Copy literal src src' n n') : n.isScalar = n'.isScalar := by
  cases h <;> rfl

theorem keyText_eq_of_toValue (h : Copy literal src src' n n') (hvalue : n.toValue = n'.toValue) :
    n.keyText = n'.keyText := by
  cases h with
  | scalar hs => exact hs.text
  | seq => exact congrArg Value.text hvalue
  | map => exact congrArg Value.text hvalue

/-- A copy stands for the same value. -/
theorem Copy.toValue_eq (h : Copy literal src src' n n') : n.toValue = n'.toValue := by
  refine Copy.induction (P := fun n n' => n.toValue = n'.toValue) ?_ ?_ ?_ h
  · exact fun s s' hs => hs.value
  · intro items items' _ _ _ _ h
    simp only [toValue, Value.list.injEq]
    induction h with
    | nil => rfl
    | cons hm _ ih => simp only [itemValues, hm.2, ih]
  · intro pairs pairs' _ _ _ _ h
    simp only [toValue, Value.dict.injEq]
    suffices ∀ entries, pairValues pairs entries = pairValues pairs' entries from this []
    induction h with
    | nil => exact fun _ => rfl
    | @cons p p' ps ps' hp _ ih =>
      intro entries
      obtain ⟨comment, hkey, hvalue⟩ := hp
      rw [pairValues_cons, pairValues_cons, ih]
      congr 2
      · exact keyText_eq_of_toValue hkey.1 hkey.2
      · cases hvalue with
        | none => rfl
        | some h => exact h.2

theorem Copy.keyText_eq (h : Copy literal src src' n n') : n.keyText = n'.keyText :=
  keyText_eq_of_toValue h h.toValue_eq

/-- The keys in a copy can be written as text as well as those in the node. -/
theorem Copy.hasTextKeys_eq (h : Copy literal src src' n n') : n.hasTextKeys = n'.hasTextKeys := by
  refine Copy.induction (P := fun n n' => n.hasTextKeys = n'.hasTextKeys) ?_ ?_ ?_ h
  · exact fun _ _ _ => rfl
  · intro items items' _ _ _ _ h
    simp only [hasTextKeys]
    induction h with
    | nil => rfl
    | cons hm _ ih => simp only [itemsHaveTextKeys, hm.2, ih]
  · intro pairs pairs' _ _ _ _ h
    simp only [hasTextKeys]
    induction h with
    | nil => rfl
    | @cons p p' ps ps' hp _ ih =>
      obtain ⟨comment, hkey, hvalue⟩ := hp
      rw [pairsHaveTextKeys_cons, pairsHaveTextKeys_cons, ih]
      congr 2
      · simp only [isTextKey, hkey.1.isScalar_eq, hkey.1.toValue_eq, hkey.2]
      · cases hvalue with
        | none => rfl
        | some h => exact h.2

theorem Copy.isTextKey_eq (h : Copy literal src src' n n') : n.isTextKey = n'.isTextKey := by
  simp only [isTextKey, h.isScalar_eq, h.toValue_eq, h.hasTextKeys_eq]

end Node

/-! ## Heights -/

namespace Node

variable {literal : Prop} {src src' : Source} {n n' : Node}

theorem Copy.height_eq (h : Copy literal src src' n n') : n.height = n'.height := by
  refine Copy.induction (P := fun n n' => n.height = n'.height) ?_ ?_ ?_ h
  · exact fun _ _ _ => rfl
  · intro items items' _ _ _ _ h
    simp only [height]
    induction h with
    | nil => rfl
    | cons hm _ ih =>
      simp only [itemsHeight, hm.2]
      omega
  · intro pairs pairs' _ _ _ _ h
    simp only [height]
    induction h with
    | nil => rfl
    | @cons p p' ps ps' hp _ ih =>
      obtain ⟨comment, hkey, hvalue⟩ := hp
      rw [pairsHeight_cons, pairsHeight_cons, hkey.2]
      cases hvalue with
      | none => simp only [Option.map_none]; omega
      | some h => simp only [Option.map_some, h.2]; omega

end Node

/-! ## The pairs that hold a key -/

section

variable {literal : Prop} {src src' : Source} {pairs pairs' : List Pair}

theorem KeyValue.Rel.key {R : Node → Node → Prop} {p p' : Pair} (h : p.Rel R p') :
    R p.key p'.key := by
  obtain ⟨comment, hkey, hvalue⟩ := h
  exact hkey

theorem KeyValue.Rel.value {R : Node → Node → Prop} {p p' : Pair} (h : p.Rel R p') :
    Option.Rel R p.value p'.value := by
  obtain ⟨comment, hkey, hvalue⟩ := h
  exact hvalue

theorem KeyValue.Rel.imp {R S : Node → Node → Prop} (hRS : ∀ n n', R n n' → S n n') {p p' : Pair}
    (h : p.Rel R p') : p.Rel S p' := by
  obtain ⟨comment, hkey, hvalue⟩ := h
  exact .intro comment (hRS _ _ hkey) (optionRel_imp hvalue fun n n' _ _ => hRS n n')

theorem KeyValue.Rel.keyText_eq {p p' : Pair} (h : KeyValue.Copy literal src src' p p') :
    p.keyText = p'.keyText :=
  h.key.keyText_eq

theorem pairsNamed_copy (h : List.Forall₂ (KeyValue.Copy literal src src') pairs pairs')
    (key : String) :
    List.Forall₂ (KeyValue.Copy literal src src') (pairsNamed pairs key)
      (pairsNamed pairs' key) := by
  refine List.rel_filter (fun p p' hp => ?_) h
  beta_reduce
  rw [hp.key.isScalar_eq, hp.keyText_eq]

theorem mapsUnder_copy (h : List.Forall₂ (KeyValue.Copy literal src src') pairs pairs')
    (key : String) :
    List.Forall₂ (List.Forall₂ (KeyValue.Copy literal src src')) (mapsUnder pairs key)
      (mapsUnder pairs' key) := by
  refine List.rel_filterMap (fun p p' hp => ?_) h
  rw [hp.keyText_eq]
  by_cases hkey : p'.keyText = key
  · rw [if_pos hkey, if_pos hkey]
    have hvalue := hp.value
    generalize p.value = v, p'.value = v' at hvalue
    cases hvalue with
    | none => exact .none
    | some hn =>
      cases hn with
      | scalar => exact .none
      | seq => exact .none
      | map _ _ _ _ h => exact .some h
  · rw [if_neg hkey, if_neg hkey]
    exact .none

theorem pairsBelow_copy (h : List.Forall₂ (KeyValue.Copy literal src src') pairs pairs')
    (front : List Char) (segments : List (List Char)) :
    List.Forall₂ (KeyValue.Copy literal src src') (pairsBelow pairs front segments)
      (pairsBelow pairs' front segments) := by
  induction segments generalizing pairs pairs' front with
  | nil => exact .nil
  | cons s rest ih =>
    unfold pairsBelow
    simp only
    split
    · exact .nil
    · refine List.rel_append ?_ (ih h _)
      refine List.rel_flatMap (mapsUnder_copy h _) fun inner inner' hinner => ?_
      exact List.rel_append (pairsNamed_copy hinner _) (ih hinner _)

/-- **A dotted key leads to copies of the same pairs.** -/
theorem findPairs_copy (h : List.Forall₂ (KeyValue.Copy literal src src') pairs pairs')
    (key : String) :
    List.Forall₂ (KeyValue.Copy literal src src') (findPairs pairs key) (findPairs pairs' key) :=
  List.rel_append (pairsNamed_copy h key) (pairsBelow_copy h [] _)

end

end PackLint
