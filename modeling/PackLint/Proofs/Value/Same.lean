import PackLint.Value
import PackLint.Proofs.Entries
import PackLint.Proofs.Number.Exact
import PackLint.Proofs.Tree.Copy
import PackLint.Proofs.Tree.Within
import PackLint.Proofs.Tree.Unfolding
import PackLint.Proofs.Yaml.Decoding
import Mathlib.Data.Set.Card

/-!
# What values mean

The comparison of values goes by kinds: numbers by their size, moments by when they are, lists item
by item, and dictionaries by what they have under each key. Each value has a `Meaning` in which none
of this is left to the comparison, so that the values which are the same are those that mean the
same. Dictionaries have to be such that no key stands twice in them, as in what a tree stands for:
the value of a scalar that is read holds no other values, and a map is made by insertions.

Results:
* `Value.same_iff`: two values are the same iff they mean the same, unless they are no numbers.
* `Value.same_self`, `Value.same_symm`, `Value.same_trans`: so this is an equivalence.
* `Value.distinctCount_eq`: values of which no two are the same count those that they cover.
* `Node.hasAtoms_of_load`: scalars hold atoms in every tree that is loaded, and
  `Node.keysApart_toValue`: what such a tree stands for has its keys apart.
-/

namespace PackLint

/-- What a value means: a number its place, a moment when it is, and a dictionary what it has under
each key. -/
inductive Meaning where
  | null
  | number (place : Option (WithBot (WithTop ℚ)))
  | str (s : String)
  | bytes (bs : List UInt8)
  | date (d : Date)
  | moment (universal : Bool) (microseconds : Int)
  | list (items : List Meaning)
  | dict (under : String → Option Meaning)

/-- When a moment is, by universal time if it is tied to it and else by its clock. -/
def DateTime.instant (t : DateTime) : Int :=
  t.clock - t.offset.getD 0 * 60000000

theorem DateTime.same_iff {t u : DateTime} :
    t.same u = true ↔ t.offset.isSome = u.offset.isSome ∧ t.instant = u.instant := by
  unfold same instant
  cases t.offset <;> cases u.offset <;> simp

namespace Value

mutual

/-- What a value means. -/
def meaning : Value → Meaning
  | null => .null
  | bool b => .number (Number.int (if b then 1 else 0)).place?
  | number n => .number n.place?
  | str s => .str s
  | bytes bs => .bytes bs
  | date d => .date d
  | dateTime t => .moment t.offset.isSome t.instant
  | list vs => .list (itemMeanings vs)
  | dict es => .dict fun key => (entryMeanings es).lookup key

/-- What values mean. -/
def itemMeanings : List Value → List Meaning
  | [] => []
  | v :: vs => meaning v :: itemMeanings vs

/-- What the values of entries mean. -/
def entryMeanings : List (String × Value) → List (String × Meaning)
  | [] => []
  | (k, v) :: es => (k, meaning v) :: entryMeanings es

end

/-- A value that holds no others. -/
def isAtom : Value → Bool
  | list _ | dict _ => false
  | _ => true

/-- In every dictionary of a value each key stands once. -/
inductive KeysApart : Value → Prop
  | atom {v : Value} (h : v.isAtom) : KeysApart v
  | list {vs : List Value} (h : ∀ v ∈ vs, KeysApart v) : KeysApart (list vs)
  | dict {es : List (String × Value)} (hkeys : (es.map Prod.fst).Nodup)
      (h : ∀ e ∈ es, KeysApart e.2) : KeysApart (dict es)

theorem itemMeanings_eq (vs : List Value) : itemMeanings vs = vs.map meaning := by
  induction vs with
  | nil => rfl
  | cons v vs ih => rw [itemMeanings, ih, List.map_cons]

theorem lookup_entryMeanings (es : List (String × Value)) (key : String) :
    (entryMeanings es).lookup key = (es.lookup key).map meaning := by
  induction es with
  | nil => rfl
  | cons e es ih =>
    obtain ⟨k, v⟩ := e
    rw [entryMeanings, List.lookup_cons, List.lookup_cons, ih]
    cases key == k <;> rfl

theorem isNan_number (n : Number) : (number n).isNan = !n.isNumber := by
  rcases n with n | _ | s | ⟨s, m, e⟩ <;> rfl

theorem isNan_iff {v : Value} : v.isNan = true ↔ v.meaning = .number none := by
  cases v with
  | number n => simp [isNan_number, meaning, ← Number.isSome_place?]
  | _ => simp [isNan, meaning, Number.place?]

/-! ## The comparison -/

/-- Inside a collection what is no number is the same as itself. -/
def sameInside (v w : Value) : Bool :=
  v.isNan && w.isNan || same v w

theorem sameItems_iff {vs ws : List Value} :
    sameItems vs ws = true ↔ List.Forall₂ (fun v w => sameInside v w = true) vs ws := by
  induction vs generalizing ws with
  | nil => cases ws <;> simp [sameItems]
  | cons v vs ih =>
    cases ws with
    | nil => simp [sameItems]
    | cons w ws => rw [sameItems, Bool.and_eq_true, ih, List.forall₂_cons, sameInside]

theorem sameEntries_iff {es fs : List (String × Value)} :
    sameEntries es fs = true ↔
      ∀ e ∈ es, ∃ w, fs.lookup e.1 = some w ∧ sameInside e.2 w = true := by
  induction es with
  | nil => simp [sameEntries]
  | cons e es ih =>
    obtain ⟨k, v⟩ := e
    rw [sameEntries, Bool.and_eq_true, ih, List.forall_mem_cons]
    cases fs.lookup k <;> simp [sameInside]

theorem same_of_isAtom {v : Value} (hv : v.isAtom) (w : Value) : same v w = sameAtom v w := by
  cases v with
  | list vs => cases hv
  | dict es => cases hv
  | _ => simp [same]

theorem sameAtom_iff {v w : Value} (hv : v.isAtom) :
    sameAtom v w = true ↔ v.isNan = false ∧ v.meaning = w.meaning := by
  have hint : ∀ n : Int, (Number.int n).isNumber = true := fun _ => rfl
  cases v with
  | list vs => cases hv
  | dict es => cases hv
  | number a =>
    cases w <;> simp [sameAtom, number?, meaning, isNan_number, Number.eq_iff_place]
  | bool b =>
    cases w <;> simp [sameAtom, number?, meaning, isNan, Number.eq_iff_place, hint]
  | _ => cases w <;> simp [sameAtom, number?, meaning, isNan, DateTime.same_iff]

/-! ## Values that mean the same -/

section Members

variable {vs ws : List Value} {es fs : List (String × Value)}

theorem sameItems_iff_map (h : ∀ v ∈ vs, ∀ w ∈ ws, sameInside v w = true ↔ v.meaning = w.meaning) :
    sameItems vs ws = true ↔ vs.map meaning = ws.map meaning := by
  rw [sameItems_iff]
  induction vs generalizing ws with
  | nil => cases ws <;> simp
  | cons v vs ih =>
    cases ws with
    | nil => simp
    | cons w ws =>
      have hrest := ih fun v' hv' w' hw' =>
        h v' (List.mem_cons_of_mem _ hv') w' (List.mem_cons_of_mem _ hw')
      rw [List.forall₂_cons, hrest, h v List.mem_cons_self w List.mem_cons_self]
      simp

/-- Dictionaries are the same iff they have the same under each key: as many keys, all of them found
in the other, leave no other keys to the other. -/
theorem sameEntries_iff_lookup (hes : (es.map Prod.fst).Nodup) (hfs : (fs.map Prod.fst).Nodup)
    (h : ∀ e ∈ es, ∀ f ∈ fs, sameInside e.2 f.2 = true ↔ e.2.meaning = f.2.meaning) :
    (es.length = fs.length ∧ sameEntries es fs = true) ↔
      ∀ key, (es.lookup key).map meaning = (fs.lookup key).map meaning := by
  have hentry : ∀ {k v w}, (k, v) ∈ es → fs.lookup k = some w →
      (sameInside v w = true ↔ v.meaning = w.meaning) := fun hv hw =>
    h _ hv (_, _) ((Entries.lookup_eq_some_iff hfs).mp hw)
  rw [sameEntries_iff]
  constructor
  · rintro ⟨hlength, hfound⟩ key
    have hsubset : es.map Prod.fst ⊆ fs.map Prod.fst := by
      intro k hk
      obtain ⟨e, he, rfl⟩ := List.mem_map.mp hk
      obtain ⟨w, hw, -⟩ := hfound e he
      exact (Entries.isSome_lookup_iff hfs).mp (hw ▸ rfl)
    have hperm : (es.map Prod.fst).Perm (fs.map Prod.fst) :=
      (List.subperm_of_subset hes hsubset).perm_of_length_le (by simp [hlength])
    cases hv : es.lookup key with
    | some v =>
      have hmem := (Entries.lookup_eq_some_iff hes).mp hv
      obtain ⟨w, hw, hsame⟩ := hfound _ hmem
      rw [hw, Option.map_some, Option.map_some, (hentry hmem hw).mp hsame]
    | none =>
      have hnot : key ∉ fs.map Prod.fst := by
        rw [← hperm.mem_iff, ← Entries.isSome_lookup_iff hes, hv]
        exact Bool.false_ne_true
      rw [← Entries.isSome_lookup_iff hfs, Option.not_isSome_iff_eq_none] at hnot
      rw [hnot]
  · intro hlookup
    have hperm : (es.map Prod.fst).Perm (fs.map Prod.fst) := by
      refine (List.perm_ext_iff_of_nodup hes hfs).mpr fun key => ?_
      rw [← Entries.isSome_lookup_iff hes, ← Entries.isSome_lookup_iff hfs,
        ← Option.isSome_map (f := meaning), hlookup, Option.isSome_map]
    refine ⟨by simpa using hperm.length_eq, fun e he => ?_⟩
    have hv := (Entries.lookup_eq_some_iff hes).mpr he
    have hmap := hlookup e.1
    rw [hv, Option.map_some] at hmap
    obtain ⟨w, hw, hmeaning⟩ := Option.map_eq_some_iff.mp hmap.symm
    exact ⟨w, hw, (hentry he hw).mpr hmeaning.symm⟩

end Members

theorem sameInside_iff {v w : Value}
    (h : same v w = true ↔ v.isNan = false ∧ v.meaning = w.meaning) :
    sameInside v w = true ↔ v.meaning = w.meaning := by
  unfold sameInside
  rw [Bool.or_eq_true, Bool.and_eq_true, h, isNan_iff, isNan_iff]
  constructor
  · rintro (⟨hv, hw⟩ | ⟨-, h⟩)
    · rw [hv, hw]
    · exact h
  · intro h
    cases hv : v.isNan with
    | false => exact .inr ⟨rfl, h⟩
    | true =>
      have hv := isNan_iff.mp hv
      exact .inl ⟨hv, h ▸ hv⟩

/-- **Two values are the same iff they mean the same**, unless they are no numbers at all. -/
theorem same_iff {v w : Value} (hv : v.KeysApart) (hw : w.KeysApart) :
    same v w = true ↔ v.isNan = false ∧ v.meaning = w.meaning := by
  induction hv generalizing w with
  | @atom v hatom =>
    rw [same_of_isAtom hatom, sameAtom_iff hatom]
  | @list vs _ ih =>
    cases w with
    | list ws =>
      cases hw with
      | atom h => cases h
      | list hws =>
        have hitems := sameItems_iff_map fun v hv w hw => sameInside_iff (ih v hv (hws w hw))
        simp only [same, isNan, meaning, itemMeanings_eq, Meaning.list.injEq, true_and, hitems]
    | _ => simp [same, isNan, meaning]
  | @dict es hes _ ih =>
    cases w with
    | dict fs =>
      cases hw with
      | atom h => cases h
      | dict hfs hw =>
        have hentries := sameEntries_iff_lookup hes hfs fun e he f hf =>
          sameInside_iff (ih e he (hw f hf))
        simp only [same, isNan, meaning, lookup_entryMeanings, Meaning.dict.injEq, true_and,
          Bool.and_eq_true, decide_eq_true_eq, hentries, funext_iff]
    | _ => simp [same, isNan, meaning]

/-! ## An equivalence -/

section Equivalence

variable {u v w : Value}

theorem same_self (hv : v.KeysApart) (hnan : v.isNan = false) : same v v = true :=
  (same_iff hv hv).mpr ⟨hnan, rfl⟩

theorem same_symm (hv : v.KeysApart) (hw : w.KeysApart) (h : same v w = true) :
    same w v = true := by
  obtain ⟨hnan, hmeaning⟩ := (same_iff hv hw).mp h
  refine (same_iff hw hv).mpr ⟨?_, hmeaning.symm⟩
  rwa [← Bool.not_eq_true, isNan_iff, ← hmeaning, ← isNan_iff, Bool.not_eq_true]

theorem eq_null_of_same (h : same v null = true) : v = null := by
  cases v <;> simp [same, sameAtom, number?] at h ⊢

theorem same_trans (hu : u.KeysApart) (hv : v.KeysApart) (hw : w.KeysApart)
    (h : same u v = true) (h' : same v w = true) : same u w = true := by
  obtain ⟨hnan, hmeaning⟩ := (same_iff hu hv).mp h
  exact (same_iff hu hw).mpr ⟨hnan, hmeaning.trans ((same_iff hv hw).mp h').2⟩

end Equivalence

/-! ## How many values there are -/

/-- The values among some that are the same as `v`. -/
def sameAmong (vs : List Value) (v : Value) : Set Value := {w | w ∈ vs ∧ same v w = true}

/-- The number of distinct values among some, those that are the same counted once. -/
noncomputable def distinctCount (vs : List Value) : Nat :=
  {c | ∃ v ∈ vs, c = sameAmong vs v}.ncard

/-- Values of which no two are the same count those that they cover. -/
theorem distinctCount_eq {vs reps : List Value} (hkeys : ∀ v ∈ vs, v.KeysApart)
    (hnan : ∀ v ∈ vs, v.isNan = false) (hreps : reps ⊆ vs)
    (hapart : reps.Pairwise fun v w => same v w = false)
    (hcover : ∀ v ∈ vs, ∃ w ∈ reps, same v w = true) : distinctCount vs = reps.length := by
  classical
  have hclass : ∀ {v w}, v ∈ vs → w ∈ vs →
      (sameAmong vs v = sameAmong vs w ↔ same v w = true) := by
    intro v w hv hw
    constructor
    · intro h
      have hself : w ∈ sameAmong vs w := ⟨hw, same_self (hkeys w hw) (hnan w hw)⟩
      exact (h ▸ hself).2
    · intro h
      have hback := same_symm (hkeys v hv) (hkeys w hw) h
      ext u
      exact and_congr_right fun hu =>
        ⟨same_trans (hkeys w hw) (hkeys v hv) (hkeys u hu) hback,
          same_trans (hkeys v hv) (hkeys w hw) (hkeys u hu) h⟩
  have hnodup : (reps.map (sameAmong vs)).Nodup := by
    refine List.pairwise_map.mpr (hapart.imp_of_mem fun hv hw h heq => ?_)
    exact Bool.false_ne_true (h.symm.trans ((hclass (hreps hv) (hreps hw)).mp heq))
  have hset : {c | ∃ v ∈ vs, c = sameAmong vs v} =
      ((reps.map (sameAmong vs)).toFinset : Set _) := by
    ext c
    simp only [Set.mem_ofPred_eq, List.coe_toFinset, List.mem_map]
    constructor
    · rintro ⟨v, hv, rfl⟩
      obtain ⟨w, hw, hsame⟩ := hcover v hv
      exact ⟨w, hw, ((hclass hv (hreps hw)).mpr hsame).symm⟩
    · rintro ⟨w, hw, rfl⟩
      exact ⟨w, hreps hw, rfl⟩
  rw [distinctCount, hset, Set.ncard_coe_finset, List.toFinset_card_of_nodup hnodup,
    List.length_map]

end Value

/-! ## Trees -/

open Value (KeysApart)

namespace Node

/-- The scalars within a node hold no other values. -/
def HasAtoms (n : Node) : Prop :=
  ∀ s : Scalar, (Node.scalar s).Within n → s.value.isAtom

theorem downClosed_hasAtoms : DownClosed HasAtoms where
  item h _ hm s hs := h s (.item hm hs)
  value h _ hp _ hm s hs := h s (.value hp hm hs)

@[simp] theorem hasAtoms_scalar {s : Scalar} :
    (scalar s).HasAtoms ↔ s.value.isAtom = true := by
  constructor
  · exact fun h => h s .refl
  · intro h t ht
    cases ht
    exact h

@[simp] theorem hasAtoms_seq {items : List Node} {start stop : Nat} :
    (seq items start stop).HasAtoms ↔ ∀ n ∈ items, n.HasAtoms := by
  constructor
  · exact downClosed_hasAtoms.item
  · intro h s hs
    cases hs with
    | item hm hs => exact h _ hm s hs

@[simp] theorem hasAtoms_map {pairs : List Pair} {start stop : Nat} :
    (map pairs start stop).HasAtoms ↔ ∀ p ∈ pairs, ∀ n ∈ p.value, n.HasAtoms := by
  constructor
  · exact downClosed_hasAtoms.value
  · intro h s hs
    cases hs with
    | value hp hm hs => exact h _ hp _ hm s hs

theorem itemValues_eq (items : List Node) : itemValues items = items.map toValue := by
  induction items with
  | nil => rfl
  | cons n items ih => rw [itemValues, ih, List.map_cons]

/-- Pairs are put behind the others by insertions. -/
theorem pairValues_eq (pairs : List Pair) (entries : List (String × Value)) :
    pairValues pairs entries = Entries.insertAll entries
      (pairs.map fun p => (p.keyText, (p.value.map toValue).getD .null)) := by
  induction pairs generalizing entries with
  | nil => rfl
  | cons p pairs ih =>
    rw [pairValues_cons, ih]
    rfl

/-- What a node stands for has its keys apart. -/
theorem keysApart_toValue {n : Node} (h : n.HasAtoms) : n.toValue.KeysApart := by
  induction n using height_induction with
  | step n ih =>
    cases n with
    | scalar s => exact .atom (hasAtoms_scalar.mp h)
    | seq items start stop =>
      rw [toValue, itemValues_eq]
      refine .list fun v hv => ?_
      obtain ⟨m, hm, rfl⟩ := List.mem_map.mp hv
      exact ih m (height_item_lt hm start stop) (hasAtoms_seq.mp h m hm)
    | map pairs start stop =>
      rw [toValue, pairValues_eq]
      refine .dict (Entries.nodup_insertAll List.nodup_nil) fun e he => ?_
      obtain ⟨p, hp, rfl⟩ := List.mem_map.mp ((Entries.mem_insertAll he).resolve_left (by simp))
      cases hv : p.value with
      | none => exact .atom rfl
      | some m =>
        exact ih m (height_value_lt hp hv start stop) (hasAtoms_map.mp h p hp m hv)

end Node

/-! ## Trees that are read -/

namespace Yaml

theorem isAtom_of_decodeScalar {version : Version} {tag : ScalarTag} {text : List Char}
    {start : Mark} {value : Value} (h : decodeScalar version tag text start = .ok value) :
    value.isAtom := by
  cases decodeScalar_eq_ok_iff.mp h <;> rfl

end Yaml

/-- **Scalars hold atoms in every tree that is loaded.** -/
theorem Node.hasAtoms_of_load {limits : Limits} {src : Source} {n : Node}
    (h : load limits src = .ok (some n)) : n.HasAtoms := by
  intro s hs
  obtain ⟨g, number, -, hunfolds⟩ := exists_unfolds_of_load h hs
  cases hunfolds with
  | scalar hnode hvalue => exact Yaml.isAtom_of_decodeScalar hvalue

end PackLint
