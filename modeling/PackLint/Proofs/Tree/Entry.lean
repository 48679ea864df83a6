import PackLint.Proofs.Entries
import PackLint.Proofs.Tree.Dotted
import PackLint.Proofs.Tree.Within

/-!
# Entries

The entries of a file are its top-level pairs. Where their keys are different scalars without dots,
a dotted key that begins with the key of an entry is held inside of this entry and of no other.

Results:
* `EntryKeys.findPairs_perm`: such a key is looked up in its entry alone.
-/

namespace PackLint

/-- The keys of the pairs are scalars without dots, each another one. -/
structure EntryKeys (pairs : List Pair) : Prop where
  scalar : ∀ p ∈ pairs, p.key.isScalar
  dotFree : ∀ p ∈ pairs, DotFree p.keyText
  nodup : (pairs.map (·.keyText)).Nodup

instance (pairs : List Pair) : Decidable (EntryKeys pairs) :=
  decidable_of_iff ((∀ p ∈ pairs, p.key.isScalar) ∧ (∀ p ∈ pairs, DotFree p.keyText) ∧
    (pairs.map (·.keyText)).Nodup) ⟨fun h => ⟨h.1, h.2.1, h.2.2⟩, fun h => ⟨h.1, h.2, h.3⟩⟩

theorem findPairs_perm_flatMap (pairs : List Pair) (key : String) :
    (findPairs pairs key).Perm (pairs.flatMap fun p => findPairs [p] key) := by
  induction pairs with
  | nil =>
    rw [findPairs_nil]
    exact .nil
  | cons p pairs ih =>
    rw [List.flatMap_cons]
    exact (findPairs_cons_perm p pairs key).trans (ih.append_left _)

/-- Below another segment a pair holds nothing. -/
theorem findPairs_singleton_of_ne {p : Pair} {key : String} (hscalar : p.key.isScalar)
    (hp : DotFree p.keyText) (hkey : DotFree key) (hne : p.keyText ≠ key) (name : String) :
    findPairs [p] (key ++ "." ++ name) = [] := by
  obtain ⟨ws, hws, hfree, rfl⟩ := exists_dotted name
  have hcons : ∀ w ∈ key :: ws, DotFree w := List.forall_mem_cons.mpr ⟨hkey, hfree⟩
  have hdotted : p.keyText = dotted [p.keyText] := rfl
  rw [← dotted_cons key hws, findPairs_singleton (List.forall_mem_singleton.mpr hp) hcons
    (List.cons_ne_nil _ _) (List.cons_ne_nil _ _) hscalar hdotted,
    if_neg fun h => hne (List.cons_eq_cons.mp h).1, if_neg fun h =>
    hne (List.cons_prefix_cons.mp h).1]

namespace EntryKeys

variable {pairs : List Pair} {p : Pair}

theorem singleton (h : EntryKeys pairs) (hp : p ∈ pairs) : EntryKeys [p] where
  scalar := List.forall_mem_singleton.mpr (h.scalar p hp)
  dotFree := List.forall_mem_singleton.mpr (h.dotFree p hp)
  nodup := List.nodup_singleton _

/-- **What begins with the key of an entry is looked up in this entry alone.** -/
theorem findPairs_perm (h : EntryKeys pairs) (hp : p ∈ pairs) (name : String) :
    (findPairs pairs (p.keyText ++ "." ++ name)).Perm
      (findPairs [p] (p.keyText ++ "." ++ name)) := by
  refine (findPairs_perm_flatMap _ _).trans (.of_eq ?_)
  exact flatMap_of_nodup_map h.nodup hp fun q hq hne =>
    findPairs_singleton_of_ne (h.scalar q hq) (h.dotFree q hq) (h.dotFree p hp) hne name

end EntryKeys

/-! ## Places -/

/-- The values of the pairs of a map that starts at `start` stand behind its start and one behind
the other, with all nodes within them. -/
structure EntriesApart (start : Nat) (pairs : List Pair) : Prop where
  behind : ∀ p ∈ pairs, ∀ v ∈ p.value, start < v.start
  apart : pairs.Pairwise fun p q => ∀ v ∈ p.value, ∀ w ∈ q.value,
    (∀ n : Node, n.Within v → n.start < w.start) ∧ ∀ n : Node, n.Within w → v.stop < n.stop

/-- A node encloses another one if it starts no later and stops no earlier. -/
abbrev Node.Encloses (m n : Node) : Prop := m.start ≤ n.start ∧ n.stop ≤ m.stop

namespace EntriesApart

variable {start stop : Nat} {before behind : List Pair} {p q : Pair} {n v : Node}

/-- The values of other pairs do not enclose the nodes in the value of a pair. -/
theorem not_encloses (h : EntriesApart start (before ++ p :: behind)) (hp : n ∈ p.value)
    {m : Node} (hm : m.Within n) (hq : q ∈ before ++ behind) (hv : v ∈ q.value) :
    ¬ v.Encloses m := by
  rintro ⟨hstart, hstop⟩
  obtain ⟨-, hpairs, hbefore⟩ := List.pairwise_append.mp h.apart
  rcases List.mem_append.mp hq with hq | hq
  · have := (hbefore q hq p List.mem_cons_self v hv n hp).2 m hm
    omega
  · have := ((List.pairwise_cons.mp hpairs).1 q hq n hp v hv).1 m hm
    omega

/-- No value encloses the map itself. -/
theorem not_encloses_map {pairs qs : List Pair} (h : EntriesApart start pairs) (hq : q ∈ pairs)
    (hv : v ∈ q.value) : ¬ v.Encloses (.map qs start stop) := by
  rintro ⟨hstart, -⟩
  have hlt := h.behind q hq v hv
  exact absurd hstart (Nat.not_le.mpr hlt)

end EntriesApart

end PackLint
