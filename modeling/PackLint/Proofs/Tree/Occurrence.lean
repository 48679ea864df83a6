import PackLint.Proofs.Entries
import PackLint.Proofs.Tree.Dotted
import PackLint.Proofs.Tree.Height

/-!
# Pairs and where they stand

`Node.occurrences` walks over a map and the maps inside of it and lists every pair with its path,
the keys that lead to it with dots between them. The same pair may stand at several places, and each
of them is an occurrence of its own.

The search for a dotted key cuts the key in all possible ways. Cut or walked, the pairs are the
same: a key and a path are equal iff they have the same segments, and then there is one way only to
spread the segments over the pairs that lead to the place.

Results:
* `findPairs_perm`: a search finds the pairs at the places with the path.
* `flatMap_placesNamed_perm`: lists of names that share no place divide the places.
* `flatMap_findPairs_perm`: a search under several names finds each pair once.
-/

namespace PackLint

/-- A place in a map: the keys that lead to it, joined by dots, and the pair that stands there. -/
structure Occurrence where
  path : String
  pair : Pair

/-- The place, seen from a map that has its map under `key`. -/
def Occurrence.below (key : String) (o : Occurrence) : Occurrence :=
  { o with path := key ++ "." ++ o.path }

mutual

/-- The places in a map and in the maps inside of it, from top to bottom. -/
def Node.occurrences : Node → List Occurrence
  | .map pairs _ _ => Node.pairOccurrences pairs
  | _ => []

/-- The places in a map with some pairs. -/
def Node.pairOccurrences : List (KeyValue Node) → List Occurrence
  | [] => []
  | ⟨key, value, comment⟩ :: pairs =>
    let inside := match value with
      | some n => Node.occurrences n
      | none => []
    ⟨key.keyText, ⟨key, value, comment⟩⟩ :: inside.map (.below key.keyText) ++
      Node.pairOccurrences pairs

end

/-- The places inside of the value of a pair. -/
def KeyValue.inside (p : Pair) : List Occurrence := (p.value.map Node.occurrences).getD []

/-- The places of a pair and of those inside of its value. -/
def KeyValue.places (p : Pair) : List Occurrence :=
  ⟨p.keyText, p⟩ :: p.inside.map (.below p.keyText)

namespace Occurrence

/-- A search comes to pairs with scalars as keys only. -/
def Named (o : Occurrence) (names : List String) : Prop :=
  o.pair.key.isScalar ∧ o.path ∈ names

instance (o : Occurrence) (names : List String) : Decidable (o.Named names) := instDecidableAnd

end Occurrence

/-- The places that have one of the names. -/
def placesNamed (names : List String) (os : List Occurrence) : List Occurrence :=
  os.filter (·.Named names)

open Node

variable {p : Pair} {ps pairs : List Pair} {us ns : List String} {key : String}

theorem pairOccurrences_cons (p : Pair) (ps : List Pair) :
    pairOccurrences (p :: ps) = p.places ++ pairOccurrences ps := by
  obtain ⟨key, value, comment⟩ := p
  cases value <;> simp only [pairOccurrences] <;> rfl

theorem inside_eq (p : Pair) : p.inside = (p.value.bind pairs?).elim [] pairOccurrences := by
  obtain ⟨key, value, comment⟩ := p
  rcases value with _ | (scalar | ⟨items, start, stop⟩ | ⟨inner, start, stop⟩) <;>
    simp [KeyValue.inside, occurrences, pairs?]

/-! ## Paths and segments -/

/-- A path that goes through the key of some segments ends in the other segments. -/
theorem dotted_append_eq_iff (hus : ∀ u ∈ us, DotFree u) (hns : ∀ w ∈ ns, DotFree w)
    (hu : us ≠ []) (hn : ns ≠ []) (path : String) :
    dotted us ++ "." ++ path = dotted ns ↔
      (us <+: ns ∧ us ≠ ns) ∧ path = dotted (ns.drop us.length) := by
  constructor
  · intro h
    obtain ⟨vs, hv, hvs, rfl⟩ := exists_dotted path
    rw [← dotted_append hu hv] at h
    have hfree : ∀ w ∈ us ++ vs, DotFree w := List.forall_mem_append.mpr ⟨hus, hvs⟩
    have hsegments : us ++ vs = ns :=
      dotted_injective hfree hns (List.append_ne_nil_of_left_ne_nil hu vs) hn h
    subst hsegments
    refine ⟨⟨List.prefix_append us vs, fun h => hv (List.self_eq_append_right.mp h)⟩, ?_⟩
    rw [List.drop_left]
  · rintro ⟨⟨⟨vs, rfl⟩, hne⟩, rfl⟩
    have hv : vs ≠ [] := fun h => hne (by rw [h, List.append_nil])
    rw [List.drop_left, dotted_append hu hv]

/-! ## The search -/

theorem placesNamed_append (names : List String) (os os' : List Occurrence) :
    placesNamed names (os ++ os') = placesNamed names os ++ placesNamed names os' :=
  List.filter_append os os'

/-- The pairs at the places that a search for a key comes to. -/
def pairsAt (key : String) (os : List Occurrence) : List Pair :=
  (placesNamed [key] os).map (·.pair)

theorem pairsAt_append (key : String) (os os' : List Occurrence) :
    pairsAt key (os ++ os') = pairsAt key os ++ pairsAt key os' := by
  unfold pairsAt
  rw [placesNamed_append, List.map_append]

theorem pairsAt_below (hus : ∀ u ∈ us, DotFree u) (hns : ∀ w ∈ ns, DotFree w)
    (hu : us ≠ []) (hn : ns ≠ []) (os : List Occurrence) :
    pairsAt (dotted ns) (os.map (.below (dotted us))) =
      if us <+: ns ∧ us ≠ ns then pairsAt (dotted (ns.drop us.length)) os else [] := by
  have hpath : ∀ o : Occurrence, (o.below (dotted us)).Named [dotted ns] ↔
      (us <+: ns ∧ us ≠ ns) ∧ o.Named [dotted (ns.drop us.length)] := by
    intro o
    have hiff := dotted_append_eq_iff hus hns hu hn o.path
    simp only [Occurrence.Named, Occurrence.below, List.mem_singleton, hiff]
    exact and_left_comm
  unfold pairsAt placesNamed
  rw [List.filter_map, List.map_map]
  by_cases hprefix : us <+: ns ∧ us ≠ ns
  · have hfilter : os.filter ((fun o : Occurrence => decide (o.Named [dotted ns])) ∘
        Occurrence.below (dotted us)) = os.filter (·.Named [dotted (ns.drop us.length)]) :=
      List.filter_congr fun o _ => decide_eq_decide.mpr ((hpath o).trans (and_iff_right hprefix))
    rw [if_pos hprefix, hfilter]
    rfl
  · have hfilter : os.filter ((fun o : Occurrence => decide (o.Named [dotted ns])) ∘
        Occurrence.below (dotted us)) = [] :=
      List.filter_eq_nil_iff.mpr fun o _ ho => hprefix ((hpath o).mp (of_decide_eq_true ho)).1
    rw [if_neg hprefix, hfilter]
    rfl

theorem pairsNamed_singleton (p : Pair) (key : String) :
    pairsNamed [p] key = pairsAt key [⟨p.keyText, p⟩] := by
  unfold pairsNamed pairsAt placesNamed Occurrence.Named
  by_cases hscalar : p.key.isScalar <;> by_cases hkey : p.keyText = key <;> simp [hscalar, hkey]

/-- A search below a single pair goes on in the map that is the value of the pair. -/
theorem findPairs_singleton_perm
    (hinside : ∀ inner ∈ p.value.bind pairs?, ∀ key,
      (findPairs inner key).Perm (pairsAt key (pairOccurrences inner))) (key : String) :
    (findPairs [p] key).Perm (pairsAt key p.places) := by
  obtain ⟨ns, hn, hns, rfl⟩ := exists_dotted key
  obtain ⟨us, hu, hus, htext⟩ := exists_dotted p.keyText
  have hbelow : (insidePairs p (ns.drop us.length)).Perm
      (pairsAt (dotted (ns.drop us.length)) p.inside) := by
    unfold insidePairs
    rw [inside_eq]
    cases hinner : p.value.bind pairs? with
    | none => exact .nil
    | some inner => exact hinside inner hinner _
  have hplaces : pairsAt (dotted ns) p.places =
      pairsAt (dotted ns) [⟨p.keyText, p⟩] ++
        pairsAt (dotted ns) (p.inside.map (.below p.keyText)) := pairsAt_append _ [_] _
  unfold findPairs
  rw [hplaces, keySegments_dotted hns hn, pairsNamed_singleton, pairsBelow_singleton hus hns hu
    (by rw [htext]; rfl), htext, pairsAt_below hus hns hu hn]
  refine List.Perm.append_left _ ?_
  split
  · exact hbelow
  · exact .nil

/-- **A search finds the pairs at the places with the path.** -/
theorem findPairs_perm (pairs : List Pair) (key : String) :
    (findPairs pairs key).Perm (pairsAt key (pairOccurrences pairs)) := by
  -- the maps inside are less high; within one map the pairs are taken one by one
  induction hk : pairsHeight pairs using Nat.strongRecOn generalizing pairs key with
  | ind k ih =>
    subst hk
    suffices h : ∀ qs : List Pair, (∀ q ∈ qs, q ∈ pairs) →
        (findPairs qs key).Perm (pairsAt key (pairOccurrences qs)) from h pairs fun _ hq => hq
    intro qs hqs
    induction qs with
    | nil =>
      rw [findPairs_nil, pairOccurrences]
      exact .nil
    | cons p qs ihqs =>
      obtain ⟨hp, hqs⟩ := List.forall_mem_cons.mp hqs
      rw [pairOccurrences_cons, pairsAt_append]
      refine (findPairs_cons_perm p qs key).trans (.append ?_ (ihqs hqs))
      refine findPairs_singleton_perm (fun inner hinner key => ?_) key
      exact ih _ (height_inside_lt hp hinner) inner key rfl

/-- **Lists of names that share no place divide the places that have any of the names.** -/
theorem flatMap_placesNamed_perm {ι : Type} {names : ι → List String} {is : List ι}
    (h : is.Pairwise fun i j => ∀ o : Occurrence, o.Named (names i) → ¬ o.Named (names j))
    (os : List Occurrence) :
    (is.flatMap fun i => placesNamed (names i) os).Perm (placesNamed (is.flatMap names) os) := by
  have hany : os.filter (fun o => is.any fun i => o.Named (names i)) =
      placesNamed (is.flatMap names) os := by
    refine List.filter_congr fun o _ => Bool.eq_iff_iff.mpr ⟨fun h => ?_, fun h => ?_⟩
    · obtain ⟨i, hi, ho⟩ := List.any_eq_true.mp h
      have hnamed := of_decide_eq_true ho
      exact decide_eq_true ⟨hnamed.1, List.mem_flatMap.mpr ⟨i, hi, hnamed.2⟩⟩
    · obtain ⟨hscalar, hname⟩ := of_decide_eq_true h
      obtain ⟨i, hi, hname⟩ := List.mem_flatMap.mp hname
      exact List.any_eq_true.mpr ⟨i, hi, decide_eq_true ⟨hscalar, hname⟩⟩
  rw [← hany]
  refine flatMap_filter_perm (h.imp fun {i j} hij o hi hj => ?_) os
  exact hij o (of_decide_eq_true hi) (of_decide_eq_true hj)

/-- **A search under several names finds each pair once.** -/
theorem flatMap_findPairs_perm {names : List String} (hn : names.Nodup) (pairs : List Pair) :
    (names.flatMap (findPairs pairs)).Perm
      ((placesNamed names (pairOccurrences pairs)).map (·.pair)) := by
  have hapart : names.Pairwise fun name name' => ∀ o : Occurrence,
      o.Named [name] → ¬ o.Named [name'] := by
    refine List.Pairwise.imp (fun {name name'} hne o h h' => hne ?_) hn
    exact (List.mem_singleton.mp h.2).symm.trans (List.mem_singleton.mp h'.2)
  have hplaces := flatMap_placesNamed_perm hapart (pairOccurrences pairs)
  have hnames : (names.flatMap fun name => [name]) = names := List.flatMap_singleton' names
  rw [hnames] at hplaces
  refine (List.Perm.flatMap_left names fun name _ => findPairs_perm pairs name).trans ?_
  unfold pairsAt
  rw [← List.map_flatMap]
  exact hplaces.map _

end PackLint
