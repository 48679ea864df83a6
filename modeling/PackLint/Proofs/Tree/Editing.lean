import PackLint.Proofs.Tree.Occurrence

/-!
# Editing maps inside of maps

A map inside of a tree stands at a path, in which a dot is behind each key that leads to it. The
tree is edited there if the map gets other pairs; the pairs around the map keep their keys, and all
other pairs stay as they are.

Results:
* `Node.MapAt.exists_edited`: a map can be edited wherever it stands.
* `Node.Edited.mem_occurrences`: the new pairs stand at the path of their map.
* `Node.Edited.occurrences_perm`: the places in a tree before and after a pair is added to a map.
-/

namespace PackLint

/-- The place, seen from a map that has its map at a path. -/
def Occurrence.under (front : List Char) (o : Occurrence) : Occurrence :=
  { o with path := String.ofList (front ++ o.path.toList) }

theorem Occurrence.under_nil : Occurrence.under [] = id := by
  funext o
  simp [Occurrence.under]

/-- Two places that have the same path and hold pairs of the same key. -/
def Occurrence.SameKey (o o' : Occurrence) : Prop := o.path = o'.path ∧ o.pair.key = o'.pair.key

namespace Node

/-- A map stands at a path in a node. -/
inductive MapAt (m : Node) : List Char → Node → Prop
  | here (hm : m.isMap) : MapAt m [] m
  | within {front : List Char} {n : Node} {q : Pair} {pairs : List Pair} {start stop : Nat}
      (hq : q ∈ pairs) (hv : q.value = some n) (h : MapAt m front n) :
      MapAt m (q.keyText.toList ++ '.' :: front) (.map pairs start stop)

/-- The map at a path has some pairs in one tree and others in the other tree; the maps around it
may reach further, and all else is the same. -/
inductive Edited (inner inner' : List Pair) : List Char → Node → Node → Prop
  | here {start stop start' stop' : Nat} :
      Edited inner inner' [] (.map inner start stop) (.map inner' start' stop')
  | within {front : List Char} {n n' key : Node} {comment : Option String}
      {before after : List Pair} {start stop start' stop' : Nat}
      (h : Edited inner inner' front n n') :
      Edited inner inner' (key.keyText.toList ++ '.' :: front)
        (.map (before ++ ⟨key, some n, comment⟩ :: after) start stop)
        (.map (before ++ ⟨key, some n', comment⟩ :: after) start' stop')

variable {inner inner' : List Pair} {front : List Char} {n n' : Node}

/-- A map can be edited wherever it stands. -/
theorem MapAt.exists_edited {start stop : Nat} (h : MapAt (.map inner start stop) front n)
    (inner' : List Pair) : ∃ n', Edited inner inner' front n n' := by
  induction h with
  | here => exact ⟨.map inner' start stop, .here⟩
  | @within front n q pairs _ _ hq hv _ ih =>
    obtain ⟨n', hn'⟩ := ih
    obtain ⟨before, after, rfl⟩ := List.append_of_mem hq
    obtain ⟨key, value, comment⟩ := q
    cases hv
    exact ⟨.map (before ++ ⟨key, some n', comment⟩ :: after) 0 0, .within hn'⟩

theorem Edited.isMap (h : Edited inner inner' front n n') : n.isMap ∧ n'.isMap := by
  cases h <;> exact ⟨rfl, rfl⟩

theorem pairOccurrences_append (ps qs : List Pair) :
    pairOccurrences (ps ++ qs) = pairOccurrences ps ++ pairOccurrences qs := by
  induction ps with
  | nil => rfl
  | cons p ps ih =>
    rw [List.cons_append, pairOccurrences_cons, pairOccurrences_cons, ih, List.append_assoc]

theorem occurrences_map_split (before after : List Pair) (q : Pair) (start stop : Nat) :
    (Node.map (before ++ q :: after) start stop).occurrences =
      pairOccurrences before ++ (q.places ++ pairOccurrences after) := by
  rw [occurrences, pairOccurrences_append, pairOccurrences_cons]

theorem places_of_value (key n : Node) (comment : Option String) :
    (⟨key, some n, comment⟩ : Pair).places =
      ⟨key.keyText, ⟨key, some n, comment⟩⟩ :: n.occurrences.map (.below key.keyText) := rfl

theorem below_under (key : String) (front : List Char) (o : Occurrence) :
    (o.under front).below key = o.under (key.toList ++ '.' :: front) := by
  unfold Occurrence.below Occurrence.under
  congr 1
  rw [← String.toList_inj]
  simp

theorem under_below (key : String) (o : Occurrence) :
    (o.below key).under front = o.under (front ++ key.toList ++ ['.']) := by
  unfold Occurrence.below Occurrence.under
  congr 1
  rw [← String.toList_inj]
  simp

theorem places_under (p : Pair) : p.places.map (Occurrence.under front) =
    ⟨String.ofList (front ++ p.keyText.toList), p⟩ ::
      p.inside.map (Occurrence.under (front ++ p.keyText.toList ++ ['.'])) := by
  unfold KeyValue.places
  rw [List.map_cons, List.map_map]
  exact congrArg _ (List.map_congr_left fun o _ => under_below _ o)

/-- The new pairs stand at the path of their map. -/
theorem Edited.mem_occurrences (h : Edited inner inner' front n n') {p : Pair} (hp : p ∈ inner') :
    Occurrence.under front ⟨p.keyText, p⟩ ∈ n'.occurrences := by
  induction h with
  | here =>
    obtain ⟨before, after, rfl⟩ := List.append_of_mem hp
    rw [occurrences_map_split]
    refine List.mem_append_right _ (List.mem_append_left _ ?_)
    unfold Occurrence.under
    simp [KeyValue.places]
  | @within front n n' key comment before after _ _ _ _ _ ih =>
    rw [occurrences_map_split, places_of_value]
    refine List.mem_append_right _ (List.mem_append_left _ (List.mem_cons_of_mem _ ?_))
    rw [← below_under]
    exact List.mem_map_of_mem ih

/-- A place and those inside of it are put in front of all else. -/
theorem perm_around {α : Type} {before after around others inside : List α} {a : α}
    (h : inside.Perm (around ++ others)) :
    (before ++ (a :: inside ++ after)).Perm (a :: around ++ (others ++ (before ++ after))) := by
  have hinside : (a :: inside ++ after).Perm (a :: around ++ (others ++ after)) := by
    rw [← List.append_assoc, List.cons_append]
    exact (h.append_right after).cons a
  have hfront : (before ++ (a :: around ++ (others ++ after))).Perm
      (a :: around ++ (others ++ (before ++ after))) := by
    simp only [← List.append_assoc]
    refine List.Perm.append_right _ ?_
    simp only [List.append_assoc]
    exact List.perm_append_comm.trans (by simp)
  exact (hinside.append_left before).trans hfront

/-- **A pair that is added to a map brings its own places along.** The pairs around the map keep
their paths and keys, and the other places stay. -/
theorem Edited.occurrences_perm {before after : List Pair} {p : Pair}
    (h : Edited (before ++ after) (before ++ p :: after) front n n') :
    ∃ around around' others, List.Forall₂ Occurrence.SameKey around around' ∧
      (∀ o ∈ around, o.path.toList ++ ['.'] <+: front) ∧
      n.occurrences.Perm (around ++ others) ∧
      n'.occurrences.Perm (around' ++ (p.places.map (.under front) ++ others)) := by
  induction h with
  | here =>
    have hunder : p.places.map (.under []) = p.places := by
      rw [Occurrence.under_nil, List.map_id]
    refine ⟨[], [], pairOccurrences (before ++ after), .nil, fun _ h => (nomatch h), ?_, ?_⟩
    · rw [occurrences]
      exact .refl _
    · rw [occurrences_map_split, hunder, pairOccurrences_append]
      simp only [List.nil_append, ← List.append_assoc]
      exact List.perm_append_comm.append_right _
  | @within front n n' key comment outer outer' _ _ _ _ _ ih =>
    obtain ⟨around, around', others, hsame, hfront, hn, hn'⟩ := ih
    refine ⟨⟨key.keyText, ⟨key, some n, comment⟩⟩ :: around.map (.below key.keyText),
      ⟨key.keyText, ⟨key, some n', comment⟩⟩ :: around'.map (.below key.keyText),
      others.map (.below key.keyText) ++ (pairOccurrences outer ++ pairOccurrences outer'),
      .cons ⟨rfl, rfl⟩ ?_, ?_, ?_, ?_⟩
    · rw [List.forall₂_map_left_iff, List.forall₂_map_right_iff]
      exact hsame.imp fun o o' h => ⟨congrArg (key.keyText ++ "." ++ ·) h.1, h.2⟩
    · refine List.forall_mem_cons.mpr ⟨?_, List.forall_mem_map.mpr fun o ho => ?_⟩
      · exact ⟨front, by simp⟩
      · obtain ⟨rest, hrest⟩ := hfront o ho
        exact ⟨rest, by simp [Occurrence.below, ← hrest]⟩
    · rw [occurrences_map_split, places_of_value]
      refine perm_around ?_
      rw [← List.map_append]
      exact hn.map _
    · have hunder : p.places.map (Occurrence.under (key.keyText.toList ++ '.' :: front)) =
          (p.places.map (Occurrence.under front)).map (Occurrence.below key.keyText) := by
        rw [List.map_map]
        exact List.map_congr_left fun o _ => (below_under key.keyText front o).symm
      rw [occurrences_map_split, places_of_value, hunder, ← List.append_assoc (List.map _ _)]
      refine perm_around ?_
      rw [← List.map_append, ← List.map_append]
      exact hn'.map _

end Node

end PackLint
