import PackLint.Proofs.Tree.Editing

/-!
# Trails

A place in a map is reached over the pairs whose maps lie around it. A `Trail` keeps those pairs, so
that of every place it can be asked what stands above it; forgetting them leaves the occurrence.

Results:
* `Node.trails_map`: the trails in a map, pair by pair.
* `Node.toOccurrence_trails`: each place in a map is reached over one trail.
* `Node.mem_ancestors`: a pair stands above all that is reached over it.
-/

namespace PackLint

/-- A place in a map: the pairs that lead to it, the topmost first, and the pair that stands
there. -/
structure Trail where
  above : List Pair
  pair : Pair

namespace Trail

/-- The path of the map that some pairs lead to, a dot behind each key. -/
def front (above : List Pair) : List Char := above.flatMap fun p => p.keyText.toList ++ ['.']

/-- The keys that lead to the place and the one that stands there, joined by dots. -/
def path (t : Trail) : String := dotted ((t.above ++ [t.pair]).map (·.keyText))

/-- The place without what lies above it. -/
def toOccurrence (t : Trail) : Occurrence := ⟨t.path, t.pair⟩

/-- The places of some pairs that lead on from one to the next below others. -/
def steps (above : List Pair) : List Pair → List Trail
  | [] => []
  | p :: ps => ⟨above, p⟩ :: steps (above ++ [p]) ps

/-- The places that lie above a place, the topmost first. -/
def ancestors (t : Trail) : List Trail := steps [] t.above

variable (above ps qs : List Pair) (p : Pair)

theorem front_append : front (above ++ [p]) = front above ++ p.keyText.toList ++ ['.'] := by
  simp [front]

theorem toList_path : (path ⟨above, p⟩).toList = front above ++ p.keyText.toList := by
  unfold path
  simp only
  induction above with
  | nil => rfl
  | cons q above ih =>
    rw [List.cons_append, List.map_cons, dotted_cons _ (by simp), String.toList_append,
      String.toList_append, ih, front, front, List.flatMap_cons]
    simp

theorem steps_append : steps above (ps ++ qs) = steps above ps ++ steps (above ++ ps) qs := by
  induction ps generalizing above with
  | nil => rw [List.nil_append, List.append_nil, steps, List.nil_append]
  | cons p ps ih =>
    rw [List.cons_append, steps, steps, ih, List.cons_append, List.append_assoc above,
      List.singleton_append]

end Trail

namespace Node

mutual

/-- The places in a map that `above` leads to, from top to bottom. -/
def trails (above : List Pair) : Node → List Trail
  | .map pairs _ _ => pairTrails above pairs
  | _ => []

/-- The places at some pairs that `above` leads to. -/
def pairTrails (above : List Pair) : List (KeyValue Node) → List Trail
  | [] => []
  | ⟨key, value, comment⟩ :: ps =>
    let inside := match value with
      | some n => trails (above ++ [⟨key, value, comment⟩]) n
      | none => []
    ⟨above, ⟨key, value, comment⟩⟩ :: inside ++ pairTrails above ps

end

/-- The places inside of the value of a pair that `above` leads to. -/
def trailsInside (above : List Pair) (p : Pair) : List Trail :=
  (p.value.map (trails (above ++ [p]))).getD []

variable {above : List Pair} {n : Node} {t : Trail}

theorem pairTrails_eq (pairs : List Pair) :
    pairTrails above pairs = pairs.flatMap fun p => ⟨above, p⟩ :: trailsInside above p := by
  induction pairs with
  | nil => rw [pairTrails, List.flatMap_nil]
  | cons p ps ih =>
    obtain ⟨key, value, comment⟩ := p
    cases value <;> rw [pairTrails, ih, List.flatMap_cons] <;> rfl

/-- **The trails in a map, pair by pair.** -/
theorem trails_map (pairs : List Pair) (start stop : Nat) :
    trails above (.map pairs start stop) =
      pairs.flatMap fun p => ⟨above, p⟩ :: trailsInside above p := by
  rw [trails, pairTrails_eq]

theorem trails_of_not_map (h : n.isMap = false) : trails above n = [] := by
  cases n with
  | map pairs start stop => cases h
  | scalar s =>
    rw [trails]
    rintro _ _ _ ⟨⟩
  | seq items start stop =>
    rw [trails]
    rintro _ _ _ ⟨⟩

theorem occurrences_of_not_map (h : n.isMap = false) : n.occurrences = [] := by
  cases n with
  | map pairs start stop => cases h
  | scalar s =>
    rw [occurrences]
    rintro _ _ _ ⟨⟩
  | seq items start stop =>
    rw [occurrences]
    rintro _ _ _ ⟨⟩

/-- **Each place in a map is reached over one trail.** -/
theorem toOccurrence_trails (n : Node) (above : List Pair) :
    (n.trails above).map Trail.toOccurrence = n.occurrences.map (.under (Trail.front above)) := by
  induction n using Node.height_induction generalizing above with
  | step n ih =>
    cases hmap : n.isMap with
    | false => rw [trails_of_not_map hmap, occurrences_of_not_map hmap, List.map_nil, List.map_nil]
    | true =>
      cases n with
      | scalar s => cases hmap
      | seq items start stop => cases hmap
      | map pairs start stop =>
        have hpair : ∀ p ∈ pairs, (⟨above, p⟩ :: trailsInside above p).map Trail.toOccurrence =
            p.places.map (.under (Trail.front above)) := by
          intro p hp
          have hself : Trail.toOccurrence ⟨above, p⟩ =
              ⟨String.ofList (Trail.front above ++ p.keyText.toList), p⟩ := by
            rw [Trail.toOccurrence, ← Trail.toList_path, String.ofList_toList]
          rw [places_under, List.map_cons, hself, ← Trail.front_append, trailsInside,
            KeyValue.inside]
          cases hv : p.value with
          | none => rfl
          | some m => exact congrArg _ (ih m (height_value_lt hp hv start stop) (above ++ [p]))
        have hpairs : (Node.map pairs start stop).occurrences = pairs.flatMap (·.places) := by
          rw [occurrences]
          clear hpair ih hmap
          induction pairs with
          | nil => rw [pairOccurrences, List.flatMap_nil]
          | cons p ps ih => rw [pairOccurrences_cons, ih, List.flatMap_cons]
        rw [trails_map, hpairs, List.map_flatMap, List.map_flatMap]
        exact List.flatMap_congr hpair

/-- The pairs that lead to a map lead to all places in it. -/
theorem prefix_of_mem_trails (h : t ∈ n.trails above) : above <+: t.above := by
  induction n using Node.height_induction generalizing above with
  | step n ih =>
    cases hmap : n.isMap with
    | false =>
      rw [trails_of_not_map hmap] at h
      cases h
    | true =>
      cases n with
      | scalar s => cases hmap
      | seq items start stop => cases hmap
      | map pairs start stop =>
        rw [trails_map] at h
        obtain ⟨p, hp, h⟩ := List.mem_flatMap.mp h
        rcases List.mem_cons.mp h with rfl | h
        · exact List.prefix_rfl
        · cases hv : p.value with
          | none =>
            rw [trailsInside, hv] at h
            cases h
          | some m =>
            rw [trailsInside, hv] at h
            exact (List.prefix_append above [p]).trans
              (ih m (height_value_lt hp hv start stop) h)

/-- **A pair stands above all that is reached over it.** -/
theorem mem_ancestors {p : Pair} (h : t ∈ trailsInside above p) :
    (⟨above, p⟩ : Trail) ∈ t.ancestors := by
  unfold trailsInside at h
  cases hv : p.value with
  | none =>
    rw [hv] at h
    cases h
  | some m =>
    rw [hv] at h
    obtain ⟨rest, hrest⟩ := prefix_of_mem_trails h
    have hmem : (⟨above, p⟩ : Trail) ∈ Trail.steps [] (above ++ [p]) := by
      rw [Trail.steps_append]
      exact List.mem_append_right _ (List.mem_singleton_self _)
    rw [Trail.ancestors, ← hrest, Trail.steps_append]
    exact List.mem_append_left _ hmem

end Node

end PackLint
