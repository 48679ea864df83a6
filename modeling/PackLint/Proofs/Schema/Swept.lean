import PackLint.Proofs.Schema.Account
import PackLint.Proofs.Tree.Trail

/-!
# What a sweep comes to

A sweep (`_check_unexpected`) goes from map to map as long as the path of each is a part of a name
only, and it says at most one thing of each place that it comes to: nothing of a name or of a map on
the way, else that a value or a map is missing there, or that the key is unexpected. Since the
properties are searched by name, the places that the sweep passes over as names are those that the
search finds.

Results:
* `Site.sweep_eq_remarks`: a sweep remarks on the places that it comes to, and on nothing else.
* `Schema.sweep_agrees`: the sweep over a map agrees with the search for the properties.
-/

namespace PackLint

open Node

/-- A path is no name, but some name goes on behind it and a dot. -/
def PartWay (names : List String) (path : String) : Prop :=
  path ∉ names ∧ ∃ name ∈ names, leadsOn path.toList name.toList

instance (names : List String) (path : String) : Decidable (PartWay names path) :=
  instDecidableAnd

namespace Trail

/-- All that lies above the place leads to a name and is none itself. -/
def Approached (names : List String) (t : Trail) : Prop := ∀ a ∈ t.ancestors, PartWay names a.path

instance (names : List String) (t : Trail) : Decidable (t.Approached names) :=
  inferInstanceAs (Decidable (∀ a ∈ t.ancestors, PartWay names a.path))

/-- What the names that begin with the path of the map of the place have behind it. -/
def candidates (names : List String) (t : Trail) : List String :=
  (names.filter fun name => (front t.above).isPrefixOf name.toList).map fun name =>
    String.ofList (name.toList.drop (front t.above).length)

end Trail

namespace Site

variable (site : Site) (names : List String)

/-- What a sweep remarks on a place that it comes to. -/
def remarks (t : Trail) : List Diagnostic :=
  if t.path ∈ names then []
  else if ∃ name ∈ names, leadsOn t.path.toList name.toList then
    match t.pair.value with
    | none =>
      [{ range := site.nodeRange t.pair.key
         message := "Expected a value for `" ++ t.path ++ "`."
         code := .missingValue }]
    | some (.map _ _ _) => []
    | some value =>
      [{ range := site.nodeRange value
         message := "Expected a map of properties for `" ++ t.path ++ "`."
         code := .invalidType }]
  else
    [{ range := site.nodeRange t.pair.key
       message := "Unexpected property `" ++ t.pair.keyText ++ "`." ++
         suggestionText (site.suggestion? t.pair.keyText (t.candidates names))
       code := .unexpectedProperty }]

variable {site names} {above : List Pair} {p : Pair}

theorem contains_path (t : Trail) :
    (names.map String.toList).contains t.path.toList = decide (t.path ∈ names) := by
  have hinjective : Function.Injective String.toList := fun _ _ => String.toList_inj.mp
  rw [Bool.eq_iff_iff, List.contains_iff_mem, decide_eq_true_iff,
    List.mem_map_of_injective hinjective]

theorem any_leadsOn_path (t : Trail) :
    (names.map String.toList).any (leadsOn t.path.toList) =
      decide (∃ name ∈ names, leadsOn t.path.toList name.toList) := by
  rw [Bool.eq_iff_iff, List.any_map, List.any_eq_true, decide_eq_true_iff]
  rfl

theorem candidates_eq (t : Trail) :
    ((names.map String.toList).filter (Trail.front t.above).isPrefixOf).map
      (fun name => String.ofList (name.drop (Trail.front t.above).length)) =
        t.candidates names := by
  rw [List.filter_map, List.map_map]
  rfl

/-- A pair on the way to a name that is a map is left to the sweep of the map. -/
theorem sweepPair_of_partWay {inner : List Pair} {start stop : Nat}
    (hway : PartWay names (Trail.path ⟨above, p⟩)) (hv : p.value = some (.map inner start stop)) :
    site.sweepPair (names.map String.toList) (Trail.front above) p =
        site.sweep (names.map String.toList) (Trail.front (above ++ [p])) (.map inner start stop) ∧
      site.remarks names ⟨above, p⟩ = [] := by
  have hpath : Trail.front above ++ p.key.keyText.toList = (Trail.path ⟨above, p⟩).toList :=
    (Trail.toList_path above p).symm
  constructor
  · unfold sweepPair
    simp only [hpath, contains_path, any_leadsOn_path, hway.1, hway.2, decide_false, decide_true,
      Bool.and_false, hv, if_true, Bool.false_eq_true, if_false]
    rw [Trail.front_append, ← Trail.toList_path]
  · unfold remarks
    rw [if_neg hway.1, if_pos hway.2]
    simp only [hv]

/-- Of any other pair there is a remark, or none if it has a name. -/
theorem sweepPair_of_ends (hkey : p.key.isScalar)
    (hends : PartWay names (Trail.path ⟨above, p⟩) → ∀ v ∈ p.value, v.isMap = false) :
    site.sweepPair (names.map String.toList) (Trail.front above) p =
      .ok { diagnostics := site.remarks names ⟨above, p⟩ } := by
  have hpath : Trail.front above ++ p.key.keyText.toList = (Trail.path ⟨above, p⟩).toList :=
    (Trail.toList_path above p).symm
  unfold sweepPair
  simp only [hpath, contains_path, any_leadsOn_path, hkey, Bool.true_and]
  by_cases hname : Trail.path ⟨above, p⟩ ∈ names
  · simp only [remarks, hname, decide_true, if_true]
    rfl
  · by_cases hleads : ∃ name ∈ names, leadsOn (Trail.path ⟨above, p⟩).toList name.toList
    · have hmap := hends ⟨hname, hleads⟩
      simp only [remarks, hname, hleads, decide_true, decide_false, if_true, if_false,
        Bool.false_eq_true]
      rcases hv : p.value with _ | (scalar | ⟨items, start, stop⟩ | ⟨inner, start, stop⟩)
      · simp only [brokenStep, String.ofList_toList]
        rfl
      · simp only [brokenStep, String.ofList_toList]
        rfl
      · simp only [brokenStep, String.ofList_toList]
        rfl
      · cases hmap _ hv
    · simp only [remarks, hname, hleads, decide_false, if_false, Bool.false_eq_true, unexpectedKey]
      rw [← candidates_eq]
      rfl

/-- What a sweep of a node that `above` leads to remarks on. -/
abbrev remarksIn (site : Site) (names : List String) (ts : List Trail) : Report where
  diagnostics := (ts.filter (·.Approached names)).flatMap (site.remarks names)

theorem remarksIn_nil : site.remarksIn names [] = .empty := rfl

theorem mergeAll_remarksIn {α : Type} (f : α → List Trail) (l : List α) :
    .mergeAll (l.map fun a => site.remarksIn names (f a)) = site.remarksIn names (l.flatMap f) := by
  induction l with
  | nil => rfl
  | cons a l ih =>
    rw [List.map_cons, Report.mergeAll_cons, ih, List.flatMap_cons, remarksIn, remarksIn, remarksIn,
      List.filter_append, List.flatMap_append]
    rfl

/-- Nothing is said inside of a pair where the way ends. -/
theorem remarksIn_of_ends (habove : Trail.Approached names ⟨above, p⟩)
    (hends : PartWay names (Trail.path ⟨above, p⟩) → ∀ v ∈ p.value, v.isMap = false) :
    site.remarksIn names (⟨above, p⟩ :: trailsInside above p) =
      { diagnostics := site.remarks names ⟨above, p⟩ } := by
  have hinside : (trailsInside above p).filter (·.Approached names) = [] := by
    refine List.filter_eq_nil_iff.mpr fun t ht happroached => ?_
    have hway := of_decide_eq_true happroached _ (mem_ancestors ht)
    unfold trailsInside at ht
    cases hv : p.value with
    | none =>
      rw [hv] at ht
      cases ht
    | some v =>
      rw [hv, Option.map_some, Option.getD_some, trails_of_not_map (hends hway v hv)] at ht
      cases ht
  rw [remarksIn, List.filter_cons, if_pos (decide_eq_true habove), hinside, List.flatMap_cons,
    List.flatMap_nil, List.append_nil]

/-- Nothing but what is inside of it is remarked on at a map on the way to a name. -/
theorem remarksIn_of_partWay {inner : List Pair} {start stop : Nat}
    (hway : PartWay names (Trail.path ⟨above, p⟩)) (hv : p.value = some (.map inner start stop)) :
    site.remarksIn names (⟨above, p⟩ :: trailsInside above p) =
      site.remarksIn names (trails (above ++ [p]) (.map inner start stop)) := by
  have hinside : trailsInside above p = trails (above ++ [p]) (.map inner start stop) := by
    rw [trailsInside, hv]
    rfl
  have hnone : site.remarks names ⟨above, p⟩ = [] := (sweepPair_of_partWay hway hv).2
  rw [hinside, remarksIn, List.filter_cons]
  split
  · rw [List.flatMap_cons, hnone, List.nil_append]
  · rfl

/-- **A sweep remarks on the places that it comes to**, which are those that nothing but parts of
names lead to, and it finds nothing else. -/
theorem sweep_eq_remarks {n : Node} {above : List Pair}
    (hkeys : ∀ t ∈ n.trails above, t.pair.key.isScalar)
    (habove : ∀ a ∈ Trail.steps [] above, PartWay names a.path) :
    site.sweep (names.map String.toList) (Trail.front above) n =
      .ok (site.remarksIn names (n.trails above)) := by
  induction n using Node.height_induction generalizing above with
  | step n ih =>
    cases n with
    | scalar scalar => rw [sweep_scalar, trails_of_not_map rfl, remarksIn_nil]
    | seq items start stop => rw [sweep_seq, trails_of_not_map rfl, remarksIn_nil]
    | map pairs start stop =>
      rw [trails_map] at hkeys ⊢
      have hkey : ∀ p ∈ pairs, p.key.isScalar := fun p hp =>
        hkeys ⟨above, p⟩ (List.mem_flatMap.mpr ⟨p, hp, List.mem_cons_self⟩)
      have htext : requireTextKeys pairs = .ok () := by
        refine if_pos (List.all_eq_true.mpr fun p hp => ?_)
        rw [isTextKey, hkey p hp, Bool.true_or]
      have hpair : ∀ p ∈ pairs, site.sweepPair (names.map String.toList) (Trail.front above) p =
          .ok (site.remarksIn names (⟨above, p⟩ :: trailsInside above p)) := by
        intro p hp
        by_cases hdown : PartWay names (Trail.path ⟨above, p⟩) ∧
            ∃ inner start stop, p.value = some (.map inner start stop)
        · obtain ⟨hway, inner, innerStart, innerStop, hv⟩ := hdown
          have hinside : trails (above ++ [p]) (.map inner innerStart innerStop) =
              trailsInside above p := by
            rw [trailsInside, hv]
            rfl
          rw [(sweepPair_of_partWay hway hv).1, remarksIn_of_partWay hway hv]
          refine ih _ (height_value_lt hp hv start stop) (fun t ht => ?_) ?_
          · rw [hinside] at ht
            exact hkeys t (List.mem_flatMap.mpr ⟨p, hp, List.mem_cons_of_mem _ ht⟩)
          · rw [Trail.steps_append]
            exact List.forall_mem_append.mpr ⟨habove, List.forall_mem_singleton.mpr hway⟩
        · have hends : PartWay names (Trail.path ⟨above, p⟩) → ∀ v ∈ p.value, v.isMap = false := by
            intro hway v hv
            cases v with
            | map inner innerStart innerStop =>
              exact absurd ⟨hway, inner, innerStart, innerStop, hv⟩ hdown
            | _ => rfl
          rw [sweepPair_of_ends (hkey p hp) hends, remarksIn_of_ends habove hends]
      have hpairs : pairs.mapM (site.sweepPair (names.map String.toList) (Trail.front above)) =
          .ok (pairs.map fun p => site.remarksIn names (⟨above, p⟩ :: trailsInside above p)) :=
        (Except.mapM_congr hpair).trans List.mapM_pure
      rw [sweep_map, htext, hpairs, ← mergeAll_remarksIn]
      rfl

end Site

namespace Schema

/-- **The sweep over a map agrees with the search for its properties**, where all keys are scalars.
It comes to the places above which there is nothing but maps on the way to a name. There it says
nothing of a pair whose path is a name, goes on into a map whose path leads on to a name or remarks
once that there is none, and reports any other pair once as unexpected; of no other place it says
anything. The pairs that are found of a property are just those whose path is one of its names. -/
theorem sweep_agrees (info : SchemaInfo) (properties : Context → List (String × Property))
    (site : Site) (pairs : List Pair) (start stop : Nat)
    (hkeys : ∀ t ∈ (Node.map pairs start stop).trails [], t.pair.key.isScalar) :
    let ctx := Context.ofNode site (.map pairs start stop)
    let flat := (object info properties).flatProperties ctx
    let names := propertyNames ctx flat
    let places := (Node.map pairs start stop).trails []
    site.sweep (names.map String.toList) [] (.map pairs start stop) =
        .ok { diagnostics := (places.filter (·.Approached names)).flatMap (site.remarks names) } ∧
      ∀ e ∈ flat, (propertyPairs ctx e.1 e.2 pairs).Perm
        ((places.filter (·.path ∈ e.2.names e.1 ctx)).map (·.pair)) := by
  intro ctx flat names places
  constructor
  · exact Site.sweep_eq_remarks hkeys fun _ h => nomatch h
  · intro e _
    refine (propertyPairs_perm ctx e pairs).trans (List.Perm.of_eq ?_)
    have hplaces := toOccurrence_trails (.map pairs start stop) []
    have hnil : Occurrence.under (Trail.front []) = id := Occurrence.under_nil
    rw [hnil, List.map_id, occurrences] at hplaces
    rw [holders, placesNamed, ← hplaces, List.filter_map, List.map_map]
    refine congrArg (List.map _) (List.filter_congr fun t ht => decide_eq_decide.mpr ?_)
    exact and_iff_right (hkeys t ht)

/-- The pairs of a document that knows `B` below `A`, but has no `D` there and nothing at `X`. -/
def strayingSample : List Pair :=
  [⟨.scalar (sampleScalar "A" 0),
      some (.map [⟨.scalar (sampleScalar "B" 5), some (.scalar (sampleScalar "y" 8)), none⟩,
        ⟨.scalar (sampleScalar "D" 12), some (.scalar (sampleScalar "z" 15)), none⟩] 5 16), none⟩,
    ⟨.scalar (sampleScalar "X" 17), none, none⟩]

/-- A sweep goes into `A`, passes over `A.B` and reports `A.D` and `X`. -/
theorem swept_sample :
    let site := sampleSite "A:\n  B: y\n  D: z\nX:"
    let n := Node.map strayingSample 0 19
    let ctx := Context.ofNode site n
    let names := propertyNames ctx (flatProperties (.object {} fun _ => outerSample) ctx)
    (∀ t ∈ n.trails [], t.pair.key.isScalar) ∧
      ((n.trails []).filter (·.Approached names)).map (·.path) = ["A", "A.B", "A.D", "X"] ∧
      ∃ r, site.sweep (names.map String.toList) [] n = .ok r ∧
        r.diagnostics.map (·.code) = [.unexpectedProperty, .missingValue] := by
  intro site n ctx names
  have hkeys : ∀ t ∈ n.trails [], t.pair.key.isScalar := by decide
  have hplaces : ((n.trails []).filter (·.Approached names)).map (·.path) =
      ["A", "A.B", "A.D", "X"] := by decide
  have hsweep := sweep_agrees {} (fun _ => outerSample) site strayingSample 0 19 hkeys
  refine ⟨hkeys, hplaces, _, hsweep.1, ?_⟩
  decide

end Schema

end PackLint
