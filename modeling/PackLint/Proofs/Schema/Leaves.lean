import PackLint.Proofs.Report.Findings
import PackLint.Proofs.Schema.Sweep
import PackLint.Proofs.Tree.Editing

/-!
# Where the ways to properties end

A sweep goes into the maps on the way to properties. Its ways end at leaves: pairs that hold a
property, pairs that nothing knows, and pairs that should lead on but hold no map. A dotted key and
nested maps lead to the same leaf, so the leaves are what a map says however it is spelt.

Results:
* `Site.codes_sweep`: what a sweep finds is found leaf by leaf.
* `Node.placesNamed_leaves`: every pair that holds a property is at a leaf.
* `Node.exists_of_mem_leaves`: the path of a leaf begins with a key of the map.
-/

namespace PackLint

open Node

/-! ## Codes -/

/-- The codes of diagnostics, each as often as it is reported. -/
abbrev Codes := WithTop (Multiset DiagnosticCode)

/-- The codes of what is found. -/
def codes : Findings →+ Codes := (Multiset.mapAddMonoidHom Diagnostic.code).withTopMap

/-- The codes of the diagnostics of a report. -/
def Report.codes (r : Report) : Multiset DiagnosticCode :=
  (r.diagnostics : Multiset Diagnostic).map Diagnostic.code

theorem codes_findings (r : Report) : codes r.findings = (r.codes : Codes) := rfl

theorem Report.codes_append (r s : Report) : (r ++ s).codes = r.codes + s.codes := by
  unfold codes
  rw [← Multiset.map_add, Multiset.coe_add]
  rfl

/-! ## Leaves -/

/-- Whether the way goes on behind a key with a path, which is no name but leads on to one. -/
def goesOn (names : List (List Char)) (path : List Char) (key : Node) : Bool :=
  !(key.isScalar && names.contains path) && names.any (leadsOn path)

namespace Node

mutual

/-- The leaves in a map whose path is `front`. -/
def leaves (names : List (List Char)) (front : List Char) : Node → List Occurrence
  | .map pairs _ _ => pairLeaves names front pairs
  | _ => []

/-- The leaves at some pairs whose path is `front`. -/
def pairLeaves (names : List (List Char)) (front : List Char) :
    List (KeyValue Node) → List Occurrence
  | [] => []
  | ⟨key, value, comment⟩ :: ps =>
    let path := front ++ key.keyText.toList
    let inside := match value with
      | some n => leaves names (path ++ ['.']) n
      | none => []
    let onwards := goesOn names path key && value.any (·.isMap)
    (if onwards then inside else [⟨String.ofList path, ⟨key, value, comment⟩⟩]) ++
      pairLeaves names front ps

end

/-- The leaves at a pair. -/
def leavesAt (names : List (List Char)) (front : List Char) (p : Pair) : List Occurrence :=
  if goesOn names (front ++ p.keyText.toList) p.key && p.value.any (·.isMap) then
    (p.value.map (leaves names (front ++ p.keyText.toList ++ ['.']))).getD []
  else [⟨String.ofList (front ++ p.keyText.toList), p⟩]

variable {names : List (List Char)} {front : List Char}

theorem pairLeaves_eq (pairs : List Pair) :
    pairLeaves names front pairs = pairs.flatMap (leavesAt names front) := by
  induction pairs with
  | nil => rw [pairLeaves, List.flatMap_nil]
  | cons p ps ih =>
    obtain ⟨key, value, comment⟩ := p
    cases value <;> simp only [pairLeaves] <;> rw [List.flatMap_cons, ih] <;> rfl

theorem leaves_map (pairs : List Pair) (start stop : Nat) :
    leaves names front (.map pairs start stop) = pairs.flatMap (leavesAt names front) := by
  rw [leaves, pairLeaves_eq]

theorem leavesAt_of_goesOn {p : Pair} {n : Node}
    (h : goesOn names (front ++ p.keyText.toList) p.key = true) (hv : p.value = some n)
    (hmap : n.isMap) :
    leavesAt names front p = leaves names (front ++ p.keyText.toList ++ ['.']) n := by
  unfold leavesAt
  rw [h, hv]
  exact if_pos hmap

theorem leavesAt_of_ends {p : Pair}
    (h : (goesOn names (front ++ p.keyText.toList) p.key && p.value.any (·.isMap)) = false) :
    leavesAt names front p = [⟨String.ofList (front ++ p.keyText.toList), p⟩] := by
  unfold leavesAt
  rw [h]
  rfl

end Node

/-! ## The sweep -/

/-- What the sweep says of a leaf. -/
def strayCodes (names : List (List Char)) (o : Occurrence) : Multiset DiagnosticCode :=
  if o.pair.key.isScalar && names.contains o.path.toList then 0
  else if names.any (leadsOn o.path.toList) then
    if o.pair.value.isNone then {.missingValue} else {.invalidType}
  else {.unexpectedProperty}

namespace Site

variable {site : Site} {names : List (List Char)} {front : List Char}

theorem codes_brokenStep (path : List Char) (key : Node) (value : Option Node) :
    (site.brokenStep path key value).codes =
      if value.isNone then {.missingValue} else {.invalidType} := by
  cases value <;> rfl

theorem codes_sweepPair {p : Pair} {r : Report}
    (hinside : ∀ n ∈ p.value, ∀ r, site.sweep names (front ++ p.keyText.toList ++ ['.']) n = .ok r →
      r.codes = ((n.leaves names (front ++ p.keyText.toList ++ ['.'])).map (strayCodes names)).sum)
    (h : site.sweepPair names front p = .ok r) :
    r.codes = ((leavesAt names front p).map (strayCodes names)).sum := by
  have hone : ∀ hends : (goesOn names (front ++ p.keyText.toList) p.key &&
      p.value.any (·.isMap)) = false, ((leavesAt names front p).map (strayCodes names)).sum =
        strayCodes names ⟨String.ofList (front ++ p.keyText.toList), p⟩ := fun hends => by
    rw [leavesAt_of_ends hends, List.map_singleton, List.sum_singleton]
  have hpath : p.key.keyText = p.keyText := rfl
  unfold sweepPair at h
  simp only [hpath] at h
  split at h
  · rename_i hnamed
    cases h
    rw [hone (by simp only [goesOn, hnamed]; rfl), strayCodes]
    simp only [String.toList_ofList]
    rw [if_pos hnamed]
    rfl
  · rename_i hnamed
    split at h
    · rename_i hleads
      split at h
      · rename_i hv
        have hgoes : goesOn names (front ++ p.keyText.toList) p.key = true := by
          rw [goesOn, hleads, Bool.eq_false_of_not_eq_true hnamed]
          rfl
        rw [leavesAt_of_goesOn hgoes hv rfl]
        exact hinside _ hv r h
      · rename_i hmap
        cases h
        have hstops : p.value.any (·.isMap) = false := by
          rw [Option.any_eq_false]
          intro n hv
          cases n with
          | map inner start stop => exact absurd hv (hmap inner start stop)
          | _ => rfl
        rw [hone (by rw [hstops, Bool.and_false]), strayCodes]
        simp only [String.toList_ofList]
        rw [if_neg hnamed, if_pos hleads, codes_brokenStep]
    · rename_i hleads
      cases h
      have hends : goesOn names (front ++ p.keyText.toList) p.key = false := by
        rw [goesOn, Bool.eq_false_of_not_eq_true hleads, Bool.and_false]
      rw [hone (by rw [hends, Bool.false_and]), strayCodes]
      simp only [String.toList_ofList]
      rw [if_neg hnamed, if_neg hleads]
      rfl

/-- **A sweep finds what it finds at the leaves.** -/
theorem codes_sweep {n : Node} {r : Report} (h : site.sweep names front n = .ok r) :
    r.codes = ((n.leaves names front).map (strayCodes names)).sum := by
  refine sweep_induction
    (P := fun front n r => r.codes = ((n.leaves names front).map (strayCodes names)).sum)
    (fun front n hmap => ?_) (fun front pairs start stop rs hpairs => ?_) h
  · cases n with
    | map pairs start stop => cases hmap
    | _ => simp [leaves, Report.codes, Report.empty]
  · rw [leaves_map]
    induction hpairs with
    | nil => rfl
    | cons hp _ ih =>
      rw [List.flatMap_cons, List.map_append, List.sum_append, Report.mergeAll_cons,
        ← Report.append_eq_merge, Report.codes_append, ih, codes_sweepPair hp.value hp.report]

end Site

/-! ## Places of properties -/

namespace Node

variable {names : List (List Char)} {front : List Char}

section Named

variable {ns : List String} (hns : ∀ name ∈ ns, name.toList ∈ names)
  (hsep : ∀ name ∈ names, ∀ other ∈ names, leadsOn name other = false)

include hns

/-- No place with a name is inside of a pair where the way ends, since names do not lead on. -/
theorem placesNamed_inside (hsep : ∀ name ∈ names, ∀ other ∈ names, leadsOn name other = false)
    {p : Pair}
    (h : (goesOn names (front ++ p.keyText.toList) p.key && p.value.any (·.isMap)) = false) :
    placesNamed ns (p.inside.map (.under (front ++ p.keyText.toList ++ ['.']))) = [] := by
  refine List.filter_eq_nil_iff.mpr fun place hplace hnamed => ?_
  obtain ⟨o, ho, rfl⟩ := List.mem_map.mp hplace
  have hname := hns _ (of_decide_eq_true hnamed).2
  have hleads : leadsOn (front ++ p.keyText.toList)
      (o.under (front ++ p.keyText.toList ++ ['.'])).path.toList := by
    rw [leadsOn, List.isPrefixOf_iff_prefix, Occurrence.under, String.toList_ofList]
    exact List.prefix_append _ _
  have hmap : p.value.any (·.isMap) = true := by
    obtain ⟨key, value, comment⟩ := p
    rcases value with _ | (scalar | ⟨items, start, stop⟩ | ⟨inner, start, stop⟩)
    · cases ho
    · cases ho
    · cases ho
    · rfl
  rw [hmap, Bool.and_true, goesOn, List.any_eq_true.mpr ⟨_, hname, hleads⟩, Bool.and_true,
    Bool.not_eq_false', Bool.and_eq_true, List.contains_iff_mem] at h
  rw [hsep _ h.2 _ hname] at hleads
  cases hleads

include hsep

/-- **Every place with a name is a leaf.** -/
theorem placesNamed_leaves (n : Node) :
    placesNamed ns (n.occurrences.map (.under front)) = placesNamed ns (n.leaves names front) := by
  induction n using Node.height_induction generalizing front with
  | step n ih =>
    cases n with
    | scalar s =>
      rw [occurrences, leaves]
      · rfl
      all_goals
        intro _ _ _ h
        cases h
    | seq items start stop =>
      rw [occurrences, leaves]
      · rfl
      all_goals
        intro _ _ _ h
        cases h
    | map pairs start stop =>
      rw [leaves_map, occurrences]
      suffices hpairs : ∀ qs : List Pair, (∀ q ∈ qs, q ∈ pairs) →
          placesNamed ns ((pairOccurrences qs).map (.under front)) =
            placesNamed ns (qs.flatMap (leavesAt names front)) from hpairs pairs fun _ hq => hq
      intro qs hqs
      induction qs with
      | nil => rw [pairOccurrences, List.map_nil, List.flatMap_nil]
      | cons q qs ihqs =>
        obtain ⟨hq, hqs⟩ := List.forall_mem_cons.mp hqs
        rw [pairOccurrences_cons, List.map_append, List.flatMap_cons, placesNamed_append,
          placesNamed_append, ihqs hqs]
        congr 1
        rw [places_under]
        cases hgoes : goesOn names (front ++ q.keyText.toList) q.key && q.value.any (·.isMap) with
        | false =>
          rw [leavesAt_of_ends hgoes]
          have hinside := placesNamed_inside hns hsep hgoes
          unfold placesNamed at hinside ⊢
          rw [List.filter_cons, hinside, List.filter_cons, List.filter_nil]
        | true =>
          rw [Bool.and_eq_true] at hgoes
          obtain ⟨n, hv, hmap⟩ := (Option.any_eq_true _ _).mp hgoes.2
          have hinside : q.inside = n.occurrences := by
            rw [KeyValue.inside, hv]
            rfl
          rw [leavesAt_of_goesOn hgoes.1 hv hmap, ← ih n (height_value_lt hq hv start stop),
            hinside]
          refine List.filter_cons_of_neg fun hnamed => ?_
          have hname := of_decide_eq_true hnamed
          have hmem := hns _ hname.2
          rw [String.toList_ofList] at hmem
          rw [goesOn, List.contains_iff_mem.mpr hmem, Bool.and_true, hname.1] at hgoes
          cases hgoes.1

end Named

/-- The path of a leaf begins with the path of the map. -/
theorem prefix_of_mem_leaves {n : Node} {o : Occurrence} (h : o ∈ n.leaves names front) :
    front <+: o.path.toList := by
  induction n using Node.height_induction generalizing front with
  | step n ih =>
    cases n with
    | map pairs start stop =>
      rw [leaves_map] at h
      obtain ⟨p, hp, h⟩ := List.mem_flatMap.mp h
      unfold leavesAt at h
      split at h
      · rename_i hgoes
        cases hv : p.value with
        | none =>
          rw [hv] at h
          cases h
        | some n =>
          rw [hv] at h
          have hprefix := ih n (height_value_lt hp hv start stop) h
          rw [List.append_assoc] at hprefix
          exact (List.prefix_append front _).trans hprefix
      · rw [List.mem_singleton.mp h, String.toList_ofList]
        exact List.prefix_append _ _
    | scalar s =>
      rw [leaves] at h
      · cases h
      · exact fun _ _ _ h => nomatch h
    | seq items start stop =>
      rw [leaves] at h
      · cases h
      · exact fun _ _ _ h => nomatch h

/-- The path of a leaf is a key of the map, or goes on behind a key and a dot. -/
theorem exists_of_mem_leaves {pairs : List Pair} {start stop : Nat} {o : Occurrence}
    (h : o ∈ (Node.map pairs start stop).leaves names []) :
    ∃ p ∈ pairs, o.path = p.keyText ∨ ∃ rest, o.path = p.keyText ++ "." ++ rest := by
  rw [leaves_map] at h
  obtain ⟨p, hp, h⟩ := List.mem_flatMap.mp h
  refine ⟨p, hp, ?_⟩
  unfold leavesAt at h
  split at h
  · cases hv : p.value with
    | none =>
      rw [hv] at h
      cases h
    | some n =>
      rw [hv] at h
      obtain ⟨rest, hrest⟩ := prefix_of_mem_leaves h
      refine .inr ⟨String.ofList rest, ?_⟩
      rw [← String.toList_inj, ← hrest]
      simp
  · rw [List.mem_singleton.mp h]
    exact .inl (by simp)

end Node

end PackLint
