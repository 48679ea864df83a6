import PackLint.Proofs.Schema.Sweep
import PackLint.Proofs.Tree.Occurrence

/-!
# Strays

A sweep reports pairs that belong to no property: keys that nothing knows, and steps towards a
property that lead nowhere. It comes to each place in a map at most once, and has one problem with
each place that it reports.

Results:
* `Site.strays_sweep`: the places that a sweep reports have no name of a property.
-/

namespace PackLint

open Node

namespace Site

variable {site : Site} {names : List (List Char)} {front : List Char}

/-- What a sweep has to say of a place below `front`. -/
inductive Stray (site : Site) (front : List Char) (o : Occurrence) : Diagnostic → Prop
  | unexpected (suggestion : Option String) : Stray site front o
      { range := site.nodeRange o.pair.key
        message := "Unexpected property `" ++ o.pair.keyText ++ "`." ++ suggestionText suggestion
        code := .unexpectedProperty }
  | valueless (h : o.pair.value = none) : Stray site front o
      { range := site.nodeRange o.pair.key
        message := "Expected a value for `" ++ String.ofList (front ++ o.path.toList) ++ "`."
        code := .missingValue }
  | broken (v : Node) (hv : o.pair.value = some v) (hmap : v.isMap = false) : Stray site front o
      { range := site.nodeRange v
        message :=
          "Expected a map of properties for `" ++ String.ofList (front ++ o.path.toList) ++ "`."
        code := .invalidType }

/-- The report consists of one problem with each of some places below `front`, none of which has a
name. -/
structure Strays (site : Site) (names : List (List Char)) (front : List Char)
    (places : List Occurrence) (r : Report) : Prop where
  places : ∃ os, os.Sublist places ∧ List.Forall₂ (Stray site front) os r.diagnostics ∧
    ∀ o ∈ os, o.pair.key.isScalar → front ++ o.path.toList ∉ names
  silent : r = { diagnostics := r.diagnostics }

namespace Strays

variable {os os' : List Occurrence} {r r' : Report}

theorem nil (os : List Occurrence) : Strays site names front os .empty :=
  ⟨⟨[], List.nil_sublist os, .nil, fun _ h => nomatch h⟩, rfl⟩

theorem append (h : Strays site names front os r) (h' : Strays site names front os' r') :
    Strays site names front (os ++ os') (r ++ r') := by
  obtain ⟨⟨qs, hqs, hrel, hfree⟩, hsilent⟩ := h
  obtain ⟨⟨qs', hqs', hrel', hfree'⟩, hsilent'⟩ := h'
  refine ⟨⟨qs ++ qs', hqs.append hqs', List.rel_append hrel hrel', ?_⟩, ?_⟩
  · exact List.forall_mem_append.mpr ⟨hfree, hfree'⟩
  · rw [hsilent, hsilent']
    rfl

theorem sublist (h : Strays site names front os r) (hos : os.Sublist os') :
    Strays site names front os' r := by
  obtain ⟨⟨qs, hqs, hrel⟩, hsilent⟩ := h
  exact ⟨⟨qs, hqs.trans hos, hrel⟩, hsilent⟩

theorem single {o : Occurrence} {d : Diagnostic} (hd : Stray site front o d)
    (hfree : o.pair.key.isScalar → front ++ o.path.toList ∉ names) (hos : o ∈ os) :
    Strays site names front os (.ofDiagnostic d) :=
  ⟨⟨[o], List.singleton_sublist.mpr hos, .cons hd .nil, List.forall_mem_singleton.mpr hfree⟩, rfl⟩

/-- What is said of places seen from a map under a key is said of the places themselves. -/
theorem below {key : String} (h : Strays site names (front ++ key.toList ++ ['.']) os r) :
    Strays site names front (os.map (.below key)) r := by
  have hpath : ∀ o : Occurrence, front ++ (o.below key).path.toList =
      front ++ key.toList ++ ['.'] ++ o.path.toList := by
    intro o
    simp [Occurrence.below]
  obtain ⟨⟨qs, hqs, hrel, hfree⟩, hsilent⟩ := h
  refine ⟨⟨qs.map (.below key), hqs.map _, List.forall₂_map_left_iff.mpr (hrel.imp ?_), ?_⟩,
    hsilent⟩
  · intro o d hd
    cases hd with
    | unexpected suggestion => exact .unexpected suggestion
    | valueless h =>
      rw [← hpath]
      exact .valueless h
    | broken v hv hmap =>
      rw [← hpath]
      exact .broken v hv hmap
  · intro o ho
    obtain ⟨q, hq, rfl⟩ := List.mem_map.mp ho
    rw [hpath]
    exact hfree q hq

end Strays

section

variable {p : Pair} (hfree : p.key.isScalar → front ++ p.keyText.toList ∉ names)

include hfree

theorem strays_unexpectedKey :
    Strays site names front [⟨p.keyText, p⟩] (site.unexpectedKey names front p.key) := by
  have hstray (suggestion : Option String) : Stray site front ⟨p.keyText, p⟩ _ :=
    .unexpected suggestion
  exact .single (hstray _) hfree (List.mem_singleton_self _)

theorem strays_brokenStep (hmap : ∀ v ∈ p.value, v.isMap = false) :
    Strays site names front [⟨p.keyText, p⟩]
      (site.brokenStep (front ++ p.keyText.toList) p.key p.value) := by
  cases hv : p.value with
  | none =>
    have hstray : Stray site front ⟨p.keyText, p⟩ _ := .valueless hv
    exact .single hstray hfree (List.mem_singleton_self _)
  | some v =>
    have hstray : Stray site front ⟨p.keyText, p⟩ _ := .broken v hv (hmap v hv)
    exact .single hstray hfree (List.mem_singleton_self _)

end

/-- The report on one pair is about the places in it. -/
theorem strays_sweepPair {p : Pair} {r : Report}
    (hsweep : ∀ n ∈ p.value, ∀ r, site.sweep names (front ++ p.keyText.toList ++ ['.']) n = .ok r →
      Strays site names (front ++ p.keyText.toList ++ ['.']) n.occurrences r)
    (h : site.sweepPair names front p = .ok r) :
    Strays site names front p.places r := by
  have hself : [Occurrence.mk p.keyText p].Sublist p.places :=
    List.singleton_sublist.mpr List.mem_cons_self
  unfold sweepPair at h
  simp only at h
  split at h
  · cases h
    exact .nil _
  · rename_i hname
    have hfree : p.key.isScalar → front ++ p.keyText.toList ∉ names := fun hscalar hmem =>
      hname (Bool.and_eq_true_iff.mpr ⟨hscalar, List.contains_iff_mem.mpr hmem⟩)
    split at h
    · split at h
      · rename_i inner start stop hv
        have hinside : p.inside = (Node.map inner start stop).occurrences := by
          rw [KeyValue.inside, hv]
          rfl
        unfold KeyValue.places
        rw [hinside]
        exact (hsweep _ hv _ h).below.sublist (List.sublist_cons_self _ _)
      · rename_i hv
        cases h
        refine (strays_brokenStep hfree fun v hsome => ?_).sublist hself
        cases v with
        | map inner start stop => exact absurd hsome (hv inner start stop)
        | _ => rfl
    · cases h
      exact (strays_unexpectedKey hfree).sublist hself

/-- **The places that a sweep reports have no name of a property.** -/
theorem strays_sweep {n : Node} {r : Report} (h : site.sweep names front n = .ok r) :
    Strays site names front n.occurrences r := by
  refine sweep_induction (P := fun front n => Strays site names front n.occurrences)
    (fun front n _ => .nil _) (fun front pairs start stop rs hpairs => ?_) h
  rw [occurrences]
  induction hpairs with
  | nil => exact .nil _
  | cons hp _ ih =>
    rw [pairOccurrences_cons, Report.mergeAll_cons]
    exact (strays_sweepPair hp.value hp.report).append ih

end Site

end PackLint
