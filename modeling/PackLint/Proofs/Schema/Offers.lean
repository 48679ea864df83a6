import PackLint.Proofs.Schema.Proposals

/-!
# What an editor offers for a missing property

Where there is no map yet, an editor offers the properties of an object under their keys. In a map
it offers (`_completions`) the names of the missing flat properties instead, those of a single
segment, so an absent property is offered only if it is flat itself. One whose value is an object
with properties is flat under dotted names alone: its key is not offered, unless another missing
property has it as an alias.

Results:
* `Schema.proposals_perm`: a map has completions of its own and those of the maps inside of it.
* `Schema.completions_resolve`: where the completions of a map come from.
* `Schema.offers_absent`: when an absent property is offered.
-/

namespace PackLint

open Node

namespace Schema

variable {ctx : Context} {names : List (List Char)} {missing : List (String × Property)}
  {front : List Char} {items : List CompletionItem}

/-! ## Completions -/

/-- The completions of a map itself: one at each pair, or one in all of it if it is empty. -/
def ownCompletions (site : Site) (items : List CompletionItem) (pairs : List Pair)
    (start stop : Nat) : List Completion :=
  if pairs.isEmpty then [{ range := site.source.range start stop, items }]
  else pairs.map (pairCompletion site items)

/-- The completion stands in a map inside of the value of a pair, and has the items that are offered
at the path of this map. -/
def CompletesInside (s : Schema) (site : Site) (n : Node) (pairs : List Pair) (c : Completion) :
    Prop :=
  ∃ q ∈ pairs, ∃ v ∈ q.value, ∃ inner start stop more, MapAt (.map inner start stop) more v ∧
    CompletesIn site c (.map inner start stop) ∧
    c.items = s.offered site n (q.keyText.toList ++ '.' :: more)

/-- The completions around pairs are one at each of them and those in the maps that they hold. -/
theorem pairCompletions_perm (ps : List Pair) : ∃ inside,
    (pairCompletions ctx names missing front items ps).Perm
      (ps.map (pairCompletion ctx.site items) ++ inside) ∧
    ∀ c ∈ inside, ∃ q ∈ ps, ∃ v ∈ q.value,
      c ∈ mapCompletions ctx names missing (front ++ q.keyText.toList ++ ['.']) v := by
  induction ps with
  | nil =>
    rw [pairCompletions]
    exact ⟨[], .nil, List.forall_mem_nil _⟩
  | cons q ps ih =>
    obtain ⟨others, hperm, hothers⟩ := ih
    obtain ⟨inside, heq, hinside⟩ := pairCompletions_cons ctx names missing front items q ps
    refine ⟨inside ++ others, ?_, fun c hc => ?_⟩
    · rw [heq]
      refine ((List.Perm.append_left inside hperm).trans ?_).cons _
      exact List.perm_append_comm_assoc _ _ _
    · rcases List.mem_append.mp hc with hc | hc
      · exact ⟨q, List.mem_cons_self, hinside c hc⟩
      · obtain ⟨q', hq', h⟩ := hothers c hc
        exact ⟨q', List.mem_cons_of_mem q hq', h⟩

/-- A map has its own completions and those of the maps inside of it. -/
theorem proposals_perm (s : Schema) (site : Site) (pairs : List Pair) (start stop : Nat) :
    ∃ inside,
      (s.proposals site (.map pairs start stop)).Perm
        (ownCompletions site (s.offered site (.map pairs start stop) []) pairs start stop ++
          inside) ∧
      ∀ c ∈ inside, s.CompletesInside site (.map pairs start stop) pairs c := by
  unfold proposals ownCompletions
  simp only
  rw [mapCompletions]
  split
  · exact ⟨[], .refl _, List.forall_mem_nil _⟩
  · obtain ⟨inside, hperm, hinside⟩ := pairCompletions_perm pairs
    refine ⟨inside, hperm, fun c hc => ?_⟩
    obtain ⟨q, hq, v, hv, hc⟩ := hinside c hc
    obtain ⟨inner, first, last, more, hm, hstands, hitems⟩ := mem_mapCompletions hc
    refine ⟨q, hq, v, hv, inner, first, last, more, hm, hstands, ?_⟩
    rw [hitems]
    simp [offered]

/-- The completions in a report are those of the map itself, those of the maps inside of it, those
of the values of the properties, and those that the schema brings along. -/
def CompletesMap (s : Schema) (site : Site) (pairs : List Pair) (start stop : Nat) (r : Report) :
    Prop :=
  let n := Node.map pairs start stop
  ∃ inside values rest,
    (s.flatProperties (.ofNode site n)).mapM (fun e =>
      resolveProperty (resolveWithin site n.height) site (heldIn site n e) e.2) = .ok values ∧
    runChecks (s.info.referenceChecks (.ofNode site n)) site n = .ok rest ∧
    (∀ c ∈ inside, s.CompletesInside site n pairs c) ∧
    r.completions.Perm (ownCompletions site (s.offered site n []) pairs start stop ++ inside ++
      (Report.mergeAll values).completions ++ rest.completions)

/-- **Where the completions of a map come from.** -/
theorem completions_resolve {s : Schema} {site : Site} {pairs : List Pair} {start stop : Nat}
    (hs : ∀ visit, resolveStructure visit s site (.map pairs start stop) =
      s.resolveMap visit site (.map pairs start stop)) {r : Report}
    (h : s.resolve site (.map pairs start stop) = .ok r) :
    s.CompletesMap site pairs start stop r := by
  obtain ⟨r', hmap, h⟩ := Except.bind_eq_ok.mp h
  obtain ⟨rest, hrest, h⟩ := Except.bind_eq_ok.mp h
  cases h
  rw [hs, resolveMap_map] at hmap
  obtain ⟨values, hvalues, hmap⟩ := Except.bind_eq_ok.mp hmap
  cases hmap
  obtain ⟨inside, hperm, hinside⟩ := s.proposals_perm site pairs start stop
  refine ⟨inside, values, rest, hvalues, hrest, hinside, List.Perm.append_right _ ?_⟩
  exact List.perm_append_comm.trans (hperm.append_right _)

/-! ## Absent properties -/

/-- The flat properties with keys of a single segment are the properties without nested ones. -/
theorem mem_flatProperties_of_dotFree {s : Schema} {e : String × Property} (hfree : DotFree e.1) :
    e ∈ s.flatProperties ctx ↔
      e ∈ s.properties ctx ∧ (e.2.schema ctx).ownProperties ctx = [] := by
  unfold flatProperties NestedProperties.flatten
  constructor
  · intro h
    rcases Entries.mem_insertAll h with h | h
    · exact (mem_flat_withNested.mp h).imp_right nestedProperties_eq_nil.mp
    · obtain ⟨key, p, -, c, -, rfl⟩ := mem_dotted_withNested.mp h
      exact absurd hfree (not_dotFree_append _ _)
  · rintro ⟨he, hleaf⟩
    refine Entries.mem_insertAll_of_not_mem
      (mem_flat_withNested.mpr ⟨he, nestedProperties_eq_nil.mpr hleaf⟩) fun hkey => ?_
    obtain ⟨e', he', hfst⟩ := List.mem_map.mp hkey
    obtain ⟨key, p, -, c, -, rfl⟩ := mem_dotted_withNested.mp he'
    exact not_dotFree_append _ _ (hfst ▸ hfree)

/-- Nothing holds a property if no place has one of its names. -/
theorem heldIn_eq_nil {site : Site} {n : Node} {e : String × Property}
    (h : ∀ o ∈ n.occurrences, ¬ o.Named (e.2.names e.1 (.ofNode site n))) :
    heldIn site n e = [] := by
  have hnone : placesNamed (e.2.names e.1 (.ofNode site n)) n.occurrences = [] :=
    List.filter_eq_nil_iff.mpr fun o ho hnamed => h o ho (of_decide_eq_true hnamed)
  have hperm := heldIn_perm site n e
  rw [pairsUnder, hnone] at hperm
  exact hperm.eq_nil

section Absent

variable {info : SchemaInfo} {ps : List (String × Property)} {site : Site}
  {e : String × Property}

/-- Where there is no map, every property is offered. -/
theorem exists_offered_elsewhere (he : e ∈ ps) {m : Node} (hm : m.isMap = false) {r : Report}
    (h : (Schema.object info fun _ => ps).resolve site m = .ok r) :
    ∃ c ∈ r.completions, e.1 ∈ labels c.items := by
  obtain ⟨r', hmap, h⟩ := Except.bind_eq_ok.mp h
  obtain ⟨rest, hrest, h⟩ := Except.bind_eq_ok.mp h
  cases h
  have hlabel : e.1 ∈ labels (ps.map fun e => propertyProposal (.ofNode site m) e.1 e.2) :=
    List.mem_map.mpr ⟨_, List.mem_map_of_mem he, rfl⟩
  cases m with
  | map => cases hm
  | _ =>
    cases hmap
    exact ⟨_, List.mem_append_left _ (List.mem_singleton_self _), hlabel⟩

/-- A property that nothing holds is offered in a map under its key iff the key is a single segment
and the value is no object with properties, or the key is an alias of another missing property. -/
theorem mem_labels_offered_iff (hkeys : (ps.map Prod.fst).Nodup) (he : e ∈ ps) {n : Node}
    (habsent : heldIn site n e = []) :
    let s := Schema.object info fun _ => ps
    e.1 ∈ labels (s.offered site n []) ↔ DotFree e.1 ∧
      ((e.2.schema (.ofNode site n)).ownProperties (.ofNode site n) = [] ∨
        ∃ e' ∈ s.missingFrom site n, e'.1 ≠ e.1 ∧ e.1 ∈ e'.2.aliasList (.ofNode site n)) := by
  intro s
  rw [mem_labels_offered]
  refine and_congr_right fun hfree => ?_
  rw [List.nil_append, String.ofList_toList]
  constructor
  · rintro ⟨e', hmissing, hname⟩
    by_cases hkey : e'.1 = e.1
    · have hflat := (List.mem_filter.mp hmissing).1
      obtain ⟨he', hleaf⟩ := (mem_flatProperties_of_dotFree (hkey ▸ hfree)).mp hflat
      cases List.inj_on_of_nodup_map hkeys he' he hkey
      exact .inl hleaf
    · exact .inr ⟨e', hmissing, hkey, (List.mem_cons.mp (mem_names.mp hname)).resolve_left
        (Ne.symm hkey)⟩
  · rintro (hleaf | ⟨e', hmissing, -, halias⟩)
    · refine ⟨e, List.mem_filter.mpr ⟨?_, List.isEmpty_iff.mpr habsent⟩, key_mem_names _ _ _⟩
      exact (mem_flatProperties_of_dotFree hfree).mpr ⟨he, hleaf⟩
    · exact ⟨e', hmissing, mem_names.mpr (List.mem_cons_of_mem _ halias)⟩

end Absent

/-! ## A sample -/

/-- A string `B` nested under `A`, and a string `C`. -/
def nestingSample : List (String × Property) :=
  [("A", { schema := fun _ => .object {} fun _ => [("B", { schema := fun _ => anyString })] }),
    ("C", { schema := fun _ => anyString })]

/-- The pair of a document with `key: x`. -/
def singleSample (key : String) : List Pair :=
  [⟨.scalar (sampleScalar key 0), some (.scalar (sampleScalar "x" (key.length + 2))), none⟩]

end Schema

end PackLint
