import PackLint.Proofs.Pack.Lookups
import PackLint.Proofs.Schema.Account
import PackLint.Proofs.Schema.Entrywise
import PackLint.Proofs.Tree.Placed

/-!
# Files, entry by entry

The local check of a file finds what the local checks of its entries find one by one, each in a
document that holds the entry alone at the same place: no entry's verdict depends on the others.

Results:
* `Pack.findings_check_file`: in one document the findings in a file are those in its entries.
* `Pack.check_alone`: an entry is checked alike with the others around it and without.
* `Pack.findings_entries`: the findings in a file without aliases are those in its entries, each of
  them in a document of its own.
-/

namespace PackLint

open Node

/-! ## Checks that files bring along -/

theorem entrywise_registration (kind : ComponentKind) (color : TextClass) :
    (registration kind color).Entrywise := by
  have hpairs : ∀ site qs start stop, findings (registration kind color site (.map qs start stop)) =
      (qs.map fun p => (Registration.pairReport kind color site
        (site.registry.taken site.uri kind) p).findings).sum := by
    intro site qs start stop
    rw [registration_map, findings_ok, Report.findings_append, Report.findings_mergeAll,
      List.map_map, Report.findings_eq_zero (r := { components := _ }) rfl, add_zero]
    rfl
  intro site pairs start stop
  rw [hpairs]
  refine congrArg List.sum (List.map_congr_left fun p _ => ?_)
  rw [hpairs, List.map_singleton, List.sum_singleton]

namespace Pack

theorem entrywise_mobTypes : Check.Entrywise mobTypes := by
  have hpairs : ∀ site qs start stop, findings (mobTypes site (.map qs start stop)) =
      (qs.map fun p => findings (checkMobType site p)).sum := by
    intro site qs start stop
    rw [← findings_mergeAll_mapM]
    rfl
  intro site pairs start stop
  rw [hpairs]
  refine congrArg List.sum (List.map_congr_left fun p _ => ?_)
  rw [hpairs, List.map_singleton, List.sum_singleton]

theorem entrywise_localChecks (kind : FileKind) :
    ∀ c ∈ registration kind.declares kind.idColor :: otherChecks kind, Check.Entrywise c := by
  refine List.forall_mem_cons.mpr ⟨entrywise_registration _ _, ?_⟩
  cases kind with
  | mob => exact List.forall_mem_singleton.mpr entrywise_mobTypes
  | _ => exact fun _ hc => nomatch hc

/-! ## The properties of an entry -/

/-- The properties of the entries of files of a kind. -/
def entryProperties : FileKind → List (String × Property)
  | .skill => skillProperties
  | .mob => mobProperties
  | .item => itemProperties

/-- A file maps ids to objects with these properties. -/
theorem schema_eq_map (kind : FileKind) : ∃ info inner describe,
    kind.schema = .map info (fun _ => .object inner fun _ => entryProperties kind) describe := by
  cases kind <;> exact ⟨_, _, _, rfl⟩

theorem nodup_keys_entryProperties (kind : FileKind) :
    ((entryProperties kind).map Prod.fst).Nodup := by
  cases kind <;> decide

theorem nestedProperties_entry_ne_nil (kind : FileKind) (inner : SchemaInfo) (ctx : Context) :
    Schema.nestedProperties ctx (.object inner fun _ => entryProperties kind) ≠ [] := by
  cases kind <;> exact Schema.nestedProperties_ne_nil List.mem_cons_self

/-- **In one document the findings in a file are those in its entries.** -/
theorem findings_check_file (kind : FileKind) (site : Site) {pairs : List Pair} (start stop : Nat)
    (h : EntryKeys pairs) :
    findings (kind.schema.check site (.map pairs start stop)) =
      (pairs.map fun p => findings (kind.schema.check site (.map [p] start stop))).sum := by
  obtain ⟨info, inner, describe, hschema⟩ := schema_eq_map kind
  have hchecks : ∀ ctx, info.localChecks ctx =
      registration kind.declares kind.idColor :: otherChecks kind := by
    intro ctx
    rw [← localChecks_file kind ctx, hschema]
    rfl
  have hsteady : Schema.All (Schema.ObjectSteady Context.SamePlace)
      (.object inner fun _ => entryProperties kind) :=
    (known_parts kind _ (hschema ▸ ⟨.ofNode site (.map pairs start stop), rfl⟩)).imp
      fun _ ht => ht.fields.objectSteady
  rw [hschema]
  refine Schema.findings_check_entries h (fun qs => ?_)
    (fun ctx => nestedProperties_entry_ne_nil kind inner ctx) (fun ctx => ?_) hchecks
    (entrywise_localChecks kind)
  · exact Schema.entryFlat_congr hsteady ⟨rfl, rfl, rfl⟩
  · rw [← Schema.flatProperties_of_isObject rfl]
    exact Schema.nodup_keys_flatProperties (nodup_keys_entryProperties kind)

/-! ## Entries alone -/

/-- Pairs whose values do not enclose a node are passed over. -/
theorem findSome?_of_not_encloses {n : Node} {p : Pair} {before behind : List Pair}
    (h : ∀ q ∈ before ++ behind, ∀ v ∈ q.value, ¬ v.Encloses n) :
    let found (q : Pair) : Option Node := do
      let v ← q.value
      if v.isMap ∧ v.start ≤ n.start ∧ n.stop ≤ v.stop then some v else none
    (before ++ p :: behind).findSome? found = [p].findSome? found := by
  intro found
  have hnone : ∀ q ∈ before ++ behind, found q = none := by
    intro q hq
    cases hv : q.value with
    | none => simp [found, hv]
    | some v =>
      simp only [found, hv, Option.bind_eq_bind, Option.bind_some]
      exact if_neg fun he => h q hq v hv he.2
  obtain ⟨hbefore, hbehind⟩ := List.forall_mem_append.mp hnone
  rw [List.findSome?_append, List.findSome?_eq_none_iff.mpr hbefore, Option.none_or,
    List.findSome?_cons, List.findSome?_cons, List.findSome?_eq_none_iff.mpr hbehind]
  rfl

/-- The nodes of an entry, and the map around it, are found in no other entry. -/
theorem foundAlike_alone {start stop : Nat} {pairs : List Pair} {p : Pair} {n : Node}
    (h : EntriesApart start pairs) (hp : p ∈ pairs) (hn : n.Within (.map [p] start stop)) :
    n.FoundAlike (some (.map pairs start stop)) (some (.map [p] start stop)) := by
  obtain ⟨before, behind, rfl⟩ := List.append_of_mem hp
  intro site
  refine findSome?_of_not_encloses fun q hq v hv => ?_
  have hmem : q ∈ before ++ p :: behind := by
    rcases List.mem_append.mp hq with hq | hq
    · exact List.mem_append_left _ hq
    · exact List.mem_append_right _ (List.mem_cons_of_mem p hq)
  cases hn with
  | refl => exact h.not_encloses_map hmem hv
  | value hr hm hwithin =>
    rw [List.mem_singleton.mp hr] at hm
    exact h.not_encloses hm hwithin hq hv

/-- **An entry is checked alike with the others around it and without.** -/
theorem check_alone (kind : FileKind) (site : Site) {start stop : Nat} {pairs : List Pair}
    {p : Pair} (h : EntriesApart start pairs) (hp : p ∈ pairs) :
    kind.schema.check { site with tree := some (.map pairs start stop) } (.map [p] start stop) =
      kind.schema.check { site with tree := some (.map [p] start stop) } (.map [p] start stop) :=
  check_of_lookups (fun _ => foundAlike_alone h hp) (downClosed_within _) .refl

/-- What the local check of a file finds in a document that holds just these pairs, at the places
where they stand. -/
def findingsIn (kind : FileKind) (site : Site) (pairs : List Pair) (start stop : Nat) : Findings :=
  findings (kind.schema.check { site with tree := some (.map pairs start stop) }
    (.map pairs start stop))

/-- **The findings in a file without aliases are those in its entries**, whether the document holds
the other entries or not. -/
theorem findings_entries (kind : FileKind) (site : Site) {limits : Limits} {pairs : List Pair}
    {start stop : Nat} (hload : Node.load limits site.source = .ok (some (.map pairs start stop)))
    (halias : Yaml.AliasFree site.source.toList) (hkeys : EntryKeys pairs) :
    findingsIn kind site pairs start stop =
        (pairs.map fun p => findings (kind.schema.check
          { site with tree := some (.map pairs start stop) } (.map [p] start stop))).sum ∧
      findingsIn kind site pairs start stop =
        (pairs.map fun p => findingsIn kind site [p] start stop).sum := by
  have hapart := Node.entriesApart_load hload halias
  have hfile := findings_check_file kind { site with tree := some (.map pairs start stop) } start
    stop hkeys
  refine ⟨hfile, hfile.trans (congrArg List.sum (List.map_congr_left fun p hp => ?_))⟩
  exact congrArg findings (check_alone kind site hapart hp)

/-- A text of two entries, with the keys of entries. -/
theorem exists_entries_of_load {limits : Limits} {src : Source}
    (h : ((Node.load limits src).toOption.join.bind Node.pairs?).any
      fun pairs => pairs.length = 2 ∧ EntryKeys pairs) :
    ∃ p q start stop, Node.load limits src = .ok (some (.map [p, q] start stop)) ∧
      EntryKeys [p, q] := by
  obtain ⟨pairs, hpairs, htwo⟩ := (Option.any_eq_true _ _).mp h
  obtain ⟨hlength, hkeys⟩ := of_decide_eq_true htwo
  obtain ⟨p, q, rfl⟩ := List.length_eq_two.mp hlength
  obtain ⟨n, hn, hpairs⟩ := Option.bind_eq_some_iff.mp hpairs
  cases hload : Node.load limits src with
  | error e =>
    rw [hload] at hn
    cases hn
  | ok tree =>
    rw [hload] at hn
    cases hn
    cases n with
    | map pairs start stop =>
      cases hpairs
      exact ⟨p, q, start, stop, rfl, hkeys⟩
    | _ => cases hpairs

/-- A skill that misses a value and one with a property that no skill has. -/
theorem findings_two_skills :
    let site : Site := {
      settings := {}, data := {}, registry := [], uri := "file:///workspace/test.yml", tree := none
      source := .ofString "heal:\n  Skills:\nharm:\n  Cooldwn: 5\n" }
    ∃ p q start stop, Node.load {} site.source = .ok (some (.map [p, q] start stop)) ∧
      Yaml.AliasFree site.source.toList ∧ EntryKeys [p, q] ∧
      findingsIn .skill site [p, q] start stop =
        findingsIn .skill site [p] start stop + findingsIn .skill site [q] start stop := by
  intro site
  have halias : Yaml.AliasFree site.source.toList := by decide +kernel
  have htwo : ((Node.load {} site.source).toOption.join.bind Node.pairs?).any
      fun pairs => pairs.length = 2 ∧ EntryKeys pairs := by decide +kernel
  obtain ⟨p, q, start, stop, hload, hkeys⟩ := exists_entries_of_load htwo
  refine ⟨p, q, start, stop, hload, halias, hkeys, ?_⟩
  simpa using (findings_entries .skill site hload halias hkeys).2

end Pack

end PackLint
