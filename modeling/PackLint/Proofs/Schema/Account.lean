import PackLint.Proofs.Report.Reordered
import PackLint.Proofs.Schema.Answers
import PackLint.Proofs.Schema.Levels
import PackLint.Proofs.Schema.Spelling
import PackLint.Proofs.Schema.Strays

/-!
# Accounts of properties

Where no name of a property of an object is a name of another or leads on to one, each place in a
map belongs to one property or to none. The check of the map (`SchemaObject`) then gives an account
of each property: of its absence, of its repetition, and of each pair that holds it, whose value is
checked once.

The keys of a document are compared with the names as they are read, so keys that write half a
surrogate pair are left aside (`Yaml.Scan.numericEscape`).

Results:
* `Schema.propertyPairs_perm`: a property is held by the pairs at the places with one of its names.
* `Schema.reordered_checkMap`: the report on a map consists of the accounts of its properties, the
  reports on their values, and strays.
* `Schema.accounted_of_separate`: a check accounts for every property exactly.
-/

namespace PackLint

open Node

namespace Except

variable {ε α β : Type}

/-- A list in another order is mapped to the same outcomes in another order. -/
theorem mapM_perm {f : α → Except ε β} {l l' : List α} {bs : List β} (h : l.Perm l')
    (hbs : l.mapM f = .ok bs) : ∃ bs', l'.mapM f = .ok bs' ∧ bs'.Perm bs := by
  obtain ⟨bs', hrel, hperm⟩ := List.perm_comp_forall₂ h.symm (mapM_eq_ok_iff.mp hbs)
  exact ⟨bs', mapM_eq_ok_iff.mpr hrel, hperm⟩

theorem mapM_append_eq_ok {f : α → Except ε β} {l l' : List α} {bs bs' : List β}
    (h : l.mapM f = .ok bs) (h' : l'.mapM f = .ok bs') : (l ++ l').mapM f = .ok (bs ++ bs') :=
  mapM_eq_ok_iff.mpr (List.rel_append (mapM_eq_ok_iff.mp h) (mapM_eq_ok_iff.mp h'))

/-- If each report consists of a part of its own and of the outcomes for some values, then so do
the reports together. -/
theorem reordered_mapM {f : α → Except Fault Report} {own : α → Report} {values : α → List β}
    {visit : β → Except Fault Report} {l : List α}
    (h : ∀ a ∈ l, ∀ r, f a = .ok r → ∃ outcomes, (values a).mapM visit = .ok outcomes ∧
      r.Reordered (own a ++ .mergeAll outcomes)) {rs : List Report} (hrs : l.mapM f = .ok rs) :
    ∃ outcomes, (l.flatMap values).mapM visit = .ok outcomes ∧
      (Report.mergeAll rs).Reordered (.mergeAll (l.map own) ++ .mergeAll outcomes) := by
  have hrel := mapM_eq_ok_iff.mp hrs
  clear hrs
  induction hrel with
  | nil => exact ⟨[], rfl, .refl _⟩
  | @cons a r l rs hr _ ih =>
    obtain ⟨ha, hl⟩ := List.forall_mem_cons.mp h
    obtain ⟨outcomes, hvalues, hown⟩ := ha r hr
    obtain ⟨others, hothers, hrest⟩ := ih hl
    refine ⟨outcomes ++ others, mapM_append_eq_ok hvalues hothers, ?_⟩
    rw [List.map_cons, Report.mergeAll_cons, Report.mergeAll_cons, Report.mergeAll_append]
    exact (hown.merge hrest).trans (.merge_merge_comm _ _ _ _)

end Except

namespace Schema

variable {site : Site} {n : Node} {pairs : List Pair} {visit : Visit}

/-! ## What holds a property -/

/-- The places in a map that hold a property. -/
def holders (ctx : Context) (e : String × Property) (pairs : List Pair) : List Occurrence :=
  placesNamed (e.2.names e.1 ctx) (pairOccurrences pairs)

/-- **A property is held by the pairs at the places with one of its names.** -/
theorem propertyPairs_perm (ctx : Context) (e : String × Property) (pairs : List Pair) :
    (propertyPairs ctx e.1 e.2 pairs).Perm ((holders ctx e pairs).map (·.pair)) :=
  flatMap_findPairs_perm (nodup_eraseDups _) pairs

theorem nodup_keys_flatProperties {s : Schema} {ctx : Context}
    (hkeys : ((s.properties ctx).map Prod.fst).Nodup) :
    ((s.flatProperties ctx).map Prod.fst).Nodup := by
  refine Entries.nodup_insertAll ((flat_keys_sublist _).nodup ?_)
  rw [withNested_eq_map, List.map_map]
  exact hkeys

/-- Different properties have different keys. -/
theorem key_ne {s : Schema} {ctx : Context} (hkeys : ((s.properties ctx).map Prod.fst).Nodup)
    {e e' : String × Property} (he : e ∈ s.flatProperties ctx) (he' : e' ∈ s.flatProperties ctx)
    (hne : e ≠ e') : e.1 ≠ e'.1 := fun h =>
  hne (List.inj_on_of_nodup_map (nodup_keys_flatProperties hkeys) he he' h)

section Separate

variable {s : Schema} {ctx : Context} (hkeys : ((s.properties ctx).map Prod.fst).Nodup)
  (hsep : Separate ctx s)

include hkeys hsep

/-- A place that holds a property holds no other one. -/
theorem holders_unique {e e' : String × Property} (he : e ∈ s.flatProperties ctx)
    (he' : e' ∈ s.flatProperties ctx) {o : Occurrence} (ho : o.Named (e.2.names e.1 ctx))
    (ho' : o.Named (e'.2.names e'.1 ctx)) : e = e' := by
  by_contra hne
  exact (hsep e he e' he' (key_ne hkeys he he' hne) o.path ho.2 o.path ho'.2).1 rfl

/-- A place inside of the value of a property holds no other property. -/
theorem holders_below_unique {e e' : String × Property} (he : e ∈ s.flatProperties ctx)
    (he' : e' ∈ s.flatProperties ctx) {o q : Occurrence} (ho : o.Named (e.2.names e.1 ctx))
    (hq : (q.below o.path).Named (e'.2.names e'.1 ctx)) : e = e' := by
  by_contra hne
  have hleads := (hsep e he e' he' (key_ne hkeys he he' hne) o.path ho.2 _ hq.2).2
  have hprefix : o.path.toList ++ ['.'] <+: (o.path ++ "." ++ q.path).toList :=
    ⟨q.path.toList, by simp⟩
  rw [leadsOn, Occurrence.below, List.isPrefixOf_iff_prefix.mpr hprefix] at hleads
  cases hleads

/-- **The properties share out the places that have a name of a property.** -/
theorem flatMap_holders_perm (pairs : List Pair) :
    ((s.flatProperties ctx).flatMap (holders ctx · pairs)).Perm
      (placesNamed (propertyNames ctx (s.flatProperties ctx)) (pairOccurrences pairs)) := by
  have hne := List.pairwise_map.mp (nodup_keys_flatProperties hkeys)
  refine flatMap_placesNamed_perm (hne.imp_of_mem fun {e e'} he he' hne o ho ho' => hne ?_) _
  rw [holders_unique hkeys hsep he he' ho ho']

end Separate

/-! ## The account of a property -/

/-- The values that some pairs hold of a property, each with the schema that it is checked with. -/
def heldValues (site : Site) (p : Property) (held : List Pair) : List (Schema × Node) :=
  held.filterMap fun pair => pair.value.map fun v => (p.schema (.ofPair site pair), v)

/-- The problem with one of several pairs that hold a property. -/
def repetition (site : Site) (key : String) (pair : Pair) : Diagnostic where
  range := site.nodeRange pair.key
  message := "Duplicate property `" ++ key ++ "`."
  code := .duplicateProperty

/-- The problem with a pair that holds a property but has no value. -/
def lackOfValue (site : Site) (key : String) (pair : Pair) : Diagnostic where
  range := site.nodeRange pair.key
  message := "Expected a value for `" ++ key ++ "`."
  code := .missingValue

/-- What is shown at the key of a pair that holds a property. -/
def keyHover (site : Site) (key : String) (p : Property) (pair : Pair) : Hover where
  range := site.nodeRange pair.key
  contents := hoverText key p (p.schema (.ofPair site pair)) (.ofPair site pair)

/-- What is said of a property that some pairs hold, the values apart: that it is missing, that it
is repeated, and which pairs lack a value; the others are described. -/
def account (site : Site) (n : Node) (e : String × Property) (held : List Pair) : Report where
  diagnostics :=
    (if held.isEmpty && !e.1.toList.contains '.' && e.2.required (.ofNode site n) then
      [{ range := site.nodeRange n, message := "Missing required property `" ++ e.1 ++ "`."
         code := .missingProperty }]
    else []) ++
    (if 2 ≤ held.length then held.map (repetition site e.1) else []) ++
    (held.filter (·.value.isNone)).map (lackOfValue site e.1)
  hovers := (held.filter (·.value.isSome)).map (keyHover site e.1 e.2)

/-- What is said of a pair that holds a property, its value apart. -/
def pairAccount (site : Site) (key : String) (p : Property) (pair : Pair) : Report :=
  match pair.value with
  | none => .ofDiagnostic (lackOfValue site key pair)
  | some _ => .ofHover (keyHover site key p pair)

theorem mergeAll_pairAccount (site : Site) (key : String) (p : Property) (held : List Pair) :
    Report.mergeAll (held.map (pairAccount site key p)) =
      { diagnostics := (held.filter (·.value.isNone)).map (lackOfValue site key)
        hovers := (held.filter (·.value.isSome)).map (keyHover site key p) } := by
  induction held with
  | nil => rfl
  | cons pair held ih =>
    rw [List.map_cons, Report.mergeAll_cons, ih]
    unfold pairAccount
    cases hv : pair.value <;>
      simp [hv, Report.merge, Report.ofHover, Report.ofDiagnostic, ComponentTable.append]

theorem mergeAll_repetition (site : Site) (key : String) (held : List Pair) :
    Report.mergeAll (held.map fun pair => .ofDiagnostic (repetition site key pair)) =
      { diagnostics := held.map (repetition site key) } := by
  induction held with
  | nil => rfl
  | cons pair held ih =>
    rw [List.map_cons, Report.mergeAll_cons, ih]
    rfl

/-- The account of a property that is not there. -/
theorem account_nil (e : String × Property) :
    account site n e [] = missingProperty site n e.1 e.2 := by
  unfold account missingProperty
  by_cases h : (!e.1.toList.contains '.' && e.2.required (.ofNode site n)) = true
  · rw [if_pos h]
    simp only [List.isEmpty_nil, Bool.true_and, h]
    rfl
  · rw [if_neg h]
    simp only [List.isEmpty_nil, Bool.true_and, h]
    rfl

/-- The account of a property that is there: of its repetition, and then pair by pair. -/
theorem account_of_ne_nil (e : String × Property) {held : List Pair} (h : held.isEmpty = false) :
    account site n e held =
      .mergeAll (if 1 < held.length then
        held.map fun pair => .ofDiagnostic (repetition site e.1 pair)
      else []) ++ .mergeAll (held.map (pairAccount site e.1 e.2)) := by
  rw [mergeAll_pairAccount]
  unfold account
  simp only [h, Bool.false_and, Bool.false_eq_true, if_false, List.nil_append]
  have hlength : 1 < held.length ↔ 2 ≤ held.length := Iff.rfl
  simp only [hlength]
  split
  · rw [mergeAll_repetition]
    rfl
  · rfl

theorem flatMap_heldValues (site : Site) (p : Property) (held : List Pair) :
    held.flatMap (fun pair => heldValues site p [pair]) = heldValues site p held := by
  unfold heldValues
  rw [List.filterMap_eq_flatMap_toList]
  refine List.flatMap_congr fun pair _ => ?_
  cases hv : pair.value <;> simp [hv]

/-- The check of a pair gives its account and checks its value. -/
theorem reordered_checkPair {key : String} {p : Property} {pair : Pair} {r : Report}
    (h : checkPair visit site key p pair = .ok r) :
    ∃ outcomes, (heldValues site p [pair]).mapM (fun t => visit t.1 t.2) = .ok outcomes ∧
      r.Reordered (pairAccount site key p pair ++ .mergeAll outcomes) := by
  unfold checkPair at h
  unfold heldValues pairAccount
  rw [List.filterMap_cons]
  cases hv : pair.value with
  | none =>
    rw [hv] at h
    cases h
    refine ⟨[], rfl, ?_⟩
    rw [Report.append_eq_merge, Report.mergeAll_nil, Report.merge_empty]
    exact .refl _
  | some v =>
    rw [hv] at h
    obtain ⟨outcome, hvisit, h⟩ := Except.bind_eq_ok.mp h
    cases h
    refine ⟨[outcome], ?_, ?_⟩
    · exact Except.mapM_eq_ok_iff.mpr (.cons hvisit .nil)
    · rw [Report.mergeAll_cons, Report.mergeAll_nil, Report.merge_empty]
      exact .refl _

/-- The check of a property gives its account and checks the values that are held. -/
theorem reordered_checkProperty {e : String × Property} {r : Report}
    (h : checkProperty visit site n pairs e.1 e.2 = .ok r) :
    let found := propertyPairs (.ofNode site n) e.1 e.2 pairs
    ∃ outcomes, (heldValues site e.2 found).mapM (fun t => visit t.1 t.2) = .ok outcomes ∧
      r.Reordered (account site n e found ++ .mergeAll outcomes) := by
  intro found
  unfold checkProperty at h
  simp only at h
  change (if found.isEmpty then _ else _) = _ at h
  by_cases hempty : found.isEmpty
  · rw [if_pos hempty] at h
    cases h
    rw [List.isEmpty_iff.mp hempty, account_nil]
    refine ⟨[], rfl, ?_⟩
    rw [Report.append_eq_merge, Report.mergeAll_nil, Report.merge_empty]
    exact .refl _
  · rw [if_neg hempty] at h
    obtain ⟨rs, hrs, h⟩ := Except.bind_eq_ok.mp h
    cases h
    obtain ⟨outcomes, hvalues, hreordered⟩ :=
      Except.reordered_mapM (fun pair _ r hr => reordered_checkPair hr) hrs
    refine ⟨outcomes, flatMap_heldValues site e.2 found ▸ hvalues, ?_⟩
    rw [account_of_ne_nil e (Bool.not_eq_true _ ▸ hempty), Report.mergeAll_append]
    simp only [Report.append_eq_merge, Report.merge_assoc] at hreordered ⊢
    exact (Report.Reordered.refl _).merge hreordered

/-- The account does not depend on the order in which the pairs are found. -/
theorem account_perm (e : String × Property) {held held' : List Pair} (h : held.Perm held') :
    (account site n e held).Reordered (account site n e held') where
  diagnostics := by
    have hempty : held.isEmpty = held'.isEmpty := by
      rw [Bool.eq_iff_iff, List.isEmpty_iff, List.isEmpty_iff]
      exact ⟨fun hnil => (hnil ▸ h).nil_eq.symm, fun hnil => (hnil ▸ h).eq_nil⟩
    unfold account
    simp only [hempty, h.length_eq]
    refine (List.Perm.append_left _ ?_).append ((h.filter _).map _)
    split
    · exact h.map _
    · exact .nil
  hovers := (h.filter _).map _
  links := .nil
  highlights := .nil
  completions := .nil
  components _ := .refl _

/-- The pairs that hold a property, place by place. -/
abbrev held (ctx : Context) (pairs : List Pair) (e : String × Property) : List Pair :=
  (holders ctx e pairs).map (·.pair)

/-- **The check of a map gives the accounts of its properties and checks the values that are held**,
and a sweep looks for strays. -/
theorem reordered_checkMap {s : Schema} {start stop : Nat} {r : Report}
    (h : s.checkMap visit site (.map pairs start stop) = .ok r) :
    let ctx := Context.ofNode site (.map pairs start stop)
    let flat := s.flatProperties ctx
    ∃ outcomes strays,
      (flat.flatMap fun e => heldValues site e.2 (held ctx pairs e)).mapM
        (fun t => visit t.1 t.2) = .ok outcomes ∧
      site.sweep ((propertyNames ctx flat).map String.toList) [] (.map pairs start stop) =
        .ok strays ∧
      r.Reordered (.mergeAll (flat.map fun e =>
          account site (.map pairs start stop) e (held ctx pairs e)) ++
        .mergeAll outcomes ++ strays ++ s.entryHovers site (.map pairs start stop) pairs) := by
  intro ctx flat
  unfold checkMap at h
  obtain ⟨-, -, h⟩ := Except.bind_eq_ok.mp h
  obtain ⟨rs, hrs, h⟩ := Except.bind_eq_ok.mp h
  obtain ⟨strays, hstrays, h⟩ := Except.bind_eq_ok.mp h
  cases h
  have hproperty : ∀ e ∈ flat, ∀ r,
      checkProperty visit site (.map pairs start stop) pairs e.1 e.2 = .ok r →
      ∃ outcomes, (heldValues site e.2 (held ctx pairs e)).mapM (fun t => visit t.1 t.2) =
          .ok outcomes ∧
        r.Reordered (account site (.map pairs start stop) e (held ctx pairs e) ++
          .mergeAll outcomes) := by
    intro e _ r hr
    obtain ⟨outcomes, hvalues, hreordered⟩ := reordered_checkProperty hr
    have hperm := propertyPairs_perm ctx e pairs
    obtain ⟨outcomes', hvalues', houtcomes⟩ := Except.mapM_perm (hperm.filterMap _) hvalues
    refine ⟨outcomes', hvalues', hreordered.trans ?_⟩
    exact (account_perm e hperm).merge (Report.Reordered.mergeAll houtcomes).symm
  obtain ⟨outcomes, hvalues, hreordered⟩ := Except.reordered_mapM hproperty hrs
  refine ⟨outcomes, strays, hvalues, hstrays, ?_⟩
  exact (hreordered.merge (.refl _)).merge (.refl _)

/-- The check of a map `n` with some pairs accounts for flattened properties. -/
structure Accounted (s : Schema) (site : Site) (n : Node) (pairs : List Pair)
    (flat : List (String × Property)) : Prop where
  /-- No place holds two properties. -/
  unique : ∀ e ∈ flat, ∀ e' ∈ flat, ∀ o ∈ holders (.ofNode site n) e pairs,
    o ∈ holders (.ofNode site n) e' pairs → e = e'
  /-- Nor does a place inside of a value that is checked for another property. -/
  apart : ∀ e ∈ flat, ∀ e' ∈ flat, ∀ o ∈ holders (.ofNode site n) e pairs, ∀ q ∈ o.pair.inside,
    q.below o.path ∈ holders (.ofNode site n) e' pairs → e = e'
  /-- Each place with a name of a property holds a property, and does so once. -/
  once : (flat.flatMap (holders (.ofNode site n) · pairs)).Perm
    (placesNamed (propertyNames (.ofNode site n) flat) (pairOccurrences pairs))
  /-- The check has a report iff the keys that it comes to can be written, the values that are held
  can be checked, and the checks that the schema brings along have a report. -/
  answers : Except.Answers (s.check site n) ↔
    (∀ m, Site.Sweeps ((propertyNames (.ofNode site n) flat).map String.toList) [] n m →
      Site.WritesKeys m) ∧
    (∀ e ∈ flat, ∀ t ∈ heldValues site e.2 (held (.ofNode site n) pairs e),
      Except.Answers (t.1.check site t.2)) ∧
    ∀ check ∈ s.info.localChecks (.ofNode site n), Except.Answers (check site n)
  /-- The report consists of the accounts of the properties, the reports on the values that are
  held, strays, and what the checks report that the schema brings along. -/
  report : ∀ r, s.check site n = .ok r → ∃ outcomes strays rest,
    (flat.flatMap fun e => heldValues site e.2 (held (.ofNode site n) pairs e)).mapM
      (fun t => t.1.check site t.2) = .ok outcomes ∧
    site.Strays ((propertyNames (.ofNode site n) flat).map String.toList) []
      (pairOccurrences pairs) strays ∧
    runChecks (s.info.localChecks (.ofNode site n)) site n = .ok rest ∧
    r.Reordered (.mergeAll (flat.map fun e => account site n e (held (.ofNode site n) pairs e)) ++
      .mergeAll outcomes ++ strays ++ rest)

/-- When the check of an object or of a map has a report. -/
theorem answers_check_pairs {s : Schema} {start stop : Nat}
    (hs : ∀ visit, checkStructure visit s site (.map pairs start stop) =
      s.checkMap visit site (.map pairs start stop)) :
    let n := Node.map pairs start stop
    let flat := s.flatProperties (.ofNode site n)
    Except.Answers (s.check site n) ↔
      (∀ m, Site.Sweeps ((propertyNames (.ofNode site n) flat).map String.toList) [] n m →
        Site.WritesKeys m) ∧
      (∀ e ∈ flat, ∀ t ∈ heldValues site e.2 (held (.ofNode site n) pairs e),
        Except.Answers (t.1.check site t.2)) ∧
      ∀ check ∈ s.info.localChecks (.ofNode site n), Except.Answers (check site n) := by
  intro n flat
  have hvalues : ∀ e : String × Property,
      (∀ pair ∈ propertyPairs (.ofNode site n) e.1 e.2 pairs, ∀ m ∈ pair.value,
        Except.Answers ((e.2.schema (.ofPair site pair)).check site m)) ↔
      ∀ t ∈ heldValues site e.2 (held (.ofNode site n) pairs e),
        Except.Answers (t.1.check site t.2) := by
    intro e
    have hmem (pair : Pair) := (propertyPairs_perm (.ofNode site n) e pairs).mem_iff (a := pair)
    constructor
    · intro h t ht
      obtain ⟨pair, hpair, ht⟩ := List.mem_filterMap.mp ht
      obtain ⟨v, hv, rfl⟩ := Option.map_eq_some_iff.mp ht
      exact h pair ((hmem pair).mpr hpair) v hv
    · intro h pair hpair v hv
      refine h (e.2.schema (.ofPair site pair), v) (List.mem_filterMap.mpr ⟨pair, ?_, ?_⟩)
      · exact (hmem pair).mp hpair
      · rw [Option.mem_def.mp hv]
        rfl
  have hstep : Except.Answers (s.check site n) ↔
      Except.Answers (s.checkMap (fun t m => t.check site m) site n) ∧
        Except.Answers (runChecks (s.info.localChecks (.ofNode site n)) site n) := by
    rw [check_eq, hs]
    exact Except.answers_bind_of_forall fun _ _ => Except.answers_bind_ok
  rw [hstep, answers_checkMap_map, answers_runChecks, and_assoc]
  exact and_congr_right fun _ => and_congr_left fun _ => forall₂_congr fun e _ => hvalues e

section Object

variable {info : SchemaInfo} {properties : Context → List (String × Property)} {start stop : Nat}

/-- **A check accounts for every property exactly**, if the keys of an object differ and no name of
a property is a name of another or leads on to one. -/
theorem accounted_of_separate
    (hkeys : ((properties (.ofNode site (.map pairs start stop))).map Prod.fst).Nodup)
    (hsep : Separate (.ofNode site (.map pairs start stop)) (.object info properties)) :
    Accounted (.object info properties) site (.map pairs start stop) pairs
      (flatProperties (.object info properties) (.ofNode site (.map pairs start stop))) := by
  have hown : ((Schema.properties (.ofNode site (.map pairs start stop))
      (.object info properties)).map Prod.fst).Nodup := hkeys
  have hnamed : ∀ {o : Occurrence} {e : String × Property},
      o ∈ holders (.ofNode site (.map pairs start stop)) e pairs →
      o.Named (e.2.names e.1 (.ofNode site (.map pairs start stop))) :=
    fun ho => of_decide_eq_true (List.mem_filter.mp ho).2
  refine ⟨?_, ?_, flatMap_holders_perm hown hsep pairs,
    answers_check_pairs fun _ => rfl, fun r hr => ?_⟩
  · exact fun e he e' he' o ho ho' => holders_unique hown hsep he he' (hnamed ho) (hnamed ho')
  · exact fun e he e' he' o ho q _ hq =>
      holders_below_unique hown hsep he he' (hnamed ho) (hnamed hq)
  · rw [check_eq] at hr
    obtain ⟨r', hmap, hr⟩ := Except.bind_eq_ok.mp hr
    obtain ⟨rest, hrest, hr⟩ := Except.bind_eq_ok.mp hr
    cases hr
    obtain ⟨outcomes, strays, hvalues, hsweep, hreordered⟩ := reordered_checkMap hmap
    have hstrays := Site.strays_sweep hsweep
    rw [occurrences] at hstrays
    -- an object has no entries of its own that would be described
    have hnone : entryHovers (.object info properties) site (.map pairs start stop) pairs =
        .empty := rfl
    rw [hnone, Report.append_eq_merge _ Report.empty, Report.merge_empty] at hreordered
    exact ⟨outcomes, strays, rest, hvalues, hstrays, hrest, hreordered.merge (.refl rest)⟩

end Object

/-! ## A sample -/

/-- The nested properties of the other sample, and a required string `D`. -/
def requiringSample : List (String × Property) :=
  ("D", { schema := fun _ => anyString, required := fun _ => true }) :: outerSample

/-- The pairs of a document without `D` that spells one property in two ways: `B: y` and `C: one`
below `A`, and `X.Y` without a value. -/
def repeatedSample : List Pair :=
  nestedSample ++ [⟨.scalar (sampleScalar "X.Y" 19), none, none⟩]

/-- The places of a property are found under all of its names. -/
example : (pairOccurrences repeatedSample).map (·.path) = ["A", "A.B", "A.C", "X.Y"] ∧
    (placesNamed ["A.B", "A.Y", "X.B", "X.Y"] (pairOccurrences repeatedSample)).map (·.path) =
      ["A.B", "X.Y"] := by decide

theorem accounted_sample :
    let site := sampleSite "A:\n  B: y\n  C: one\nX.Y:"
    let n := Node.map repeatedSample 0 23
    (requiringSample.map Prod.fst).Nodup ∧
      Separate (.ofNode site n) (.object {} fun _ => requiringSample) ∧
      Accounted (.object {} fun _ => requiringSample) site n repeatedSample
        (flatProperties (.object {} fun _ => requiringSample) (.ofNode site n)) := by
  intro site n
  have hkeys : (requiringSample.map Prod.fst).Nodup := by decide
  have hsep : Separate (.ofNode site n) (.object {} fun _ => requiringSample) := by
    unfold Separate
    decide
  exact ⟨hkeys, hsep, accounted_of_separate hkeys hsep⟩

end Schema

end PackLint
