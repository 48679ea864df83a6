import PackLint.Proofs.Schema.Account
import PackLint.Proofs.Schema.Findings
import PackLint.Proofs.Tree.Editing

/-!
# Keys that an object recognises

Where no two properties of an object share a name, a pair that is added to a map belongs to one
property at most. If the property was missing and the path of the key is a name of it, then the
property is held by the new pair, all other properties are held as before, and the object says
nothing against the key.

If the map stands in the value of another property, the schema of this value looks at the key as
well, and may know nothing of it.

Results:
* `Site.sweep_edited`: a pair that has a name of a property is passed over by the sweep.
* `Schema.recognisedAs_of_mem`: a pair under a name of a missing property is recognised as it.
-/

namespace PackLint

open Node

namespace Schema

/-! ## Keys of a property -/

/-- The flat properties of the schema and their names are the same in all contexts, as those of a
static object are. -/
structure FixedNames (s : Schema) : Prop where
  flat : ∀ ctx ctx', s.flatProperties ctx = s.flatProperties ctx'
  aliases : ∀ ctx, ∀ e ∈ s.flatProperties ctx, ∀ ctx₁ ctx₂, e.2.aliases ctx₁ = e.2.aliases ctx₂

theorem Static.fixedNames {s : Schema} (hs : Static s) (hobject : s.isObject) : s.FixedNames where
  flat ctx ctx' := by
    rw [flatProperties_of_isObject hobject, flatProperties_of_isObject hobject]
    exact nestedProperties_eq_of_static hs ctx ctx'
  aliases ctx e he ctx₁ ctx₂ := by
    rw [flatProperties_of_isObject hobject] at he
    exact (static_of_mem_nestedProperties hs he).aliases ctx₁ ctx₂

end Schema

namespace Site

variable {site : Site} {names : List (List Char)} {front : List Char}

/-- A pair that has a name of a property is passed over. -/
theorem sweepPair_of_mem {p : Pair} (hp : p.key.isScalar)
    (hname : front ++ p.keyText.toList ∈ names) : site.sweepPair names front p = .ok .empty := by
  unfold sweepPair
  exact if_pos (Bool.and_eq_true_iff.mpr ⟨hp, List.contains_iff_mem.mpr hname⟩)

theorem sweepPairs_insert {p : Pair} (hp : site.sweepPair names front p = .ok .empty)
    (before after : List Pair) :
    site.sweepPairs names front (before ++ p :: after) =
      site.sweepPairs names front (before ++ after) := by
  induction before with
  | nil =>
    rw [List.nil_append, List.nil_append, sweepPairs_cons, hp]
    cases site.sweepPairs names front after with
    | error fault => rfl
    | ok r => exact congrArg Except.ok (Report.empty_merge r)
  | cons q before ih =>
    rw [List.cons_append, List.cons_append, sweepPairs_cons, sweepPairs_cons, ih]

theorem sweepPairs_exchange {q q' : Pair}
    (hq : site.sweepPair names front q = site.sweepPair names front q') (before after : List Pair) :
    site.sweepPairs names front (before ++ q :: after) =
      site.sweepPairs names front (before ++ q' :: after) := by
  induction before with
  | nil => rw [List.nil_append, List.nil_append, sweepPairs_cons, sweepPairs_cons, hq]
  | cons _ before ih =>
    rw [List.cons_append, List.cons_append, sweepPairs_cons, sweepPairs_cons, ih]

/-- **A pair that has a name of a property adds nothing to a sweep**, in whatever map it stands. -/
theorem sweep_edited {before after : List Pair} {p : Pair} {more : List Char} {n n' : Node}
    (h : Edited (before ++ after) (before ++ p :: after) more n n') (hp : p.key.isScalar)
    (hname : front ++ more ++ p.keyText.toList ∈ names) :
    site.sweep names front n' = site.sweep names front n := by
  induction h generalizing front with
  | here =>
    rw [List.append_nil] at hname
    have htext : requireTextKeys (before ++ p :: after) = requireTextKeys (before ++ after) := by
      unfold requireTextKeys
      simp [isTextKey, hp]
    rw [sweep, sweep, htext, sweepPairs_insert (sweepPair_of_mem hp hname)]
  | @within more n n' key comment outer outer' _ _ _ _ hedited ih =>
    have htext : requireTextKeys (outer ++ ⟨key, some n', comment⟩ :: outer') =
        requireTextKeys (outer ++ ⟨key, some n, comment⟩ :: outer') := by
      unfold requireTextKeys
      simp
    have hinner := @ih (front ++ key.keyText.toList ++ ['.']) (by simpa using hname)
    have hleads : names.any (leadsOn (front ++ key.keyText.toList)) = true := by
      refine List.any_eq_true.mpr ⟨_, hname, List.isPrefixOf_iff_prefix.mpr ?_⟩
      exact ⟨more ++ p.keyText.toList, by simp⟩
    have hpair : site.sweepPair names front ⟨key, some n', comment⟩ =
        site.sweepPair names front ⟨key, some n, comment⟩ := by
      unfold sweepPair
      simp only [hleads, if_true]
      cases hedited <;> simp only [hinner]
    rw [sweep, sweep, htext, sweepPairs_exchange hpair]

end Site

namespace Schema

/-! ## Pairs that are added -/

/-- The pairs at the places with one of some names. -/
def pairsUnder (names : List String) (os : List Occurrence) : List Pair :=
  (placesNamed names os).map (·.pair)

theorem pairsUnder_append (names : List String) (os os' : List Occurrence) :
    pairsUnder names (os ++ os') = pairsUnder names os ++ pairsUnder names os' := by
  unfold pairsUnder
  rw [placesNamed_append, List.map_append]

theorem pairsUnder_perm (names : List String) {os os' : List Occurrence} (h : os.Perm os') :
    (pairsUnder names os).Perm (pairsUnder names os') :=
  (h.filter _).map _

theorem map_key_pairsUnder {names : List String} {os os' : List Occurrence}
    (h : List.Forall₂ Occurrence.SameKey os os') :
    (pairsUnder names os).map (·.key) = (pairsUnder names os').map (·.key) := by
  induction h with
  | nil => rfl
  | @cons o o' _ _ ho _ ih =>
    have hnamed : o.Named names ↔ o'.Named names := by
      unfold Occurrence.Named
      rw [ho.1, ho.2]
    have hdecide : decide (o.Named names) = decide (o'.Named names) := decide_eq_decide.mpr hnamed
    unfold pairsUnder placesNamed at ih ⊢
    rw [List.filter_cons, List.filter_cons, hdecide]
    split
    · rw [List.map_cons, List.map_cons, List.map_cons, List.map_cons, ih, ho.2]
    · exact ih

/-- The path of the key of a pair in the map at a path. -/
def keyPath (front : List Char) (p : Pair) : String := String.ofList (front ++ p.keyText.toList)

/-- No key inside of the value of the pair, which stands in the map at a path, has one of the
names. -/
def HoldsNone (names : List String) (front : List Char) (p : Pair) : Prop :=
  ∀ o ∈ p.inside, ((o.below p.keyText).under front).path ∉ names

theorem pairsUnder_places {names : List String} {front : List Char} {p : Pair}
    (hp : p.key.isScalar) (hinside : HoldsNone names front p) :
    pairsUnder names (p.places.map (Occurrence.under front)) =
      if keyPath front p ∈ names then [p] else [] := by
  have hnone : placesNamed names ((p.inside.map (.below p.keyText)).map
      (Occurrence.under front)) = [] := by
    refine List.filter_eq_nil_iff.mpr fun o ho => ?_
    rw [List.map_map] at ho
    obtain ⟨inner, hinner, rfl⟩ := List.mem_map.mp ho
    exact fun h => hinside inner hinner (of_decide_eq_true h).2
  unfold pairsUnder KeyValue.places placesNamed at *
  rw [List.map_cons, List.filter_cons, hnone]
  by_cases hname : keyPath front p ∈ names
  · rw [if_pos hname, if_pos (decide_eq_true ⟨hp, hname⟩)]
    rfl
  · rw [if_neg hname, if_neg fun h => hname (of_decide_eq_true h).2]
    rfl

/-- The pairs of a map that hold a property. -/
def heldIn (site : Site) (n : Node) (e : String × Property) : List Pair :=
  propertyPairs (.ofNode site n) e.1 e.2 (n.pairs?.getD [])

theorem heldIn_perm (site : Site) (n : Node) (e : String × Property) :
    (heldIn site n e).Perm (pairsUnder (e.2.names e.1 (.ofNode site n)) n.occurrences) := by
  have h := propertyPairs_perm (.ofNode site n) e (n.pairs?.getD [])
  cases n <;> simpa [heldIn, pairsUnder, holders, occurrences, pairs?, pairOccurrences] using h

section Added

variable {site : Site} {before after : List Pair} {p : Pair} {front : List Char} {n n' : Node}
  {e : String × Property}
  (h : Edited (before ++ after) (before ++ p :: after) front n n') (hp : p.key.isScalar)
  (hnames : e.2.names e.1 (.ofNode site n') = e.2.names e.1 (.ofNode site n))
  (hinside : HoldsNone (e.2.names e.1 (.ofNode site n)) front p)

include h hp hnames hinside

/-- What holds a property before and after a pair is added: pairs around the map of the new pair,
which keep their keys, other pairs, and the new pair if it has a name of the property. -/
theorem heldIn_around : ∃ around around' others : List Occurrence,
    List.Forall₂ Occurrence.SameKey around around' ∧
    (∀ o ∈ around, o.path.toList ++ ['.'] <+: front) ∧
    (heldIn site n e).Perm (pairsUnder (e.2.names e.1 (.ofNode site n)) around ++
      pairsUnder (e.2.names e.1 (.ofNode site n)) others) ∧
    (heldIn site n' e).Perm (pairsUnder (e.2.names e.1 (.ofNode site n)) around' ++
      ((if keyPath front p ∈ e.2.names e.1 (.ofNode site n) then [p] else []) ++
        pairsUnder (e.2.names e.1 (.ofNode site n)) others)) := by
  obtain ⟨around, around', others, hsame, hfront, hn, hn'⟩ := h.occurrences_perm
  refine ⟨around, around', others, hsame, hfront, ?_, ?_⟩
  · rw [← pairsUnder_append]
    exact (heldIn_perm site n e).trans (pairsUnder_perm _ hn)
  · rw [← pairsUnder_places hp hinside, ← pairsUnder_append, ← pairsUnder_append]
    exact hnames ▸ (heldIn_perm site n' e).trans (pairsUnder_perm _ hn')

/-- A property is held by the pair that is added, if this has one of its names, and by pairs with
the same keys as before. -/
theorem heldIn_keys : ((heldIn site n' e).map (·.key)).Perm
    ((if keyPath front p ∈ e.2.names e.1 (.ofNode site n) then [p] else []).map (·.key) ++
      (heldIn site n e).map (·.key)) := by
  obtain ⟨around, around', others, hsame, -, hn, hn'⟩ := heldIn_around h hp hnames hinside
  have hbefore := hn.map (·.key)
  have hafter := hn'.map (·.key)
  rw [List.map_append] at hbefore
  rw [List.map_append, List.map_append, ← map_key_pairsUnder hsame] at hafter
  exact (hafter.trans (List.perm_append_comm_assoc _ _ _)).trans (hbefore.symm.append_left _)

/-- A missing property, and any property in whose value the map is not, keeps the pairs that hold
it. -/
theorem heldIn_edited (hkeeps : heldIn site n e = [] ∨
      ∀ name ∈ e.2.names e.1 (.ofNode site n), leadsOn name.toList front = false) :
    (heldIn site n' e).Perm
      ((if keyPath front p ∈ e.2.names e.1 (.ofNode site n) then [p] else []) ++
        heldIn site n e) := by
  obtain ⟨around, around', others, hsame, hfront, hn, hn'⟩ := heldIn_around h hp hnames hinside
  have hnone : pairsUnder (e.2.names e.1 (.ofNode site n)) around = [] := by
    rcases hkeeps with hmissing | hleads
    · rw [hmissing, List.nil_perm] at hn
      exact (List.append_eq_nil_iff.mp hn).1
    · refine List.map_eq_nil_iff.mpr (List.filter_eq_nil_iff.mpr fun o ho hnamed => ?_)
      have hname := hleads _ (of_decide_eq_true hnamed).2
      rw [leadsOn, List.isPrefixOf_iff_prefix.mpr (hfront o ho)] at hname
      cases hname
  have hnone' : pairsUnder (e.2.names e.1 (.ofNode site n)) around' = [] := by
    have hkeys := @map_key_pairsUnder (e.2.names e.1 (.ofNode site n)) _ _ hsame
    rw [hnone] at hkeys
    exact List.map_eq_nil_iff.mp hkeys.symm
  rw [hnone, List.nil_append] at hn
  rw [hnone', List.nil_append] at hn'
  exact hn'.trans (hn.symm.append_left _)

end Added

/-! ## What is said of keys -/

/-- The findings that have one of some codes. -/
def reporting (codes : List DiagnosticCode) : Findings →+ Findings :=
  AddMonoidHom.withTopMap
    { toFun := Multiset.filter (·.code ∈ codes)
      map_zero' := Multiset.filter_zero _
      map_add' := Multiset.filter_add _ }

theorem reporting_eq_zero {codes : List DiagnosticCode} {r : Report}
    (h : ∀ d ∈ r.diagnostics, d.code ∉ codes) : reporting codes r.findings = 0 :=
  congrArg WithTop.some (show Multiset.filter _ (r.diagnostics : Multiset Diagnostic) = 0 from
    Multiset.filter_eq_nil.mpr h)

/-- The report on the keys of the pairs that hold a property, if there is more than one. -/
def repetitions (site : Site) (key : String) (keys : List Node) : Findings :=
  if 1 < keys.length then
    (keys.map fun k => (site.problem k .duplicateProperty
      ("Duplicate property `" ++ key ++ "`.")).findings).sum
  else 0

theorem repetitions_perm {keys keys' : List Node} (h : keys.Perm keys') (site : Site)
    (key : String) : repetitions site key keys = repetitions site key keys' := by
  unfold repetitions
  rw [h.length_eq, (h.map _).sum_eq]

/-- What is found in a property of a map apart from its absence. -/
def foundIn (codes : List DiagnosticCode) (visit : Visit) (site : Site) (n : Node)
    (e : String × Property) : Findings :=
  reporting codes (repetitions site e.1 ((heldIn site n e).map (·.key))) +
    ((heldIn site n e).map fun pair =>
      reporting codes (findings (checkPair visit site e.1 e.2 pair))).sum

section Found

variable {codes : List DiagnosticCode} {visit : Visit} {site : Site} {n n' : Node}

theorem reporting_checkMap (hcodes : DiagnosticCode.missingProperty ∉ codes) (hmap : n.isMap)
    (s : Schema) :
    reporting codes (findings (s.checkMap visit site n)) =
      ((s.flatProperties (.ofNode site n)).map (foundIn codes visit site n)).sum +
        reporting codes (findings (site.sweep ((propertyNames (.ofNode site n)
          (s.flatProperties (.ofNode site n))).map String.toList) [] n)) := by
  cases n with
  | map pairs start stop =>
    rw [findings_checkMap]
    simp only
    rw [map_add, map_list_sum, List.map_map]
    congr 2
    refine List.map_congr_left fun e _ => ?_
    have hmissing : reporting codes (missingProperty site (.map pairs start stop) e.1 e.2).findings
        = 0 := by
      refine reporting_eq_zero fun d hd => ?_
      unfold missingProperty at hd
      split at hd
      · rw [List.mem_singleton.mp hd]
        exact hcodes
      · cases hd
    rw [Function.comp_apply, findings_checkProperty]
    simp only
    rw [map_add, map_add, map_list_sum, List.map_map, apply_ite (reporting codes), hmissing,
      map_zero, ite_self, zero_add]
    unfold foundIn repetitions
    rw [List.length_map, List.map_map]
    rfl
  | _ => cases hmap

/-- Nothing is said of a pair if nothing is said of its value. -/
theorem reporting_checkPair_silent (hcodes : DiagnosticCode.missingValue ∉ codes) (key : String)
    (p : Property) (pair : Pair) :
    reporting codes (findings (checkPair (fun _ _ => .ok .empty) site key p pair)) = 0 := by
  unfold checkPair
  split
  · exact reporting_eq_zero fun d hd => by
      rw [List.mem_singleton.mp hd]
      exact hcodes
  · exact reporting_eq_zero fun d hd => nomatch hd

theorem foundIn_silent (hcodes : DiagnosticCode.missingValue ∉ codes) (e : String × Property) :
    foundIn codes (fun _ _ => .ok .empty) site n e =
      reporting codes (repetitions site e.1 ((heldIn site n e).map (·.key))) := by
  unfold foundIn
  simp only [reporting_checkPair_silent hcodes]
  rw [List.map_const', List.sum_replicate, nsmul_zero, add_zero]

end Found

/-- A sum over a list changes by what one of its terms changes. -/
theorem sum_map_eq_add {α M : Type} [AddCommMonoid M] {f g : α → M} {l : List α} {a : α} {c : M}
    (hl : l.Nodup) (ha : a ∈ l) (hothers : ∀ b ∈ l, b ≠ a → f b = g b) (h : f a = g a + c) :
    (l.map f).sum = (l.map g).sum + c := by
  obtain ⟨before, after, rfl⟩ := List.append_of_mem ha
  have hne : ∀ b ∈ before ++ after, b ≠ a := fun b hb hba =>
    (List.nodup_cons.mp (List.nodup_middle.mp hl)).1 (hba ▸ hb)
  have hsame : ∀ b ∈ before ++ after, f b = g b := fun b hb =>
    hothers b (by simpa [or_left_comm] using Or.inr (List.mem_append.mp hb)) (hne b hb)
  obtain ⟨hbefore, hafter⟩ := List.forall_mem_append.mp hsame
  simp only [List.map_append, List.map_cons, List.sum_append, List.sum_cons]
  rw [List.map_congr_left hbefore, List.map_congr_left hafter, h, add_right_comm (g a),
    ← add_assoc _ _ c]

/-! ## Recognition -/

/-- What an object itself says of a map, without a look at the values of its properties. -/
def ownCheck (s : Schema) (site : Site) (n : Node) : Except Fault Report :=
  s.checkMap (fun _ _ => .ok .empty) site n

/-- No two of the flat properties share a name. -/
def NamesApart (ctx : Context) (s : Schema) : Prop :=
  (s.flatProperties ctx).Pairwise fun e e' => ∀ name ∈ e.2.names e.1 ctx, name ∉ e'.2.names e'.1 ctx

/-- The object recognises a pair that is added to a map as a property that was missing. -/
structure RecognisedAs (s : Schema) (site : Site) (n n' : Node) (front : List Char) (p : Pair)
    (e : String × Property) : Prop where
  property : e ∈ s.flatProperties (.ofNode site n)
  missing : heldIn site n e = []
  held : heldIn site n' e = [p]
  /-- The path of the key is a name of this property and of no other. -/
  only : ∀ e' ∈ s.flatProperties (.ofNode site n'),
    keyPath front p ∈ e'.2.names e'.1 (.ofNode site n') ↔ e' = e
  /-- The other properties are held under the same keys as before. -/
  others : ∀ e' ∈ s.flatProperties (.ofNode site n'), e' ≠ e →
    ((heldIn site n' e').map (·.key)).Perm ((heldIn site n e').map (·.key))
  /-- The object itself reports no more keys as unexpected or repeated than before. -/
  silent : reporting [.unexpectedProperty, .duplicateProperty]
      (findings (s.ownCheck site n')) =
    reporting [.unexpectedProperty, .duplicateProperty]
      (findings (s.ownCheck site n))
  /-- If the map is in the value of no property, only the value of the pair can bring more. -/
  brings : (∀ e' ∈ s.flatProperties (.ofNode site n), ∀ name ∈ e'.2.names e'.1 (.ofNode site n),
      leadsOn name.toList front = false) → ∀ visit : Visit,
    reporting [.unexpectedProperty, .duplicateProperty] (findings (s.checkMap visit site n')) =
      reporting [.unexpectedProperty, .duplicateProperty] (findings (s.checkMap visit site n)) +
        reporting [.unexpectedProperty, .duplicateProperty]
          (findings (checkPair visit site e.1 e.2 p))

section Recognised

variable {s : Schema} {site : Site} {before after : List Pair} {p : Pair} {front : List Char}
  {n n' : Node} {e : String × Property}

theorem FixedNames.names (hfixed : s.FixedNames) {ctx : Context} (he : e ∈ s.flatProperties ctx)
    (ctx' : Context) : e.2.names e.1 ctx' = e.2.names e.1 ctx :=
  names_eq (hfixed.aliases ctx e he ctx' ctx) e.1

theorem NamesApart.eq_of_mem {ctx : Context} (hapart : s.NamesApart ctx)
    (he : e ∈ s.flatProperties ctx) {e' : String × Property} (he' : e' ∈ s.flatProperties ctx)
    {name : String} (h : name ∈ e.2.names e.1 ctx) (h' : name ∈ e'.2.names e'.1 ctx) : e' = e := by
  have : Std.Symm fun e e' : String × Property =>
      ∀ name ∈ e.2.names e.1 ctx, name ∉ e'.2.names e'.1 ctx :=
    ⟨fun _ _ hdisjoint name hname hname' => hdisjoint name hname' hname⟩
  by_contra hne
  exact List.Pairwise.forall hapart he' he hne name h' h

theorem NamesApart.nodup {ctx : Context} (hapart : s.NamesApart ctx) :
    (s.flatProperties ctx).Nodup :=
  hapart.imp fun {e e'} hnames heq =>
    by
    subst heq
    exact hnames e.1 (mem_names.mpr List.mem_cons_self) (mem_names.mpr List.mem_cons_self)

theorem HoldsNone.of_mem {ctx : Context}
    (h : HoldsNone (propertyNames ctx (s.flatProperties ctx)) front p)
    (he : e ∈ s.flatProperties ctx) : HoldsNone (e.2.names e.1 ctx) front p :=
  fun o ho hname => h o ho (List.mem_flatMap.mpr ⟨e, he, hname⟩)

/-- **A pair under a name of a missing property is recognised as this property.** -/
theorem recognisedAs_of_mem (hfixed : s.FixedNames) (hapart : s.NamesApart (.ofNode site n))
    (h : Edited (before ++ after) (before ++ p :: after) front n n') (hp : p.key.isScalar)
    (hinside :
      HoldsNone (propertyNames (.ofNode site n) (s.flatProperties (.ofNode site n))) front p)
    (he : e ∈ s.flatProperties (.ofNode site n)) (hmissing : heldIn site n e = [])
    (hname : keyPath front p ∈ e.2.names e.1 (.ofNode site n)) :
    RecognisedAs s site n n' front p e := by
  have hflat : s.flatProperties (.ofNode site n') = s.flatProperties (.ofNode site n) :=
    hfixed.flat _ _
  have hnames : ∀ e' ∈ s.flatProperties (.ofNode site n),
      e'.2.names e'.1 (.ofNode site n') = e'.2.names e'.1 (.ofNode site n) :=
    fun e' he' => hfixed.names he' _
  have honly : ∀ e' ∈ s.flatProperties (.ofNode site n),
      keyPath front p ∈ e'.2.names e'.1 (.ofNode site n) ↔ e' = e :=
    fun e' he' => ⟨hapart.eq_of_mem he he' hname, fun heq => heq ▸ hname⟩
  have hheld : heldIn site n' e = [p] := by
    have hperm := heldIn_edited h hp (hnames e he) (hinside.of_mem he) (.inl hmissing)
    rw [if_pos hname, hmissing, List.append_nil] at hperm
    exact List.perm_singleton.mp hperm
  have hothers : ∀ e' ∈ s.flatProperties (.ofNode site n), e' ≠ e →
      ((heldIn site n' e').map (·.key)).Perm ((heldIn site n e').map (·.key)) := by
    intro e' he' hne
    have hperm := heldIn_keys h hp (hnames e' he') (hinside.of_mem he')
    rwa [if_neg fun hmem => hne ((honly e' he').mp hmem)] at hperm
  -- The sweep passes over the new pair, so the keys are left to the properties.
  have hsweep : site.sweep ((propertyNames (.ofNode site n')
        (s.flatProperties (.ofNode site n))).map String.toList) [] n' =
      site.sweep ((propertyNames (.ofNode site n)
        (s.flatProperties (.ofNode site n))).map String.toList) [] n := by
    rw [propertyNames_eq fun e' he' => hfixed.aliases _ e' he' (.ofNode site n') (.ofNode site n)]
    refine Site.sweep_edited h hp (List.mem_map.mpr ⟨keyPath front p, ?_, ?_⟩)
    · exact List.mem_flatMap.mpr ⟨e, he, hname⟩
    · simp [keyPath]
  have hrepeated : ∀ e' ∈ s.flatProperties (.ofNode site n),
      repetitions site e'.1 ((heldIn site n' e').map (·.key)) =
        repetitions site e'.1 ((heldIn site n e').map (·.key)) := by
    intro e' he'
    by_cases heq : e' = e
    · rw [heq, hheld, hmissing]
      rfl
    · exact repetitions_perm (hothers e' he' heq) site e'.1
  exact {
    property := he
    missing := hmissing
    held := hheld
    only := fun e' he' => by
      rw [hflat] at he'
      rw [hnames e' he']
      exact honly e' he'
    others := fun e' he' => hothers e' (hflat ▸ he')
    silent := by
      unfold ownCheck
      rw [reporting_checkMap (by decide) h.isMap.2, reporting_checkMap (by decide) h.isMap.1, hflat,
        hsweep]
      congr 2
      refine List.map_congr_left fun e' he' => ?_
      rw [foundIn_silent (by decide), foundIn_silent (by decide), hrepeated e' he']
    brings := fun hleads visit => by
      rw [reporting_checkMap (by decide) h.isMap.2, reporting_checkMap (by decide) h.isMap.1, hflat,
        hsweep, add_right_comm]
      congr 1
      refine sum_map_eq_add hapart.nodup he (fun e' he' hne => ?_) ?_
      · have hperm := heldIn_edited h hp (hnames e' he') (hinside.of_mem he')
          (.inr (hleads e' he'))
        rw [if_neg fun hmem => hne ((honly e' he').mp hmem), List.nil_append] at hperm
        unfold foundIn
        rw [hrepeated e' he', (hperm.map _).sum_eq]
      · unfold foundIn
        rw [hrepeated e he, hheld, hmissing]
        simp }

end Recognised

end Schema

end PackLint
