import PackLint.Proofs.Schema.Aside
import PackLint.Proofs.Schema.Content
import PackLint.Proofs.Schema.Copies
import Mathlib.Algebra.BigOperators.Group.Finset.Basic

/-!
# Maps of objects with the same leaves

Two maps of objects say the same in different spellings if they have the same leaves: the same
paths, with copies of the same values. One property may be set aside, of which nothing is asked.
Where all others are uniform, the same is found at the leaves that are not set aside, whatever keys
and maps lead to them.

Results:
* `leavesAt_dotted`: a map below a key has the same leaves as its pairs behind the key.
* `Schema.sum_heldAt_eq`: what is said of the properties is the same in both.
* `Schema.leafCodes_eq`: so is what is found at the leaves.
* `Schema.codes_check_eq_iff`: two maps have the same codes if and only if what is set aside and the
  checks that the schema brings along have the same codes.
-/

namespace PackLint

open Node

/-! ## Leaves -/

/-- Two leaves have the same path and copies of the same value. -/
structure Occurrence.SameLeaf (src src' : Source) (o o' : Occurrence) : Prop where
  path : o.path = o'.path
  isScalar : o.pair.key.isScalar = o'.pair.key.isScalar
  value : Option.Rel (Node.Copy True src src') o.pair.value o'.pair.value

/-- The leaves are the same in any order. -/
def SameLeaves (src src' : Source) (os os' : List Occurrence) : Prop :=
  ∃ os₁, os.Perm os₁ ∧ List.Forall₂ (Occurrence.SameLeaf src src') os₁ os'

theorem Occurrence.SameLeaf.refl (src : Source) (o : Occurrence) : o.SameLeaf src src o := by
  refine ⟨rfl, rfl, ?_⟩
  cases o.pair.value with
  | none => exact .none
  | some n => exact .some (.refl True src n)

/-- The pair that stands below a key, with both keys in one. -/
def KeyValue.behind (key : Scalar) (p : Pair) : Pair :=
  { p with key := .scalar { key with text := key.text ++ "." ++ p.keyText } }

/-- **A map below a key on the way to a property has the same leaves as its pairs behind the key**,
with a dotted key each. -/
theorem leavesAt_dotted (src : Source) {names : List (List Char)} {front : List Char} {key : Scalar}
    {inner : List Pair} {start stop : Nat} {comment : Option String}
    (hinner : ∀ p ∈ inner, p.key.isScalar)
    (hgoes : goesOn names (front ++ key.text.toList) (.scalar key) = true) :
    List.Forall₂ (Occurrence.SameLeaf src src)
      (leavesAt names front ⟨.scalar key, some (.map inner start stop), comment⟩)
      ((inner.map (·.behind key)).flatMap (leavesAt names front)) := by
  have hpair : ∀ p ∈ inner, List.Forall₂ (Occurrence.SameLeaf src src)
      (leavesAt names (front ++ key.text.toList ++ ['.']) p)
      (leavesAt names front (p.behind key)) := by
    intro p hp
    have hpath : front ++ (p.behind key).keyText.toList =
        front ++ key.text.toList ++ ['.'] ++ p.keyText.toList := by
      change front ++ (key.text ++ "." ++ p.keyText).toList = _
      simp
    have hkey : goesOn names (front ++ (p.behind key).keyText.toList) (p.behind key).key =
        goesOn names (front ++ key.text.toList ++ ['.'] ++ p.keyText.toList) p.key := by
      rw [hpath, goesOn, goesOn, hinner p hp]
      rfl
    unfold leavesAt
    rw [hkey, hpath]
    change List.Forall₂ _ _ (if _ && p.value.any _ then _ else _)
    split
    · exact List.forall₂_same.mpr fun o _ => .refl src o
    · refine .cons ⟨rfl, hinner p hp, ?_⟩ .nil
      exact (Occurrence.SameLeaf.refl src ⟨"", p⟩).value
  rw [@leavesAt_of_goesOn names front ⟨.scalar key, some (.map inner start stop), comment⟩ _ hgoes
    rfl rfl, leaves_map, List.flatMap_map]
  refine List.rel_flatMap (R := fun p q => p = q ∧ p ∈ inner)
    (List.forall₂_same.mpr fun p hp => ⟨rfl, hp⟩) ?_
  rintro p q ⟨rfl, hp⟩
  exact hpair p hp
namespace Schema

variable {describe : Context → Option String} {site site' : Site} {ctx ctx' : Context}
  {key : Option String} {inner : SchemaInfo} {ps : List (String × Property)}
  {e : String × Property}

/-! ## Leaves in entries -/

/-- Entries have these keys, and all leaves are in one of them, none of them set aside. -/
structure InEntries (key : Option String) (ids : List String) (os : List Occurrence) : Prop where
  nodup : ids.Nodup
  dotFree : ∀ id ∈ ids, DotFree id
  first : ∀ o ∈ os, firstSegment o.path ∈ ids
  kept : ∀ o ∈ os, setAside key o.path = false

variable {ids ids' : List String} {os os' : List Occurrence}

/-- The first segments of the paths of leaves. -/
def firstSegments (os : List Occurrence) : List String := os.map (firstSegment ·.path)

/-- What is said of the properties, if nothing is said of those that no pair holds, is said of those
that are not set aside, in the entries that have leaves. -/
theorem sum_heldAt (h : UniformBut key inner ps) (hos : InEntries key ids os)
    {f : String × Property → List Pair → Codes} (hnil : ∀ e, f e [] = 0) :
    ((ids.flatMap (entryFlat ctx (.object inner fun _ => ps))).map fun e =>
        f e (heldAt ctx os e)).sum =
      ∑ id ∈ (firstSegments os).toFinset, ((entryFlat ctx (restOf key inner ps) id).map fun e =>
        f e (heldAt ctx os e)).sum := by
  have haside : ∀ e ∈ (ids.flatMap (entryFlat ctx (.object inner fun _ => ps))).filter
      (setAside key ·.1), f e (heldAt ctx os e) = 0 := by
    intro e he
    obtain ⟨he, haside⟩ := List.mem_filter.mp he
    obtain ⟨id, hid, he⟩ := List.mem_flatMap.mp he
    refine (congrArg (f e) (pairsUnder_eq_nil fun o ho hname => ?_)).trans (hnil e)
    rw [← setAside_names h (hos.dotFree id hid) he hname, hos.kept o ho] at haside
    cases haside
  have hother : ∀ id ∈ ids, id ∉ firstSegments os →
      ((entryFlat ctx (restOf key inner ps) id).map fun e => f e (heldAt ctx os e)).sum = 0 := by
    intro id hid hnone
    refine List.sum_eq_zero (List.forall_mem_map.mpr fun e he => ?_)
    refine (congrArg (f e) (pairsUnder_eq_nil fun o ho hname => hnone ?_)).trans (hnil e)
    obtain ⟨c, -, -, hnames⟩ := exists_of_mem_entryFlat he
    obtain ⟨i, -, hpath⟩ := (hnames ctx _).mp hname
    exact List.mem_map.mpr ⟨o, ho, hpath ▸ firstSegment_append (hos.dotFree id hid) i⟩
  rw [sum_map_filter _ _ (setAside key ·.1), List.sum_eq_zero (List.forall_mem_map.mpr haside),
    add_zero, List.filter_flatMap,
    List.flatMap_congr fun id hid => filter_entryFlat h (hos.dotFree id hid), List.map_flatMap,
    List.flatMap_def, List.sum_flatten, List.map_map, ← List.sum_toFinset _ hos.nodup]
  symm
  refine Finset.sum_subset (fun id hid => ?_) fun id hid hnone =>
    hother id (List.mem_toFinset.mp hid) fun hmem => hnone (List.mem_toFinset.mpr hmem)
  obtain ⟨o, ho, rfl⟩ := List.mem_map.mp (List.mem_toFinset.mp hid)
  exact List.mem_toFinset.mpr (hos.first o ho)

/-! ## The same leaves -/

/-- What is said of the properties is the same for copies of the values of a uniform property, in
any order. -/
structure SaidAlike (src src' : Source) (f f' : String × Property → List Pair → Codes) : Prop where
  nil : ∀ e, f e [] = 0
  nil' : ∀ e, f' e [] = 0
  perm : ∀ e held held', held.Perm held' → f e held = f e held'
  copies : ∀ e : String × Property, e.2.Uniform True →
    (∀ ctx, All (Uniform True) (e.2.schema ctx)) → ∀ held held',
      List.Forall₂ (fun p p' => Option.Rel (Node.Copy True src src') p.value p'.value)
        held held' → f e held = f' e held'

theorem heldAt_same {src src' : Source} (h : SameLeaves src src' os os')
    (hnames : e.2.names e.1 ctx = e.2.names e.1 ctx') : ∃ held, (heldAt ctx os e).Perm held ∧
      List.Forall₂ (fun p p' => Option.Rel (Node.Copy True src src') p.value p'.value) held
        (heldAt ctx' os' e) := by
  obtain ⟨os₁, hperm, hsame⟩ := h
  refine ⟨_, pairsUnder_perm _ hperm, ?_⟩
  rw [hnames]
  unfold heldAt pairsUnder
  rw [List.forall₂_map_left_iff, List.forall₂_map_right_iff]
  refine List.Forall₂.imp (fun _ _ (ho : Occurrence.SameLeaf src src' _ _) => ho.value) ?_
  refine List.rel_filter (fun o o' ho => ?_) hsame
  simp only [decide_eq_true_eq]
  rw [Occurrence.Named, Occurrence.Named, ho.path, ho.isScalar]

theorem firstSegments_same {src src' : Source} (h : SameLeaves src src' os os') :
    (firstSegments os).Perm (firstSegments os') := by
  obtain ⟨os₁, hperm, hsame⟩ := h
  refine (hperm.map _).trans (List.Perm.of_eq ?_)
  rw [← List.forall₂_eq_eq_eq]
  exact List.rel_map (fun o o' ho => by rw [ho.path]) hsame

/-- **What is said of the properties that are not set aside depends on the leaves alone.** -/
theorem sum_heldAt_eq (h : UniformBut key inner ps) (hos : InEntries key ids os)
    (hos' : InEntries key ids' os') {src src' : Source}
    {f f' : String × Property → List Pair → Codes}
    (hf : SaidAlike src src' f f') (hsame : SameLeaves src src' os os') :
    ((ids.flatMap (entryFlat ctx (.object inner fun _ => ps))).map fun e =>
        f e (heldAt ctx os e)).sum =
      ((ids'.flatMap (entryFlat ctx' (.object inner fun _ => ps))).map fun e =>
        f' e (heldAt ctx' os' e)).sum := by
  rw [sum_heldAt h hos hf.nil, sum_heldAt h hos' hf.nil',
    List.toFinset_eq_of_perm _ _ (firstSegments_same hsame), entryFlat_restOf h ctx' ctx]
  refine Finset.sum_congr rfl fun id _ => congrArg _ (List.map_congr_left fun e he => ?_)
  have hnames : e.2.names e.1 ctx = e.2.names e.1 ctx' := by
    obtain ⟨c, -, rfl⟩ := List.mem_map.mp he
    rfl
  obtain ⟨huniform, hschema⟩ := uniform_of_mem_restOf h he
  obtain ⟨held, hperm, hcopies⟩ := heldAt_same hsame hnames
  exact (hf.perm e _ _ hperm).trans (hf.copies e huniform hschema _ _ hcopies)

/-! ## Strays -/

theorem mem_nameLists {flat : List (String × Property)} {w : String} :
    w.toList ∈ nameLists ctx flat ↔ ∃ e ∈ flat, w ∈ e.2.names e.1 ctx := by
  rw [nameLists, List.mem_map_of_injective fun _ _ => String.toList_injective, propertyNames,
    List.mem_flatMap]

theorem any_leadsOn_nameLists {flat : List (String × Property)} {path : String} :
    (nameLists ctx flat).any (leadsOn path.toList) ↔
      ∃ e ∈ flat, ∃ w ∈ e.2.names e.1 ctx, leadsOn path.toList w.toList := by
  rw [List.any_eq_true]
  constructor
  · rintro ⟨name, hname, hleads⟩
    obtain ⟨w, hw, rfl⟩ := List.mem_map.mp hname
    obtain ⟨e, he, hw⟩ := List.mem_flatMap.mp hw
    exact ⟨e, he, w, hw, hleads⟩
  · rintro ⟨e, he, w, hw, hleads⟩
    exact ⟨_, mem_nameLists.mpr ⟨e, he, hw⟩, hleads⟩

theorem strayCodes_congr {names names' : List (List Char)} {o : Occurrence}
    (hcontains : o.path.toList ∈ names ↔ o.path.toList ∈ names')
    (hleads : names.any (leadsOn o.path.toList) ↔ names'.any (leadsOn o.path.toList)) :
    strayCodes names o = strayCodes names' o := by
  have hcontains : names.contains o.path.toList = names'.contains o.path.toList := by
    rw [Bool.eq_iff_iff, List.contains_iff_mem, List.contains_iff_mem, hcontains]
  unfold strayCodes
  rw [hcontains, Bool.eq_iff_iff.mpr hleads]

theorem strayCodes_same {src src' : Source} {o o' : Occurrence}
    (h : Occurrence.SameLeaf src src' o o') (names : List (List Char)) :
    strayCodes names o = strayCodes names o' := by
  have hvalue : o.pair.value.isNone = o'.pair.value.isNone := by
    have hrel := h.value
    generalize o.pair.value = v, o'.pair.value = v' at hrel
    cases hrel <;> rfl
  unfold strayCodes
  rw [h.path, h.isScalar, hvalue]

/-- A leaf that is not set aside is a stray if it is one among the other properties of its entry. -/
theorem strayCodes_entry (h : UniformBut key inner ps) (hos : InEntries key ids os)
    {o : Occurrence} (ho : o ∈ os) :
    strayCodes (nameLists ctx (ids.flatMap (entryFlat ctx (.object inner fun _ => ps)))) o =
      strayCodes (entryNames ctx (restOf key inner ps) (firstSegment o.path)) o := by
  have hfree := hos.dotFree _ (hos.first o ho)
  have hmem : ∀ e ∈ entryFlat ctx (restOf key inner ps) (firstSegment o.path),
      e ∈ ids.flatMap (entryFlat ctx (.object inner fun _ => ps)) := fun e he =>
    List.mem_flatMap.mpr ⟨_, hos.first o ho, mem_entryFlat_of_restOf h hfree he⟩
  have hown : ∀ id ∈ ids, ∀ e ∈ entryFlat ctx (.object inner fun _ => ps) id,
      ∀ w ∈ e.2.names e.1 ctx, firstSegment w = id := by
    intro id hid e he w hw
    obtain ⟨c, -, -, hnames⟩ := exists_of_mem_entryFlat he
    obtain ⟨i, -, rfl⟩ := (hnames ctx w).mp hw
    exact firstSegment_append (hos.dotFree id hid) i
  change _ = strayCodes (nameLists ctx (entryFlat ctx (restOf key inner ps) _)) o
  refine strayCodes_congr ?_ ?_
  · rw [mem_nameLists, mem_nameLists]
    constructor
    · rintro ⟨e, he, hw⟩
      obtain ⟨id, hid, he⟩ := List.mem_flatMap.mp he
      obtain rfl := hown id hid e he _ hw
      exact ⟨e, mem_entryFlat_restOf h hfree he hw (hos.kept o ho), hw⟩
    · exact fun ⟨e, he, hw⟩ => ⟨e, hmem e he, hw⟩
  · rw [any_leadsOn_nameLists, any_leadsOn_nameLists]
    constructor
    · rintro ⟨e, he, w, hw, hleads⟩
      obtain ⟨id, hid, he⟩ := List.mem_flatMap.mp he
      obtain rfl : firstSegment o.path = id :=
        (firstSegment_eq_of_leadsOn hleads).trans (hown id hid e he w hw)
      by_cases hpath : firstSegment o.path = o.path
      · rw [hpath]
        exact any_leadsOn_nameLists.mp (any_leadsOn_entryNames (h.plain ctx) o.path)
      · have haside := (setAside_of_leadsOn key hpath hleads).trans (hos.kept o ho)
        exact ⟨e, mem_entryFlat_restOf h hfree he hw haside, w, hw, hleads⟩
    · exact fun ⟨e, he, w, hw, hleads⟩ => ⟨e, hmem e he, w, hw, hleads⟩

/-! ## Codes -/

theorem codes_eq_of_sameOutcome {x x' : Except Fault Report} (h : site.SameOutcome site' x x') :
    codes (findings x) = codes (findings x') := by
  cases h with
  | error fault => rfl
  | ok hr =>
    rw [findings_ok, findings_ok, codes_findings, codes_findings, Report.codes, Report.codes,
      Multiset.map_coe, Multiset.map_coe]
    refine congrArg _ (congrArg _ ?_)
    rw [← List.forall₂_eq_eq_eq]
    exact List.rel_map (fun _ _ hd => hd.code) hr.diagnostics

variable {visit visit' : Visit}

theorem saidAlike_propertyCodes (hsite : site.Alike site')
    (hv : ∀ m m', m.Copy True site.source site'.source m' →
      VisitedAlike True site site' visit visit' m m') :
    SaidAlike site.source site'.source (propertyCodes visit site) (propertyCodes visit' site') where
  nil _ := rfl
  nil' _ := rfl
  perm e _ _ := propertyCodes_perm e
  copies e huniform hschema held held' h := by
    have hpairs : held.map (fun p => codes (findings (checkPair visit site e.1 e.2 p))) =
        held'.map fun p => codes (findings (checkPair visit' site' e.1 e.2 p)) := by
      rw [← List.forall₂_eq_eq_eq, List.forall₂_map_left_iff, List.forall₂_map_right_iff]
      refine h.imp fun p p' hp => ?_
      have hvalues : ValuesAlike True site site' visit visit' p p' :=
        optionRel_imp hp fun m m' _ _ hcopy => hv m m' hcopy
      exact codes_eq_of_sameOutcome (alike_checkPair hsite huniform hschema hvalues e.1)
    unfold propertyCodes
    rw [hpairs, h.length_eq]

/-- **What is found at the leaves that are not set aside depends on them alone.** -/
theorem leafCodes_eq (h : UniformBut key inner ps) (hos : InEntries key ids os)
    (hos' : InEntries key ids' os')
    (hsaid : SaidAlike site.source site'.source (propertyCodes visit site)
      (propertyCodes visit' site'))
    (hsame : SameLeaves site.source site'.source os os') :
    leafCodes visit site ctx (ids.flatMap (entryFlat ctx (.object inner fun _ => ps))) os =
      leafCodes visit' site' ctx' (ids'.flatMap (entryFlat ctx' (.object inner fun _ => ps)))
        os' := by
  unfold leafCodes
  rw [List.map_congr_left fun o ho => strayCodes_entry h hos ho,
    List.map_congr_left fun o ho => strayCodes_entry h hos' ho]
  refine congrArg₂ _ (sum_heldAt_eq h hos hos' hsaid hsame) (congrArg _ ?_)
  obtain ⟨os₁, hperm, hleaves⟩ := hsame
  rw [(hperm.map _).sum_eq]
  refine congrArg List.sum ?_
  rw [← List.forall₂_eq_eq_eq, List.forall₂_map_left_iff, List.forall₂_map_right_iff]
  refine hleaves.imp fun o o' ho => ?_
  rw [entryNames_congr (entryFlat_restOf h ctx ctx'), ho.path]
  exact strayCodes_same ho _

/-! ## Maps of objects -/

/-- The leaves of a map that a schema describes. -/
def leavesIn (s : Schema) (site : Site) (n : Node) : List Occurrence :=
  n.leaves (nameLists (.ofNode site n) (s.flatProperties (.ofNode site n))) []

/-- The leaves that are not set aside. -/
def keptIn (key : Option String) (s : Schema) (site : Site) (n : Node) : List Occurrence :=
  (s.leavesIn site n).filter (!setAside key ·.path)

/-- What is found at the leaves that are set aside. -/
def asideCodes (key : Option String) (s : Schema) (visit : Visit) (site : Site) (n : Node) :
    Codes :=
  leafCodes visit site (.ofNode site n) (s.flatProperties (.ofNode site n))
    ((s.leavesIn site n).filter (setAside key ·.path))

variable {info : SchemaInfo} {pairs pairs' : List Pair} {start stop start' stop' : Nat}

/-- The flat properties of a map of objects are those of its entries, and its leaves are in
them. -/
theorem exists_inEntries (h : UniformBut key inner ps) {s : Schema}
    (hs : s = .map info (fun _ => .object inner fun _ => ps) describe) (pairs : List Pair)
    (start stop : Nat) :
    ∃ ids, s.flatProperties (.ofNode site (.map pairs start stop)) =
        ids.flatMap (entryFlat (.ofNode site (.map pairs start stop)) (.object inner fun _ => ps)) ∧
      InEntries key ids (s.keptIn key site (.map pairs start stop)) := by
  subst hs
  obtain ⟨hentries, hkeys⟩ := @entriesOf_entryProperties (.object inner fun _ => ps) describe site
    rfl pairs
  refine ⟨_, ?_, hentries.nodup, List.forall_mem_map.mpr hentries.dotFree, fun o ho => ?_, ?_⟩
  · rw [List.flatMap_map]
    exact flatten_entries hentries (nestedProperties_ne_nil_of_restOf h _)
      (h.tidy _).keyed.nodup_keys_nestedProperties
  · obtain ⟨p, hp, hpath | ⟨rest, hpath⟩⟩ := exists_of_mem_leaves (List.mem_of_mem_filter ho)
    · rw [hpath]
      exact hkeys p hp
    · rw [← firstSegment_eq_of_leadsOn (leadsOn_iff.mpr ⟨rest, hpath⟩)]
      exact hkeys p hp
  · intro o ho
    simpa using (List.mem_filter.mp ho).2

/-- No name of a property of an entry leads on to a name in this or another entry. -/
theorem not_leadsOn_entries (h : UniformBut key inner ps) (hfree : ∀ id ∈ ids, DotFree id) :
    ∀ name ∈ nameLists ctx (ids.flatMap (entryFlat ctx (.object inner fun _ => ps))),
      ∀ other ∈ nameLists ctx (ids.flatMap (entryFlat ctx (.object inner fun _ => ps))),
        leadsOn name other = false := by
  have hpath : ∀ name ∈ nameLists ctx (ids.flatMap (entryFlat ctx (.object inner fun _ => ps))),
      ∃ id ∈ ids, ∃ c ∈ nestedProperties ctx (.object inner fun _ => ps),
        ∃ i ∈ c.2.names c.1 ctx, name = (id ++ "." ++ i).toList := by
    intro name hname
    obtain ⟨w, hw, rfl⟩ := List.mem_map.mp hname
    obtain ⟨e, he, hw⟩ := List.mem_flatMap.mp hw
    obtain ⟨id, hid, he⟩ := List.mem_flatMap.mp he
    obtain ⟨c, hc, -, hnames⟩ := exists_of_mem_entryFlat he
    obtain ⟨i, hi, rfl⟩ := (hnames ctx w).mp hw
    exact ⟨id, hid, c, hc, i, hi, rfl⟩
  intro name hname other hother
  obtain ⟨id, hid, c, hc, i, hi, rfl⟩ := hpath name hname
  obtain ⟨id', hid', c', hc', i', hi', rfl⟩ := hpath other hother
  refine Bool.eq_false_iff.mpr fun hleads => ?_
  obtain ⟨rest, heq⟩ := leadsOn_iff.mp hleads
  have hinner : id' ++ "." ++ i' = id ++ "." ++ (i ++ "." ++ rest) := by
    rw [heq]
    simp only [String.append_assoc]
  obtain ⟨-, rfl⟩ := eq_of_append_dot (hfree id' hid') (hfree id hid) hinner
  have hnot := (h.tidy ctx).not_leadsOn hc hc' hi hi'
  rw [leadsOn_iff.mpr ⟨rest, rfl⟩] at hnot
  cases hnot

/-- A property of an entry is set aside with all of its names, or none of them is. -/
theorem setAside_or_not (h : UniformBut key inner ps) (hfree : ∀ id ∈ ids, DotFree id) :
    ∀ e ∈ ids.flatMap (entryFlat ctx (.object inner fun _ => ps)),
      (∀ w ∈ e.2.names e.1 ctx, setAside key w) ∨
        ∀ w ∈ e.2.names e.1 ctx, setAside key w = false := by
  intro e he
  obtain ⟨id, hid, he⟩ := List.mem_flatMap.mp he
  have hnames : ∀ w ∈ e.2.names e.1 ctx, setAside key w = setAside key e.1 := fun w =>
    setAside_names h (hfree id hid) he
  cases haside : setAside key e.1 with
  | true => exact .inl fun w hw => (hnames w hw).trans haside
  | false => exact .inr fun w hw => (hnames w hw).trans haside

/-- **The codes found in a map of objects** are those at the leaves that are not set aside and those
at the others. -/
theorem codes_checkMap_objects (h : UniformBut key inner ps) {s : Schema}
    (hs : s = .map info (fun _ => .object inner fun _ => ps) describe) {r : Report}
    (hr : s.checkMap visit site (.map pairs start stop) = .ok r) :
    (r.codes : Codes) = leafCodes visit site (.ofNode site (.map pairs start stop))
        (s.flatProperties (.ofNode site (.map pairs start stop)))
        (s.keptIn key site (.map pairs start stop)) +
      s.asideCodes key visit site (.map pairs start stop) := by
  obtain ⟨ids, hflat, hids⟩ := @exists_inEntries describe site key inner ps info h s hs pairs start
    stop
  rw [codes_checkMap rfl ?_ ?_ hr]
  · exact leafCodes_filter fun e he => setAside_or_not h hids.dotFree e (hflat ▸ he)
  · intro e he
    rw [hflat] at he
    obtain ⟨id, -, he⟩ := List.mem_flatMap.mp he
    obtain ⟨c, -, hkey, -⟩ := exists_of_mem_entryFlat he
    rw [hkey]
    simp
  · rw [hflat]
    exact not_leadsOn_entries h hids.dotFree

/-! ## Checks -/

/-- What a check finds beside what it finds at the leaves that are not set aside. -/
def verdictCodes (key : Option String) (s : Schema) (site : Site) (n : Node) : Codes :=
  s.asideCodes key (fun t m => t.check site m) site n +
    codes (findings (runChecks (s.info.localChecks (.ofNode site n)) site n))

theorem codes_check_objects (h : UniformBut key inner ps) {s : Schema}
    (hs : s = .map info (fun _ => .object inner fun _ => ps) describe) {r : Report}
    (hr : s.check site (.map pairs start stop) = .ok r) :
    (r.codes : Codes) =
      leafCodes (fun t m => t.check site m) site (.ofNode site (.map pairs start stop))
        (s.flatProperties (.ofNode site (.map pairs start stop)))
        (s.keptIn key site (.map pairs start stop)) +
      s.verdictCodes key site (.map pairs start stop) := by
  have hstructure : checkStructure (fun t m => t.check site m) s site (.map pairs start stop) =
      s.checkMap (fun t m => t.check site m) site (.map pairs start stop) := by
    rw [hs]
    rfl
  rw [check_eq, hstructure] at hr
  obtain ⟨mapped, hmapped, hr⟩ := Except.bind_eq_ok.mp hr
  obtain ⟨own, hown, hr⟩ := Except.bind_eq_ok.mp hr
  cases hr
  rw [Report.codes_append, WithTop.coe_add, codes_checkMap_objects h hs hmapped, verdictCodes, hown,
    findings_ok, codes_findings, add_assoc]

/-- **Maps of objects with the same leaves have the same codes if and only if what is set aside and
the checks that the schema brings along have the same codes.** -/
theorem codes_check_eq_iff (h : UniformBut key inner ps) {s : Schema}
    (hs : s = .map info (fun _ => .object inner fun _ => ps) describe) (hsite : site.Alike site')
    (hsame : SameLeaves site.source site'.source (s.keptIn key site (.map pairs start stop))
      (s.keptIn key site' (.map pairs' start' stop'))) {r r' : Report}
    (hr : s.check site (.map pairs start stop) = .ok r)
    (hr' : s.check site' (.map pairs' start' stop') = .ok r') :
    r.codes = r'.codes ↔ s.verdictCodes key site (.map pairs start stop) =
      s.verdictCodes key site' (.map pairs' start' stop') := by
  obtain ⟨ids, hflat, hids⟩ := @exists_inEntries describe site key inner ps info h s hs pairs start
    stop
  obtain ⟨ids', hflat', hids'⟩ := @exists_inEntries describe site' key inner ps info h s hs pairs'
    start' stop'
  have hcodes := codes_check_objects h hs hr
  have hcodes' := codes_check_objects h hs hr'
  have hsaid : SaidAlike site.source site'.source
      (propertyCodes (fun t m => t.check site m) site)
      (propertyCodes (fun t m => t.check site' m) site') :=
    saidAlike_propertyCodes hsite fun m m' hcopy =>
      ⟨hcopy, fun t ht => alike_check ht hsite hcopy⟩
  rw [hflat, leafCodes_eq h hids hids' hsaid hsame, ← hflat'] at hcodes
  rw [← WithTop.coe_inj, hcodes, hcodes', WithTop.add_left_inj]
  intro htop
  rw [htop, WithTop.top_add] at hcodes'
  cases hcodes'

end Schema

end PackLint
