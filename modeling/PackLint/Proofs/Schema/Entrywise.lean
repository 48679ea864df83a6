import PackLint.Proofs.Schema.Findings
import PackLint.Proofs.Schema.Static
import PackLint.Proofs.Tree.Entry
import Mathlib.Data.List.TakeWhile

/-!
# Maps of objects, entry by entry

The properties of all entries of a map of objects are flattened into one table, looked up in all
pairs and swept over with one list of names. Where the keys of the entries are different scalars
without dots, none of this mixes the entries up: the check of the map finds what the checks of the
single entries find.

Results:
* `Schema.flatProperties_entries`: the flat properties are those of the entries one by one.
* `Schema.findings_checkProperty_entry`: a property of an entry is checked in this entry alone.
* `Schema.findings_check_entries`: the findings in a map are those in its entries together.
-/

namespace PackLint

/-- The check finds in a map what it finds in the entries one by one. -/
def Check.Entrywise (c : Check) : Prop :=
  ∀ site pairs start stop, findings (c site (.map pairs start stop)) =
    (pairs.map fun p => findings (c site (.map [p] start stop))).sum

theorem sum_findings_entries {checks : List Check} (h : ∀ c ∈ checks, c.Entrywise) {site : Site}
    {pairs : List Pair} {start stop : Nat} :
    (checks.map fun (c : Check) => findings (c site (.map pairs start stop))).sum =
      (pairs.map fun p =>
        (checks.map fun (c : Check) => findings (c site (.map [p] start stop))).sum).sum := by
  induction checks with
  | nil => simp
  | cons c checks ih =>
    obtain ⟨hc, hchecks⟩ := List.forall_mem_cons.mp h
    simp only [List.map_cons, List.sum_cons, List.sum_map_add]
    rw [hc site pairs start stop, ih hchecks]

namespace Schema

variable {info : SchemaInfo} {value : Schema} {describe : Context → Option String}
  {site : Site} {visit : Visit} {pairs : List Pair} {p : Pair} {ctx : Context} {start stop : Nat}

/-! ## The table of properties -/

/-- The flat properties of an entry: those of its object behind its key. -/
def entryFlat (ctx : Context) (value : Schema) (key : String) : List (String × Property) :=
  (nestedProperties ctx value).map fun c => (key ++ "." ++ c.1, c.2.below c.1 ctx [key])

theorem entryFlat_congr {A : Context → Context → Prop} (h : All (ObjectSteady A) value)
    {ctx' : Context} (hctx : A ctx ctx') : entryFlat ctx value = entryFlat ctx' value := by
  funext key
  unfold entryFlat
  rw [← ObjectSteady.nestedProperties_eq h hctx]
  refine List.map_congr_left fun c hc => ?_
  have haliases := (ObjectSteady.of_mem_nestedProperties h hc).aliases ctx ctx' hctx
  simp only [PropertyOf.below, PropertyOf.aliasList]
  rw [haliases]

/-- An object with properties has flat ones. -/
theorem nestedProperties_ne_nil {info : SchemaInfo}
    {properties : Context → List (String × Property)} {e : String × Property}
    (he : e ∈ properties ctx) : nestedProperties ctx (object info properties) ≠ [] :=
  fun hnil => List.ne_nil_of_mem he (nestedProperties_eq_nil.mp hnil)

theorem entryKey_of_dotFree (value : Schema) {key : String} (h : DotFree key) :
    entryKey value key = key := by
  have hcut : cutOnce '.' key.toList = key.toList := by
    unfold cutOnce
    rw [List.takeWhile_eq_self_iff]
    exact fun c hc => decide_eq_true fun heq => h (heq ▸ hc)
  unfold entryKey
  rw [hcut, String.ofList_toList, ite_self]

/-- The entries with one for a pair, unless there is one already. -/
def addEntry (value : Schema) (describe : Context → Option String) (site : Site)
    (entries : List (String × Property)) (p : Pair) : List (String × Property) :=
  if entries.any (·.1 = entryKey value p.keyText) then entries
  else entries ++ [(entryKey value p.keyText,
    { schema := fun _ => value, description := fun _ => describe (.ofPair site p) })]

theorem entryProperties_eq_foldl (pairs : List Pair) :
    entryProperties value describe site pairs = pairs.foldl (addEntry value describe site) [] := rfl

theorem mem_keys_addEntry (entries : List (String × Property)) (p : Pair) (key : String) :
    key ∈ (addEntry value describe site entries p).map Prod.fst ↔
      key ∈ entries.map Prod.fst ∨ key = entryKey value p.keyText := by
  unfold addEntry
  split
  · rename_i hany
    obtain ⟨e, he, hfst⟩ := List.any_eq_true.mp hany
    refine (or_iff_left_of_imp ?_).symm
    rintro rfl
    exact List.mem_map.mpr ⟨e, he, of_decide_eq_true hfst⟩
  · rw [List.map_append, List.mem_append, List.map_singleton, List.mem_singleton]

theorem nodup_keys_addEntry {entries : List (String × Property)}
    (h : (entries.map Prod.fst).Nodup) (p : Pair) :
    ((addEntry value describe site entries p).map Prod.fst).Nodup := by
  unfold addEntry
  split
  · exact h
  · rename_i hany
    rw [List.map_append, List.nodup_append]
    refine ⟨h, List.nodup_singleton _, fun key hkey key' hkey' heq => hany ?_⟩
    rw [List.map_singleton, List.mem_singleton] at hkey'
    obtain ⟨e, he, rfl⟩ := List.mem_map.mp hkey
    exact List.any_eq_true.mpr ⟨e, he, decide_eq_true (heq.trans hkey')⟩

/-- No two entries have the same key. -/
theorem nodup_entryKeys (pairs : List Pair) :
    ((entryProperties value describe site pairs).map Prod.fst).Nodup := by
  rw [entryProperties_eq_foldl]
  exact List.foldlRecOn
    (motive := fun (es : List (String × Property)) => (es.map Prod.fst).Nodup)
    pairs _ .nil fun _ h p _ => nodup_keys_addEntry h p

/-- Each pair has an entry. -/
theorem mem_entryKeys {key : String} :
    key ∈ (entryProperties value describe site pairs).map Prod.fst ↔
      ∃ p ∈ pairs, entryKey value p.keyText = key := by
  rw [entryProperties_eq_foldl]
  suffices hfold : ∀ (qs : List Pair) (entries : List (String × Property)),
      key ∈ (qs.foldl (addEntry value describe site) entries).map Prod.fst ↔
        key ∈ entries.map Prod.fst ∨ ∃ p ∈ qs, entryKey value p.keyText = key from
    (hfold pairs []).trans (or_iff_right nofun)
  intro qs
  induction qs with
  | nil => simp
  | cons q qs ih =>
    intro entries
    rw [List.foldl_cons, ih, mem_keys_addEntry, or_assoc, List.exists_mem_cons_iff, eq_comm]

theorem entryProperties_of_entryKeys (h : EntryKeys pairs) :
    entryProperties value describe site pairs = pairs.map fun p =>
      (p.keyText,
        { schema := fun _ => value, description := fun _ => describe (.ofPair site p) }) := by
  suffices hfold : ∀ (qs : List Pair) (entries : List (String × Property)),
      (entries.map Prod.fst ++ qs.map (·.keyText)).Nodup → (∀ q ∈ qs, DotFree q.keyText) →
      qs.foldl (addEntry value describe site) entries = entries ++ qs.map fun p => (p.keyText,
        { schema := fun _ => value, description := fun _ => describe (.ofPair site p) }) from
    hfold pairs [] h.nodup h.dotFree
  intro qs
  induction qs with
  | nil => exact fun entries _ _ => (List.append_nil entries).symm
  | cons q qs ih =>
    intro entries hnodup hfree
    obtain ⟨hq, hqs⟩ := List.forall_mem_cons.mp hfree
    have hnew : entries.any (·.1 = q.keyText) = false := by
      rw [List.any_eq_false]
      intro e he heq
      rw [List.nodup_append] at hnodup
      exact hnodup.2.2 e.1 (List.mem_map_of_mem he) q.keyText List.mem_cons_self
        (of_decide_eq_true heq)
    have hadded : addEntry value describe site entries q = entries ++ [(q.keyText,
        { schema := fun _ => value, description := fun _ => describe (.ofPair site q) })] := by
      unfold addEntry
      rw [entryKey_of_dotFree value hq]
      exact if_neg (Bool.eq_false_iff.mp hnew)
    rw [List.foldl_cons, hadded, ih _ (by simpa using hnodup) hqs, List.map_cons, List.append_assoc]
    rfl

/-- The keys are those of entries that are all described by one schema. -/
structure EntriesOf (value : Schema) (es : List (String × Property)) : Prop where
  nodup : (es.map Prod.fst).Nodup
  dotFree : ∀ e ∈ es, DotFree e.1
  schema : ∀ e ∈ es, ∀ ctx, e.2.schema ctx = value
  aliases : ∀ e ∈ es, ∀ ctx, e.2.aliases ctx = none

/-- Entries that are objects are replaced by their flat properties. -/
theorem flatten_entries {es : List (String × Property)} (h : EntriesOf value es)
    (hvalue : nestedProperties ctx value ≠ [])
    (hkeys : ((nestedProperties ctx value).map Prod.fst).Nodup) :
    NestedProperties.flatten ctx (withNested ctx es) =
      es.flatMap fun e => entryFlat ctx value e.1 := by
  have hnested : withNested ctx es = es.map fun e => (e.1, e.2, nestedProperties ctx value) := by
    rw [withNested_eq_map]
    exact List.map_congr_left fun e he => by rw [h.schema e he]
  have hflat : (withNested ctx es).flat = [] := by
    rw [hnested, NestedProperties.flat, List.filterMap_eq_nil_iff]
    intro e he
    obtain ⟨e, -, rfl⟩ := List.mem_map.mp he
    simp [hvalue]
  have hdotted : (withNested ctx es).dotted ctx = es.flatMap fun e => entryFlat ctx value e.1 := by
    rw [hnested, NestedProperties.dotted, List.flatMap_map]
    refine List.flatMap_congr fun e he => ?_
    simp only [PropertyOf.aliasList]
    rw [h.aliases e he]
    rfl
  have hnodup : (((withNested ctx es).flat ++ (withNested ctx es).dotted ctx).map
      Prod.fst).Nodup := by
    refine nodup_flat_append_dotted ?_ ?_ ?_
    · rw [hnested, List.map_map]
      exact h.nodup
    · rw [hnested]
      exact List.forall_mem_map.mpr h.dotFree
    · rw [hnested]
      exact List.forall_mem_map.mpr fun _ _ => hkeys
  rw [NestedProperties.flatten, Entries.insertAll_of_nodup hnodup, hflat, hdotted, List.nil_append]

/-- **The flat properties of a map of objects are those of the entries one by one.** -/
theorem flatProperties_entries (h : EntryKeys pairs)
    (hnode : ctx.node.bind Node.pairs? = some pairs) (hvalue : nestedProperties ctx value ≠ [])
    (hkeys : ((nestedProperties ctx value).map Prod.fst).Nodup) :
    flatProperties (map info (fun _ => value) describe) ctx =
      pairs.flatMap fun p => entryFlat ctx value p.keyText := by
  have hproperties : properties ctx (map info (fun _ => value) describe) = pairs.map fun p =>
      (p.keyText,
        { schema := fun _ => value, description := fun _ => describe (.ofPair ctx.site p) }) := by
    simp only [properties]
    rw [hnode]
    exact entryProperties_of_entryKeys h
  have hentries : EntriesOf value (properties ctx (map info (fun _ => value) describe)) := by
    rw [hproperties]
    refine ⟨?_, List.forall_mem_map.mpr h.dotFree, List.forall_mem_map.mpr fun _ _ _ => rfl,
      List.forall_mem_map.mpr fun _ _ _ => rfl⟩
    rw [List.map_map]
    exact h.nodup
  unfold flatProperties
  rw [flatten_entries hentries hvalue hkeys, hproperties, List.flatMap_map]

/-! ## Names -/

/-- The names of a property of an entry begin with the key of the entry. -/
theorem mem_names_entryFlat {key : String} {e : String × Property}
    (he : e ∈ entryFlat ctx value key) {ctx' : Context} {name : String}
    (hname : name ∈ e.2.names e.1 ctx') : ∃ sub, name = key ++ "." ++ sub := by
  obtain ⟨c, -, rfl⟩ := List.mem_map.mp he
  rw [PropertyOf.names, List.mem_eraseDups, List.mem_cons] at hname
  rcases hname with rfl | hname
  · exact ⟨c.1, rfl⟩
  · change name ∈ List.eraseDups _ at hname
    rw [List.mem_eraseDups, List.flatMap_singleton] at hname
    obtain ⟨sub, -, rfl⟩ := List.mem_map.mp hname
    exact ⟨sub, rfl⟩

/-- The names of the properties of an entry, letter by letter. -/
def entryNames (ctx : Context) (value : Schema) (key : String) : List (List Char) :=
  (propertyNames ctx (entryFlat ctx value key)).map String.toList

theorem entryNames_congr {ctx' : Context}
    (h : entryFlat ctx value = entryFlat ctx' value) (key : String) :
    entryNames ctx value key = entryNames ctx' value key := by
  unfold entryNames
  rw [h]
  refine congrArg (List.map String.toList) (propertyNames_eq fun e he => ?_)
  obtain ⟨c, -, rfl⟩ := List.mem_map.mp he
  rfl

theorem exists_of_mem_entryNames {key : String} {name : List Char}
    (h : name ∈ entryNames ctx value key) : ∃ sub, name = key.toList ++ '.' :: sub := by
  obtain ⟨text, htext, rfl⟩ := List.mem_map.mp h
  obtain ⟨e, he, htext⟩ := List.mem_flatMap.mp htext
  obtain ⟨sub, rfl⟩ := mem_names_entryFlat he htext
  exact ⟨sub.toList, by simp⟩

/-- Of the names of all entries those count below an entry that are its own. -/
theorem filter_entryNames (h : EntryKeys pairs) (hp : p ∈ pairs) :
    (pairs.flatMap fun q => entryNames ctx value q.keyText).filter
        (p.keyText.toList ++ ['.']).isPrefixOf = entryNames ctx value p.keyText := by
  rw [List.filter_flatMap, flatMap_of_nodup_map h.nodup hp]
  · refine List.filter_eq_self.mpr fun name hname => ?_
    obtain ⟨sub, rfl⟩ := exists_of_mem_entryNames hname
    rw [List.isPrefixOf_iff_prefix]
    exact ⟨sub, by simp⟩
  · intro q hq hne
    refine List.filter_eq_nil_iff.mpr fun name hname hprefix => hne ?_
    obtain ⟨sub, rfl⟩ := exists_of_mem_entryNames hname
    obtain ⟨rest, hrest⟩ := List.isPrefixOf_iff_prefix.mp hprefix
    have htext : p.keyText ++ "." ++ String.ofList rest =
        q.keyText ++ "." ++ String.ofList sub := by
      rw [← String.toList_inj]
      simpa using hrest
    exact (eq_of_append_dot (h.dotFree p hp) (h.dotFree q hq) htext).1.symm

/-! ## Single properties -/

/-- **A property of an entry is checked in this entry alone.** -/
theorem findings_checkProperty_entry (h : EntryKeys pairs) (hp : p ∈ pairs) {e : String × Property}
    (he : e ∈ entryFlat ctx value p.keyText) (n n' : Node) :
    findings (checkProperty visit site n pairs e.1 e.2) =
      findings (checkProperty visit site n' [p] e.1 e.2) := by
  have hself : e.1 ∈ e.2.names e.1 ctx := List.mem_eraseDups.mpr List.mem_cons_self
  obtain ⟨sub, hsub⟩ := mem_names_entryFlat he hself
  have hdot : e.1.toList.contains '.' := by
    rw [hsub]
    simp
  have hnames : e.2.names e.1 (.ofNode site n') = e.2.names e.1 (.ofNode site n) := by
    obtain ⟨c, -, rfl⟩ := List.mem_map.mp he
    rfl
  have hperm : (propertyPairs (.ofNode site n) e.1 e.2 pairs).Perm
      (propertyPairs (.ofNode site n') e.1 e.2 [p]) := by
    unfold propertyPairs
    rw [hnames]
    refine List.Perm.flatMap_left _ fun name hname => ?_
    obtain ⟨sub, rfl⟩ := mem_names_entryFlat he hname
    exact h.findPairs_perm hp sub
  -- a property of a nested object is never missed
  have hmissing : ∀ n, missingProperty site n e.1 e.2 = .empty := fun n =>
    if_neg (by rw [hdot]; exact Bool.false_ne_true)
  rw [findings_checkProperty, findings_checkProperty]
  simp only [hmissing, Report.findings_eq_zero (rfl : Report.empty.diagnostics = []), ite_self]
  rw [hperm.length_eq, (hperm.map _).sum_eq, (hperm.map _).sum_eq]

/-! ## Keys -/

/-- The name of a property of an entry has a dot. -/
theorem not_contains_entryNames {key : String} (hkey : DotFree key) (pairs : List Pair) :
    (pairs.flatMap fun q => entryNames ctx value q.keyText).contains key.toList = false := by
  rw [Bool.eq_false_iff, ne_eq, List.contains_iff_mem]
  intro hmem
  obtain ⟨q, -, hname⟩ := List.mem_flatMap.mp hmem
  obtain ⟨sub, hsub⟩ := exists_of_mem_entryNames hname
  refine hkey ?_
  rw [hsub]
  simp

/-- The key of an entry leads on to a name if its object has properties. -/
theorem any_leadsOn_entryNames (hvalue : nestedProperties ctx value ≠ []) (key : String) :
    (entryNames ctx value key).any (leadsOn key.toList) := by
  obtain ⟨c, cs, hc⟩ := List.exists_cons_of_ne_nil hvalue
  have hflat : (key ++ "." ++ c.1, c.2.below c.1 ctx [key]) ∈ entryFlat ctx value key :=
    List.mem_map_of_mem (f := fun c => (key ++ "." ++ c.1, c.2.below c.1 ctx [key]))
      (hc ▸ List.mem_cons_self)
  have hname : (key ++ "." ++ c.1).toList ∈ entryNames ctx value key :=
    List.mem_map_of_mem (List.mem_flatMap.mpr
      ⟨_, hflat, List.mem_eraseDups.mpr List.mem_cons_self⟩)
  refine List.any_eq_true.mpr ⟨_, hname, List.isPrefixOf_iff_prefix.mpr ⟨c.1.toList, ?_⟩⟩
  simp

/-- Below the key of an entry stand its own properties only. -/
theorem sweepPair_entry (h : EntryKeys pairs) (hp : p ∈ pairs)
    (hvalue : nestedProperties ctx value ≠ []) :
    site.sweepPair (pairs.flatMap fun q => entryNames ctx value q.keyText) [] p =
      site.sweepPair (entryNames ctx value p.keyText) [] p := by
  have hnone : ∀ qs : List Pair,
      (qs.flatMap fun q => entryNames ctx value q.keyText).contains p.key.keyText.toList = false :=
    not_contains_entryNames (h.dotFree p hp)
  have hsome : (entryNames ctx value p.keyText).any (leadsOn p.key.keyText.toList) :=
    any_leadsOn_entryNames hvalue _
  have hall : (pairs.flatMap fun q => entryNames ctx value q.keyText).any
      (leadsOn p.key.keyText.toList) := by
    obtain ⟨name, hname, hleads⟩ := List.any_eq_true.mp hsome
    exact List.any_eq_true.mpr ⟨name, List.mem_flatMap.mpr ⟨p, hp, hname⟩, hleads⟩
  have hown := hnone [p]
  have hself : ([p].flatMap fun q => entryNames ctx value q.keyText).filter
      (p.keyText.toList ++ ['.']).isPrefixOf = entryNames ctx value p.keyText :=
    filter_entryNames (h.singleton hp) (List.mem_singleton_self p)
  rw [List.flatMap_singleton] at hown hself
  unfold Site.sweepPair
  simp only [List.nil_append, hnone, hown, hall, hsome, Bool.and_false, Bool.false_eq_true,
    if_false, if_true]
  split
  · exact site.sweep_congr ((filter_entryNames h hp).trans hself.symm) _
  · rfl

/-! ## Entries -/

/-- What the structure of a map of objects finds in one of its entries, the flat properties of which
are `flat` and have `names`. -/
def entryFindings (visit : Visit) (site : Site) (start stop : Nat) (flat : List (String × Property))
    (names : List (List Char)) (p : Pair) : Findings :=
  (flat.map fun e => findings (checkProperty visit site (.map [p] start stop) [p] e.1 e.2)).sum +
    findings (site.sweepPair names [] p)

/-- The structure of a map of objects finds what it finds in the entries. -/
theorem findings_checkMap_entries (h : EntryKeys pairs) {ctx : Context}
    (hctx : ctx = .ofNode site (.map pairs start stop)) (hvalue : nestedProperties ctx value ≠ [])
    (hkeys : ((nestedProperties ctx value).map Prod.fst).Nodup) :
    findings (checkMap visit (map info (fun _ => value) describe) site (.map pairs start stop)) =
      (pairs.map fun p => entryFindings visit site start stop (entryFlat ctx value p.keyText)
        (entryNames ctx value p.keyText) p).sum := by
  have hflat : flatProperties (map info (fun _ => value) describe) ctx =
      pairs.flatMap fun p => entryFlat ctx value p.keyText :=
    flatProperties_entries h (hctx ▸ rfl) hvalue hkeys
  have hnames : (propertyNames ctx (pairs.flatMap fun p => entryFlat ctx value p.keyText)).map
      String.toList = pairs.flatMap fun p => entryNames ctx value p.keyText := by
    unfold propertyNames entryNames
    rw [List.flatMap_assoc, List.map_flatMap]
    rfl
  have htext : ∀ p ∈ pairs, p.key.isTextKey := fun p hp => by
    rw [Node.isTextKey, h.scalar p hp, Bool.true_or]
  rw [findings_checkMap, ← hctx, hflat]
  simp only [Site.findings_sweep htext]
  rw [hnames, List.map_flatMap, List.flatMap_def, List.sum_flatten, List.map_map,
    ← List.sum_map_add]
  refine congrArg List.sum (List.map_congr_left fun p hp => ?_)
  rw [Function.comp_apply, sweepPair_entry h hp hvalue, entryFindings,
    List.map_congr_left fun e he => findings_checkProperty_entry h hp he _ (.map [p] start stop)]

/-- **The check of a map of objects finds what the checks of its entries find**, if the properties
of an entry do not depend on the other entries and the checks that the schema brings along look at
the entries one by one. -/
theorem findings_check_entries (h : EntryKeys pairs) {checks : List Check}
    (hflat : ∀ qs, entryFlat (.ofNode site (.map qs start stop)) value =
      entryFlat (.ofNode site (.map pairs start stop)) value)
    (hvalue : ∀ ctx, nestedProperties ctx value ≠ [])
    (hkeys : ∀ ctx, ((nestedProperties ctx value).map Prod.fst).Nodup)
    (hinfo : ∀ ctx, info.localChecks ctx = checks) (hchecks : ∀ c ∈ checks, c.Entrywise) :
    findings (check (map info (fun _ => value) describe) site (.map pairs start stop)) =
      (pairs.map fun p =>
        findings (check (map info (fun _ => value) describe) site (.map [p] start stop))).sum := by
  have hcheck : ∀ qs, findings (check (map info (fun _ => value) describe) site
        (.map qs start stop)) =
      findings (checkMap (fun t m => t.check site m) (map info (fun _ => value) describe) site
        (.map qs start stop)) +
      (checks.map fun (c : Check) => findings (c site (.map qs start stop))).sum := by
    intro qs
    rw [check_eq, ← findings_runChecks, ← findings_bind_append, ← hinfo]
    rfl
  simp only [hcheck]
  rw [List.sum_map_add, ← sum_findings_entries hchecks, findings_checkMap_entries h rfl (hvalue _)
    (hkeys _)]
  congr 2
  refine List.map_congr_left fun p hp => ?_
  rw [findings_checkMap_entries (h.singleton hp) rfl (hvalue _) (hkeys _), List.map_singleton,
    List.sum_singleton, hflat [p], entryNames_congr (hflat [p])]

end Schema

end PackLint
