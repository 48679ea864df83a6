import PackLint.Proofs.Schema.Entrywise
import PackLint.Proofs.Schema.Tidy

/-!
# Entries but for one property

One property of the entries in a map of objects may be set aside: it leads the way behind the key of
an entry. All of its names are set aside with it, and the flat properties that are left are those
of an object without it, which may be static and uniform where the property is not.

Results:
* `Schema.entriesOf_entryProperties`: a map has one entry for each first segment of its keys.
* `Schema.filter_entryFlat`: the flat properties of an entry that are not set aside.
* `Schema.entryFlat_restOf`: they are the same in all contexts.
-/

namespace PackLint

/-! ## Paths that are set aside -/

/-- What stands between the first two dots of a path. -/
def secondSegment? (path : String) : Option String :=
  match path.toList.dropWhile (· ≠ '.') with
  | [] => none
  | _ :: rest => some (firstSegment (String.ofList rest))

theorem secondSegment?_append {id : String} (h : DotFree id) (rest : String) :
    secondSegment? (id ++ "." ++ rest) = some (firstSegment rest) := by
  have hid : ∀ c ∈ id.toList, decide (c ≠ '.') = true := by
    rintro c hc
    exact decide_eq_true fun heq => h (heq ▸ hc)
  unfold secondSegment?
  rw [String.toList_append, String.toList_append, List.append_assoc,
    List.dropWhile_append_of_pos hid]
  simp

/-- The path leads to the property of an entry that is set aside, or goes on behind it. -/
def setAside (key : Option String) (path : String) : Bool :=
  key.isSome && secondSegment? path = key

namespace Schema

variable {value : Schema} {describe : Context → Option String} {site site' : Site}
  {ctx ctx' : Context}

/-! ## Entries -/

theorem entryKey_eq (h : value.isObject) (key : String) : entryKey value key = firstSegment key :=
  if_pos h

/-- **A map of objects has one entry for each first segment of a key.** -/
theorem entriesOf_entryProperties (hvalue : value.isObject) (pairs : List Pair) :
    EntriesOf value (entryProperties value describe site pairs) ∧
      ∀ p ∈ pairs, firstSegment p.keyText ∈
        (entryProperties value describe site pairs).map Prod.fst := by
  refine ⟨⟨nodup_entryKeys pairs, fun e he => ?_, fun e he ctx => ?_, fun e he ctx => ?_⟩,
    fun p hp => mem_entryKeys.mpr ⟨p, hp, entryKey_eq hvalue _⟩⟩
  · obtain ⟨p, -, rfl⟩ := exists_of_mem_entryProperties e he
    rw [entryKey_eq hvalue]
    exact dotFree_firstSegment _
  · exact schema_of_mem_entryProperties ctx e he
  · obtain ⟨p, -, rfl⟩ := exists_of_mem_entryProperties e he
    rfl

/-! ## One property set aside -/

/-- The object without the property that is set aside. -/
def restOf (key : Option String) (info : SchemaInfo) (ps : List (String × Property)) : Schema :=
  .object info fun _ => ps.filter (some ·.1 ≠ key)

/-- The properties of a tidy object, all of which are static and uniform but the one that is set
aside. That one has no other name. -/
structure UniformBut (key : Option String) (info : SchemaInfo) (ps : List (String × Property)) :
    Prop where
  tidy (ctx : Context) : Tidy ctx (.object info fun _ => ps)
  alone : ∀ e ∈ ps, ∀ ctx, ∀ w ∈ e.2.names e.1 ctx, some w = key ↔ some e.1 = key
  static : Static (restOf key info ps)
  uniform : All (Uniform True) (restOf key info ps)
  plain (ctx : Context) : nestedProperties ctx (restOf key info ps) ≠ []

variable {key : Option String} {inner : SchemaInfo} {ps : List (String × Property)} {id : String}
  {e : String × Property}

theorem setAside_append (h : DotFree id) (rest : String) :
    setAside key (id ++ "." ++ rest) = decide (some (firstSegment rest) = key) := by
  unfold setAside
  rw [secondSegment?_append h]
  cases key <;> simp

/-- A path that goes on behind the key of an entry leads to names that are set aside if it is. -/
theorem setAside_of_leadsOn (key : Option String) {path w : String} (h : firstSegment path ≠ path)
    (hleads : leadsOn path.toList w.toList) : setAside key w = setAside key path := by
  obtain ⟨rest, hpath⟩ := (eq_or_exists_firstSegment path).resolve_left fun heq => h heq.symm
  obtain ⟨more, rfl⟩ := leadsOn_iff.mp hleads
  have hfree := dotFree_firstSegment path
  have hfirst : firstSegment rest = firstSegment (rest ++ "." ++ more) :=
    firstSegment_eq_of_leadsOn (leadsOn_iff.mpr ⟨more, rfl⟩)
  calc setAside key (path ++ "." ++ more)
      = setAside key (firstSegment path ++ "." ++ (rest ++ "." ++ more)) := by
        conv_lhs => rw [hpath]
        simp only [String.append_assoc]
    _ = setAside key (firstSegment path ++ "." ++ rest) := by
        rw [setAside_append hfree, setAside_append hfree, hfirst]
    _ = setAside key path := by rw [← hpath]

/-- A property of an entry has the names of a property of the object, behind the key of the
entry. -/
theorem exists_of_mem_entryFlat (he : e ∈ entryFlat ctx value id) :
    ∃ c ∈ nestedProperties ctx value, e.1 = id ++ "." ++ c.1 ∧
      ∀ ctx' w, w ∈ e.2.names e.1 ctx' ↔ ∃ i ∈ c.2.names c.1 ctx, w = id ++ "." ++ i := by
  obtain ⟨c, hc, rfl⟩ := List.mem_map.mp he
  refine ⟨c, hc, rfl, fun ctx' w => ?_⟩
  change w ∈ (c.2.below c.1 ctx [id]).names (id ++ "." ++ c.1) ctx ↔ _
  rw [mem_names_below]
  simp

section UniformBut

variable (h : UniformBut key inner ps)

include h

/-- A property is set aside with all of its names. -/
theorem setAside_names (hid : DotFree id)
    (he : e ∈ entryFlat ctx (.object inner fun _ => ps) id) {w : String}
    (hw : w ∈ e.2.names e.1 ctx') : setAside key w = setAside key e.1 := by
  obtain ⟨c, hc, hkey, hnames⟩ := exists_of_mem_entryFlat he
  obtain ⟨i, hi, rfl⟩ := (hnames ctx' w).mp hw
  obtain ⟨own, hown, hfirst, hsegments⟩ := (h.tidy ctx).exists_own hc
  rw [hkey, setAside_append hid, setAside_append hid, hfirst]
  exact decide_eq_decide.mpr (h.alone own hown ctx _ (hsegments i hi))

theorem filter_entryFlat (hid : DotFree id) :
    (entryFlat ctx (.object inner fun _ => ps) id).filter (!setAside key ·.1) =
      entryFlat ctx (restOf key inner ps) id := by
  unfold entryFlat restOf
  rw [← (h.tidy ctx).filter_nestedProperties (fun w => some w ≠ key), List.filter_map]
  refine congrArg _ (List.filter_congr fun c _ => ?_)
  rw [Function.comp_apply, setAside_append hid]
  simp

/-- The properties that are not set aside are the same in all contexts. -/
theorem entryFlat_restOf (ctx ctx' : Context) :
    entryFlat ctx (restOf key inner ps) = entryFlat ctx' (restOf key inner ps) := by
  funext id
  unfold entryFlat
  rw [← nestedProperties_eq_of_static h.static ctx ctx']
  refine List.map_congr_left fun c hc => ?_
  have haliases := (static_of_mem_nestedProperties h.static hc).aliases ctx ctx'
  simp only [PropertyOf.below, PropertyOf.aliasList]
  rw [haliases]

/-- A property that is not set aside is one of the object without the others. -/
theorem mem_entryFlat_restOf (hid : DotFree id)
    (he : e ∈ entryFlat ctx (.object inner fun _ => ps) id) {w : String}
    (hw : w ∈ e.2.names e.1 ctx') (hkept : setAside key w = false) :
    e ∈ entryFlat ctx (restOf key inner ps) id := by
  rw [← filter_entryFlat h hid, List.mem_filter, ← setAside_names h hid he hw, hkept]
  exact ⟨he, rfl⟩

theorem mem_entryFlat_of_restOf (hid : DotFree id)
    (he : e ∈ entryFlat ctx (restOf key inner ps) id) :
    e ∈ entryFlat ctx (.object inner fun _ => ps) id := by
  rw [← filter_entryFlat h hid] at he
  exact List.mem_of_mem_filter he

/-- What is not set aside is uniform. -/
theorem uniform_of_mem_restOf (he : e ∈ entryFlat ctx (restOf key inner ps) id) :
    e.2.Uniform True ∧ ∀ ctx, All (Uniform True) (e.2.schema ctx) := by
  obtain ⟨c, hc, rfl⟩ := List.mem_map.mp he
  exact ⟨(static_below (static_of_mem_nestedProperties h.static hc) _ _).uniform,
    fun _ => all_of_mem_nestedProperties h.uniform hc _⟩

theorem nestedProperties_ne_nil_of_restOf (ctx : Context) :
    nestedProperties ctx (.object inner fun _ => ps) ≠ [] := by
  intro hnil
  have hfilter := (h.tidy ctx).filter_nestedProperties (some · ≠ key)
  rw [hnil, List.filter_nil] at hfilter
  exact h.plain ctx hfilter.symm

end UniformBut

end Schema

end PackLint
