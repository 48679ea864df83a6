import PackLint.Proofs.Entries
import PackLint.Proofs.Schema.Static
import Mathlib.Data.List.Pairwise
import Mathlib.Data.List.TakeWhile

/-!
# Tidy objects

An object is tidy if its properties have names without dots, no two of them share a name, and the
objects nested in it are tidy. What the properties are may depend on the context. The flat
properties of a tidy object have different keys, none of their names leads on to another one, and
each belongs to the property of the object whose name it begins with.

Results:
* `Schema.Tidy.keyed`: a tidy object is keyed.
* `Schema.Tidy.not_leadsOn`: no name of a flat property leads on to another name.
* `Schema.Tidy.filter_nestedProperties`: the flat properties of some of the properties.
-/

namespace PackLint

/-! ## First segments -/

/-- What stands before the first dot of a path. -/
def firstSegment (path : String) : String := String.ofList (cutOnce '.' path.toList)

theorem toList_firstSegment (path : String) :
    (firstSegment path).toList = path.toList.takeWhile (· ≠ '.') := by
  rw [firstSegment, String.toList_ofList]
  rfl

theorem dotFree_firstSegment (path : String) : DotFree (firstSegment path) := by
  intro h
  rw [toList_firstSegment] at h
  simpa using List.mem_takeWhile_imp h

theorem firstSegment_of_dotFree {w : String} (h : DotFree w) : firstSegment w = w := by
  rw [← String.toList_inj, toList_firstSegment, List.takeWhile_eq_self_iff]
  exact fun c hc => decide_eq_true fun heq => h (heq ▸ hc)

theorem firstSegment_append {w : String} (h : DotFree w) (rest : String) :
    firstSegment (w ++ "." ++ rest) = w := by
  have hw : ∀ c ∈ w.toList, decide (c ≠ '.') = true := by
    rintro c hc
    exact decide_eq_true fun heq => h (heq ▸ hc)
  rw [← String.toList_inj, toList_firstSegment, String.toList_append, String.toList_append,
    List.append_assoc, List.takeWhile_append_of_pos hw]
  simp

/-- A path is its first segment, or goes on behind it. -/
theorem eq_or_exists_firstSegment (path : String) :
    path = firstSegment path ∨ ∃ rest, path = firstSegment path ++ "." ++ rest := by
  obtain ⟨ws, hne, hfree, rfl⟩ := exists_dotted path
  obtain ⟨w, ws, rfl⟩ := List.exists_cons_of_ne_nil hne
  have hw : DotFree w := hfree w List.mem_cons_self
  cases ws with
  | nil => exact .inl (firstSegment_of_dotFree hw).symm
  | cons v ws =>
    rw [dotted_cons w (List.cons_ne_nil v ws), firstSegment_append hw]
    exact .inr ⟨_, rfl⟩

theorem leadsOn_iff {n n' : String} :
    leadsOn n.toList n'.toList ↔ ∃ rest, n' = n ++ "." ++ rest := by
  rw [leadsOn, List.isPrefixOf_iff_prefix]
  constructor
  · rintro ⟨rest, hrest⟩
    exact ⟨String.ofList rest, by rw [← String.toList_inj, ← hrest]; simp⟩
  · rintro ⟨rest, rfl⟩
    exact ⟨rest.toList, by simp⟩

/-- A name leads on only to names with the same first segment. -/
theorem firstSegment_eq_of_leadsOn {n n' : String} (h : leadsOn n.toList n'.toList) :
    firstSegment n = firstSegment n' := by
  obtain ⟨rest, rfl⟩ := leadsOn_iff.mp h
  have hfree := dotFree_firstSegment n
  rcases eq_or_exists_firstSegment n with heq | ⟨inner, heq⟩
  · rw [heq, firstSegment_append hfree, firstSegment_of_dotFree hfree]
  · have hlonger : n ++ "." ++ rest = firstSegment n ++ "." ++ (inner ++ "." ++ rest) := by
      conv_lhs => rw [heq]
      simp only [String.append_assoc]
    rw [hlonger, firstSegment_append hfree]

namespace Schema

variable {ctx : Context} {s : Schema}

/-- The properties of an object have names without dots, which no two of them share, and so have
those of the nested objects. -/
inductive Tidy (ctx : Context) : Schema → Prop
  | other {s : Schema} (h : s.isObject = false) : Tidy ctx s
  | object {info : SchemaInfo} {properties : Context → List (String × Property)}
      (hfree : ∀ e ∈ properties ctx, ∀ w ∈ e.2.names e.1 ctx, DotFree w)
      (hapart : (properties ctx).Pairwise fun e e' =>
        ∀ w ∈ e.2.names e.1 ctx, w ∉ e'.2.names e'.1 ctx)
      (hnested : ∀ e ∈ properties ctx, Tidy ctx (e.2.schema ctx)) :
      Tidy ctx (.object info properties)

namespace Tidy

theorem dotFree (h : Tidy ctx s) {e : String × Property} (he : e ∈ s.ownProperties ctx)
    {w : String} (hw : w ∈ e.2.names e.1 ctx) : DotFree w := by
  cases h with
  | other h =>
    rw [ownProperties_of_not_isObject h] at he
    cases he
  | object hfree _ _ => exact hfree e he w hw

theorem nested (h : Tidy ctx s) {e : String × Property} (he : e ∈ s.ownProperties ctx) :
    Tidy ctx (e.2.schema ctx) := by
  cases h with
  | other h =>
    rw [ownProperties_of_not_isObject h] at he
    cases he
  | object _ _ hnested => exact hnested e he

theorem apart (h : Tidy ctx s) : (s.ownProperties ctx).Pairwise fun e e' =>
    ∀ w ∈ e.2.names e.1 ctx, w ∉ e'.2.names e'.1 ctx := by
  cases h with
  | other h =>
    rw [ownProperties_of_not_isObject h]
    exact .nil
  | object _ hapart _ => exact hapart

/-- Two properties of an object that share a name are the same. -/
theorem eq_of_mem (h : Tidy ctx s) {e e' : String × Property} (he : e ∈ s.ownProperties ctx)
    (he' : e' ∈ s.ownProperties ctx) {w : String} (hw : w ∈ e.2.names e.1 ctx)
    (hw' : w ∈ e'.2.names e'.1 ctx) : e = e' := by
  have : Std.Symm fun e e' : String × Property =>
      ∀ w ∈ e.2.names e.1 ctx, w ∉ e'.2.names e'.1 ctx :=
    ⟨fun _ _ hdisjoint w hw hw' => hdisjoint w hw' hw⟩
  by_contra hne
  exact List.Pairwise.forall h.apart he he' hne w hw hw'

theorem nodup_keys (h : Tidy ctx s) : ((s.ownProperties ctx).map Prod.fst).Nodup := by
  refine List.pairwise_map.mpr (h.apart.imp fun {e e'} hdisjoint heq => ?_)
  exact hdisjoint e.1 (key_mem_names e.1 e.2 ctx) (heq ▸ key_mem_names e'.1 e'.2 ctx)

theorem keyed (h : Tidy ctx s) : Keyed ctx s := by
  induction h with
  | other h => exact .other h
  | @object info properties hfree hapart hnested ih =>
    have h : Tidy ctx (.object info properties) := .object hfree hapart hnested
    exact .object h.nodup_keys (fun e he => h.dotFree he (key_mem_names _ _ _)) ih

/-! ## Names -/

/-- A flat property has the names of a property of the object, or names behind them. -/
theorem exists_own (h : Tidy ctx s) {c : String × Property} (hc : c ∈ nestedProperties ctx s) :
    ∃ e ∈ s.ownProperties ctx, firstSegment c.1 = e.1 ∧
      ∀ w ∈ c.2.names c.1 ctx, firstSegment w ∈ e.2.names e.1 ctx := by
  rcases h.keyed.mem_nestedProperties.mp hc with ⟨he, -⟩ | ⟨key, p, hp, sub, hsub, rfl⟩
  · refine ⟨c, he, firstSegment_of_dotFree (h.dotFree he (key_mem_names _ _ _)), fun w hw => ?_⟩
    rwa [firstSegment_of_dotFree (h.dotFree he hw)]
  · refine
      ⟨(key, p), hp, firstSegment_append (h.dotFree hp (key_mem_names _ _ _)) _, fun w hw => ?_⟩
    obtain ⟨o, ho, i, -, rfl⟩ := mem_names_below.mp hw
    have ho : o ∈ p.names key ctx := mem_names.mpr ho
    rwa [firstSegment_append (h.dotFree hp ho)]

/-- **No name of a flat property leads on to another name.** -/
theorem not_leadsOn (h : Tidy ctx s) {c c' : String × Property} (hc : c ∈ nestedProperties ctx s)
    (hc' : c' ∈ nestedProperties ctx s) {w w' : String} (hw : w ∈ c.2.names c.1 ctx)
    (hw' : w' ∈ c'.2.names c'.1 ctx) : leadsOn w.toList w'.toList = false := by
  rw [Bool.eq_false_iff, ne_eq, leadsOn_iff]
  rintro ⟨rest, rfl⟩
  induction h generalizing c c' w rest with
  | other hs =>
    rw [nestedProperties_eq_flatten, ownProperties_of_not_isObject hs] at hc
    cases hc
  | @object info properties hfree hapart hnested ih =>
    have h : Tidy ctx (.object info properties) := .object hfree hapart hnested
    rcases h.keyed.mem_nestedProperties.mp hc' with ⟨he', -⟩ | ⟨key', p', hp', sub', hsub', rfl⟩
    · exact not_dotFree_append w rest (h.dotFree he' hw')
    · obtain ⟨o', ho', i', hi', heq'⟩ := mem_names_below.mp hw'
      have ho' : o' ∈ p'.names key' ctx := mem_names.mpr ho'
      have hfree' := h.dotFree hp' ho'
      rcases h.keyed.mem_nestedProperties.mp hc with ⟨he, hleaf⟩ | ⟨key, p, hp, sub, hsub, rfl⟩
      · -- the name without a dot would be one of the object, whose property has none nested
        obtain ⟨rfl, -⟩ := eq_of_append_dot (h.dotFree he hw) hfree' heq'
        rw [h.eq_of_mem he hp' hw ho'] at hleaf
        rw [hleaf] at hsub'
        cases hsub'
      · obtain ⟨o, ho, i, hi, rfl⟩ := mem_names_below.mp hw
        have ho : o ∈ p.names key ctx := mem_names.mpr ho
        have hinner : o ++ "." ++ (i ++ "." ++ rest) = o' ++ "." ++ i' := by
          rw [← heq']
          simp only [String.append_assoc]
        obtain ⟨rfl, rfl⟩ := eq_of_append_dot (h.dotFree hp ho) hfree' hinner
        cases h.eq_of_mem hp hp' ho ho'
        exact ih _ hp hsub hsub' hi rest hi'

end Tidy

section Filter

variable {ps : List (String × Property)} (hfree : ∀ e ∈ ps, DotFree e.1) (P : String → Bool)

include hfree

theorem filter_flat : (withNested ctx ps).flat.filter (P <| firstSegment ·.1) =
    (withNested ctx (ps.filter (P ·.1))).flat := by
  rw [withNested_eq_map, withNested_eq_map]
  unfold NestedProperties.flat
  rw [List.filterMap_map, List.filterMap_map, List.filter_filterMap, List.filterMap_filter]
  refine List.filterMap_congr fun e he => ?_
  have hself : firstSegment e.1 = e.1 := firstSegment_of_dotFree (hfree e he)
  simp only [Function.comp]
  cases hkey : P e.1 <;> split <;> simp [*]

theorem filter_dotted : ((withNested ctx ps).dotted ctx).filter (P <| firstSegment ·.1) =
    (withNested ctx (ps.filter (P ·.1))).dotted ctx := by
  rw [withNested_eq_map, withNested_eq_map]
  unfold NestedProperties.dotted
  rw [List.flatMap_map, List.flatMap_map, List.filter_flatMap]
  induction ps with
  | nil => rfl
  | cons e ps ih =>
    obtain ⟨he, hfree⟩ := List.forall_mem_cons.mp hfree
    have hfirst : ∀ sub, firstSegment (e.1 ++ "." ++ sub) = e.1 := firstSegment_append he
    rw [List.flatMap_cons, ih hfree, List.filter_cons, List.filter_map]
    cases hkey : P e.1 <;> simp [hfirst, hkey, Function.comp_def]

end Filter

/-- **The flat properties of some properties of a tidy object** are those whose keys begin with a
key of these. -/
theorem Tidy.filter_nestedProperties {info : SchemaInfo}
    {properties : Context → List (String × Property)} (h : Tidy ctx (.object info properties))
    (P : String → Bool) :
    (nestedProperties ctx (.object info properties)).filter (P <| firstSegment ·.1) =
      nestedProperties ctx (.object info fun ctx => (properties ctx).filter (P ·.1)) := by
  have hrest : Tidy ctx (.object info fun ctx => (properties ctx).filter (P ·.1)) := by
    cases h with
    | object hfree hapart hnested =>
      exact .object (fun e he => hfree e (List.mem_of_mem_filter he)) (hapart.filter _)
        fun e he => hnested e (List.mem_of_mem_filter he)
    | other h => cases h
  have hfree : ∀ e ∈ properties ctx, DotFree e.1 := fun e he =>
    h.dotFree he (key_mem_names e.1 e.2 ctx)
  rw [h.keyed.nestedProperties_eq, hrest.keyed.nestedProperties_eq, List.filter_append]
  simp only [ownProperties]
  rw [filter_flat hfree, filter_dotted hfree]

end Schema

end PackLint
