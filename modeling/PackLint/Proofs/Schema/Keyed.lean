import PackLint.Proofs.Entries
import PackLint.Proofs.Schema.Steady
import PackLint.Proofs.Tree.Dotted
import Mathlib.Data.List.Nodup

/-!
# Keyed objects

The flat properties of an object are its properties without nested ones, and behind them the nested
ones under dotted keys. None of them takes the place of another one if the object is keyed: the
properties of each object have different keys, which have no dots. Aliases may be shared, and they
may have dots.

Results:
* `Schema.nestedProperties_eq_nil`: an object has flat properties iff it has properties.
* `Schema.Keyed.mem_nestedProperties`: the flat properties of a keyed object.
-/

namespace PackLint

namespace Schema

/-- The properties of an object; nothing else has properties of its own. -/
def ownProperties (ctx : Context) : Schema → List (String × Property)
  | object _ properties => properties ctx
  | _ => []

/-- The properties of an object, and of each object nested in it, have different keys without
dots. -/
inductive Keyed (ctx : Context) : Schema → Prop
  | other {s : Schema} (h : s.isObject = false) : Keyed ctx s
  | object {info : SchemaInfo} {properties : Context → List (String × Property)}
      (hkeys : ((properties ctx).map Prod.fst).Nodup)
      (hfree : ∀ e ∈ properties ctx, DotFree e.1)
      (hnested : ∀ e ∈ properties ctx, Keyed ctx (e.2.schema ctx)) :
      Keyed ctx (.object info properties)

variable {s : Schema} {ctx : Context}

theorem ownProperties_of_not_isObject (h : s.isObject = false) : s.ownProperties ctx = [] := by
  cases s with
  | object => cases h
  | _ => rfl

/-! ## Flattening -/

theorem withNested_eq_map (ps : List (String × Property)) :
    withNested ctx ps = ps.map fun e => (e.1, e.2, nestedProperties ctx (e.2.schema ctx)) := by
  induction ps with
  | nil => rfl
  | cons e ps ih =>
    simp only [withNested, List.map_cons]
    rw [ih, propertyNested_eq]

theorem nestedProperties_eq_flatten :
    nestedProperties ctx s =
      NestedProperties.flatten ctx (withNested ctx (s.ownProperties ctx)) := by
  cases s with
  | object info properties => simp only [nestedProperties, ownProperties]
  | _ => simp only [nestedProperties, ownProperties]; rfl

/-- Keys without dots and keys with a dot behind different ones of them differ. -/
theorem eq_of_append_dot {key key' sub sub' : String} (hkey : DotFree key) (hkey' : DotFree key')
    (h : key ++ "." ++ sub = key' ++ "." ++ sub') : key = key' ∧ sub = sub' := by
  have hlist := congrArg String.toList h
  rw [String.toList_append, String.toList_append, String.toList_append, String.toList_append,
    List.append_assoc, List.append_assoc] at hlist
  have hcut := (cutAt_append hkey sub.toList).symm.trans
    ((congrArg (cutAt '.') hlist).trans (cutAt_append hkey' sub'.toList))
  have hkeys : key = key' := String.toList_inj.mp (List.cons_eq_cons.mp hcut).1
  subst hkeys
  have hsub := List.cons_eq_cons.mp (List.append_cancel_left hlist)
  exact ⟨rfl, String.toList_inj.mp hsub.2⟩

theorem not_dotFree_append (key sub : String) : ¬ DotFree (key ++ "." ++ sub) := by
  simp [DotFree]

theorem flat_keys_sublist (ps : NestedProperties) :
    (ps.flat.map Prod.fst).Sublist (ps.map (·.1)) := by
  unfold NestedProperties.flat
  induction ps with
  | nil => exact List.nil_sublist []
  | cons e ps ih =>
    obtain ⟨key, p, children⟩ := e
    rw [List.filterMap_cons, List.map_cons]
    cases children with
    | nil => exact ih.cons_cons key
    | cons c children => exact ih.cons key

/-- The keys of flat properties differ if those of each object do. -/
theorem nodup_flat_append_dotted {ps : NestedProperties} (hkeys : (ps.map (·.1)).Nodup)
    (hfree : ∀ e ∈ ps, DotFree e.1) (hchildren : ∀ e ∈ ps, (e.2.2.map Prod.fst).Nodup) :
    ((ps.flat ++ ps.dotted ctx).map Prod.fst).Nodup := by
  have hdotted : (ps.dotted ctx).map Prod.fst =
      ps.flatMap fun e => (e.2.2.map Prod.fst).map fun sub => e.1 ++ "." ++ sub := by
    unfold NestedProperties.dotted
    rw [List.map_flatMap]
    refine List.flatMap_congr fun e _ => ?_
    rw [List.map_map, List.map_map]
    rfl
  rw [List.map_append, List.nodup_append, hdotted]
  refine ⟨(flat_keys_sublist ps).nodup hkeys, List.nodup_flatMap.mpr ⟨fun e he => ?_, ?_⟩, ?_⟩
  · exact (hchildren e he).map fun a b h => (eq_of_append_dot (hfree e he) (hfree e he) h).2
  · refine (List.pairwise_map.mp hkeys).imp_of_mem fun {e e'} he he' hne => ?_
    intro key hkey hkey'
    obtain ⟨a, -, rfl⟩ := List.mem_map.mp hkey
    obtain ⟨b, -, h⟩ := List.mem_map.mp hkey'
    exact hne (eq_of_append_dot (hfree e' he') (hfree e he) h).1.symm
  · intro key hkey key' hkey' heq
    obtain ⟨e, he, rfl⟩ := List.mem_map.mp ((flat_keys_sublist ps).subset hkey)
    obtain ⟨e', -, hkey'⟩ := List.mem_flatMap.mp hkey'
    obtain ⟨sub, -, rfl⟩ := List.mem_map.mp hkey'
    exact not_dotFree_append e'.1 sub (heq ▸ hfree e he)

/-- The properties without nested ones. -/
theorem mem_flat_withNested {ps : List (String × Property)} {e : String × Property} :
    e ∈ (withNested ctx ps).flat ↔ e ∈ ps ∧ nestedProperties ctx (e.2.schema ctx) = [] := by
  unfold NestedProperties.flat
  rw [withNested_eq_map, List.filterMap_map, List.mem_filterMap]
  constructor
  · rintro ⟨e', he', heq⟩
    simp only [Function.comp, List.isEmpty_iff] at heq
    split at heq
    · rename_i hnil
      cases heq
      exact ⟨he', hnil⟩
    · cases heq
  · rintro ⟨he, hnil⟩
    refine ⟨e, he, ?_⟩
    simp only [Function.comp, hnil]
    rfl

/-- The nested properties under dotted keys. -/
theorem mem_dotted_withNested {ps : List (String × Property)} {e : String × Property} :
    e ∈ (withNested ctx ps).dotted ctx ↔
      ∃ key p, (key, p) ∈ ps ∧ ∃ c ∈ nestedProperties ctx (p.schema ctx),
        e = (key ++ "." ++ c.1, c.2.below c.1 ctx (key :: p.aliasList ctx)) := by
  unfold NestedProperties.dotted
  rw [withNested_eq_map, List.flatMap_map, List.mem_flatMap]
  constructor
  · rintro ⟨⟨key, p⟩, hp, he⟩
    obtain ⟨c, hc, rfl⟩ := List.mem_map.mp he
    exact ⟨key, p, hp, c, hc, rfl⟩
  · rintro ⟨key, p, hp, c, hc, rfl⟩
    exact ⟨(key, p), hp, List.mem_map.mpr ⟨c, hc, rfl⟩⟩

/-- **An object has flat properties iff it has properties**; one without stays a property itself. -/
theorem nestedProperties_eq_nil : nestedProperties ctx s = [] ↔ s.ownProperties ctx = [] := by
  rw [nestedProperties_eq_flatten]
  constructor
  · intro hnil
    have hflat : (withNested ctx (s.ownProperties ctx)).flat = [] := by
      by_contra hne
      exact Entries.insertAll_ne_nil hne _ hnil
    rw [NestedProperties.flatten, hflat] at hnil
    refine List.eq_nil_iff_forall_not_mem.mpr fun e he => ?_
    by_cases hleaf : nestedProperties ctx (e.2.schema ctx) = []
    · exact List.not_mem_nil (hflat ▸ mem_flat_withNested.mpr ⟨he, hleaf⟩)
    · obtain ⟨c, hc⟩ := List.exists_mem_of_ne_nil _ hleaf
      have hmem : _ ∈ (withNested ctx (s.ownProperties ctx)).dotted ctx :=
        mem_dotted_withNested.mpr ⟨e.1, e.2, he, c, hc, rfl⟩
      obtain ⟨first, rest, hdotted⟩ := List.exists_cons_of_ne_nil (List.ne_nil_of_mem hmem)
      rw [hdotted] at hnil
      exact Entries.insertAll_ne_nil (List.cons_ne_nil _ _) rest hnil
  · intro hnil
    rw [hnil]
    rfl

/-! ## Names -/

theorem mem_names {p : Property} {key n : String} :
    n ∈ p.names key ctx ↔ n ∈ key :: p.aliasList ctx := List.mem_eraseDups

theorem key_mem_names (key : String) (p : Property) (ctx : Context) : key ∈ p.names key ctx :=
  mem_names.mpr List.mem_cons_self

/-- The names of a property of a nested object: one of the object's, a dot, and one of its own. -/
theorem mem_names_below {p : Property} {key subkey n : String} {aliases : List String} :
    n ∈ (p.below subkey ctx (key :: aliases)).names (key ++ "." ++ subkey) ctx ↔
      ∃ o ∈ key :: aliases, ∃ i ∈ p.names subkey ctx, n = o ++ "." ++ i := by
  have hinner : ∀ i, i ∈ p.aliasList ctx ++ [subkey] ↔ i ∈ p.names subkey ctx := by
    intro i
    rw [mem_names, List.mem_append, List.mem_singleton, List.mem_cons, or_comm]
  have haliases : n ∈ (p.below subkey ctx (key :: aliases)).aliasList ctx ↔
      ∃ o ∈ key :: aliases, ∃ i ∈ p.names subkey ctx, n = o ++ "." ++ i := by
    simp only [PropertyOf.below, PropertyOf.aliasList, Option.getD_some, List.mem_eraseDups,
      List.mem_flatMap, List.mem_map]
    constructor
    · rintro ⟨o, ho, i, hi, rfl⟩
      exact ⟨o, ho, i, (hinner i).mp hi, rfl⟩
    · rintro ⟨o, ho, i, hi, rfl⟩
      exact ⟨o, ho, i, (hinner i).mpr hi, rfl⟩
  rw [mem_names, List.mem_cons, haliases]
  refine or_iff_right_of_imp ?_
  rintro rfl
  exact ⟨key, List.mem_cons_self, subkey, mem_names.mpr List.mem_cons_self, rfl⟩

/-! ## Keyed objects -/

namespace Keyed

theorem nodup_keys (h : Keyed ctx s) : ((s.ownProperties ctx).map Prod.fst).Nodup := by
  cases h with
  | other h =>
    rw [ownProperties_of_not_isObject h]
    exact List.nodup_nil
  | object hkeys _ _ => exact hkeys

theorem dotFree (h : Keyed ctx s) {e : String × Property} (he : e ∈ s.ownProperties ctx) :
    DotFree e.1 := by
  cases h with
  | other h =>
    rw [ownProperties_of_not_isObject h] at he
    cases he
  | object _ hfree _ => exact hfree e he

theorem nested (h : Keyed ctx s) {e : String × Property} (he : e ∈ s.ownProperties ctx) :
    Keyed ctx (e.2.schema ctx) := by
  cases h with
  | other h =>
    rw [ownProperties_of_not_isObject h] at he
    cases he
  | object _ _ hnested => exact hnested e he

/-- A property is determined by its key. -/
theorem property_unique (h : Keyed ctx s) {key : String} {p q : Property}
    (hp : (key, p) ∈ s.ownProperties ctx) (hq : (key, q) ∈ s.ownProperties ctx) : p = q := by
  have := List.inj_on_of_nodup_map h.nodup_keys hp hq rfl
  exact (Prod.mk.inj this).2

theorem nodup_keys_nestedProperties (h : Keyed ctx s) :
    ((nestedProperties ctx s).map Prod.fst).Nodup := by
  rw [nestedProperties_eq_flatten, withNested_eq_map]
  refine Entries.nodup_insertAll ((flat_keys_sublist _).nodup ?_)
  rw [List.map_map]
  exact h.nodup_keys

/-- The flat properties without nested ones stand in front of the nested ones. -/
theorem nestedProperties_eq (h : Keyed ctx s) :
    nestedProperties ctx s = (withNested ctx (s.ownProperties ctx)).flat ++
      (withNested ctx (s.ownProperties ctx)).dotted ctx := by
  rw [nestedProperties_eq_flatten, NestedProperties.flatten, Entries.insertAll_of_nodup]
  refine nodup_flat_append_dotted ?_ (fun e he => ?_) fun e he => ?_
  · rw [withNested_eq_map, List.map_map]
    exact h.nodup_keys
  · obtain ⟨key, p, children⟩ := e
    exact h.dotFree (mem_withNested he).1
  · obtain ⟨key, p, children⟩ := e
    obtain ⟨hp, rfl⟩ := mem_withNested he
    exact (h.nested hp).nodup_keys_nestedProperties

/-- **The flat properties of a keyed object** are its properties without nested ones, and the nested
ones under dotted keys. -/
theorem mem_nestedProperties (h : Keyed ctx s) {e : String × Property} :
    e ∈ nestedProperties ctx s ↔
      (e ∈ s.ownProperties ctx ∧ nestedProperties ctx (e.2.schema ctx) = []) ∨
        ∃ key p, (key, p) ∈ s.ownProperties ctx ∧ ∃ c ∈ nestedProperties ctx (p.schema ctx),
          e = (key ++ "." ++ c.1, c.2.below c.1 ctx (key :: p.aliasList ctx)) := by
  rw [h.nestedProperties_eq, List.mem_append, mem_flat_withNested, mem_dotted_withNested]

end Keyed

end Schema

end PackLint
