import PackLint.Proofs.Report.Reordered
import Mathlib.Data.List.Nodup

/-!
# Merging many reports

Reports are merged two by two, in whatever way; `Report.MergedFrom` keeps the reports that a merged
one is made of. Only their order counts: a field of the merged report is the concatenation of the
fields of its parts, and the highlights are those of the parts in reverse.

A report that is kept under a number in a pool is merged in place (`merge`), part by part, and each
step reads the other report anew. The other report may be the same one, and it may list kinds of
components in any order, some of them without a component: the steps go through the kinds in the
order of the list `kinds`, and it is shown that every such list leads to the same result. The
result itself does not list kinds. A `ComponentTable` holds the components of each kind and nothing
else, so that the order of the kinds and kinds without components are no part of a report is by
construction.

Results:
* `Report.MergedFrom.concatenates`: the fields of a merged report.
* `Report.Pool.mergeInto_eq`: merging in place changes one report only, and into the merged one.
* `Report.Pool.mergeNew_eq`: a report that is made of two others leaves both as they are.
* `Report.merging_laws`: the laws of merging together.
-/

namespace PackLint

namespace Report

/-! ## Histories of merging -/

/-- The report is made of the given ones by merging two by two, bracketed in any way. -/
inductive MergedFrom : List Report → Report → Prop where
  | nothing : MergedFrom [] empty
  | single (r : Report) : MergedFrom [r] r
  | merge {rs ss : List Report} {r s : Report} :
    MergedFrom rs r → MergedFrom ss s → MergedFrom (rs ++ ss) (r.merge s)

/-- The fields of a report are those of the given ones, one behind the other. -/
structure Concatenates (rs : List Report) (r : Report) : Prop where
  diagnostics : r.diagnostics = rs.flatMap (·.diagnostics)
  hovers : r.hovers = rs.flatMap (·.hovers)
  links : r.links = rs.flatMap (·.links)
  /-- The latest report comes first. -/
  highlights : r.highlights = rs.reverse.flatMap (·.highlights)
  completions : r.completions = rs.flatMap (·.completions)
  components (kind : ComponentKind) :
    r.components.of kind = rs.flatMap fun r => r.components.of kind

theorem Concatenates.merge {rs ss : List Report} {r s : Report} (hr : Concatenates rs r)
    (hs : Concatenates ss s) : Concatenates (rs ++ ss) (r.merge s) where
  diagnostics := by rw [List.flatMap_append, ← hr.diagnostics, ← hs.diagnostics]; rfl
  hovers := by rw [List.flatMap_append, ← hr.hovers, ← hs.hovers]; rfl
  links := by rw [List.flatMap_append, ← hr.links, ← hs.links]; rfl
  highlights := by
    rw [List.reverse_append, List.flatMap_append, ← hr.highlights, ← hs.highlights]
    rfl
  completions := by rw [List.flatMap_append, ← hr.completions, ← hs.completions]; rfl
  components kind := by
    rw [List.flatMap_append, ← hr.components, ← hs.components]
    exact ComponentTable.of_append _ _ kind

/-- **The fields of a merged report**, however it was merged. -/
theorem MergedFrom.concatenates {rs : List Report} {r : Report} (h : MergedFrom rs r) :
    Concatenates rs r := by
  induction h with
  | nothing => exact ⟨rfl, rfl, rfl, rfl, rfl, fun kind => by cases kind <;> rfl⟩
  | single r =>
    exact ⟨(List.flatMap_singleton ..).symm, (List.flatMap_singleton ..).symm,
      (List.flatMap_singleton ..).symm, (List.flatMap_singleton ..).symm,
      (List.flatMap_singleton ..).symm, fun _ => (List.flatMap_singleton ..).symm⟩
  | merge _ _ ihr ihs => exact ihr.merge ihs

/-! ## Parts of a report -/

/-- A part of a report that merging in place extends in one step. -/
inductive Part where
  | diagnostics
  | hovers
  | links
  | highlights
  | completions
  | components (kind : ComponentKind)
deriving DecidableEq

namespace Part

/-- The report `r` with one part extended by that of `s`. -/
def extend (r s : Report) : Part → Report
  | diagnostics => { r with diagnostics := r.diagnostics ++ s.diagnostics }
  | hovers => { r with hovers := r.hovers ++ s.hovers }
  | links => { r with links := r.links ++ s.links }
  | highlights => { r with highlights := s.highlights ++ r.highlights }
  | completions => { r with completions := r.completions ++ s.completions }
  | components kind =>
    { r with components := r.components.append (.single kind (s.components.of kind)) }

/-- One part of a report, and nothing else. -/
def only (part : Part) (s : Report) : Report := part.extend empty s

variable {part other : Part} {r s : Report}

theorem extend_eq_merge (part : Part) (r s : Report) : part.extend r s = r.merge (part.only s) := by
  cases part with
  | components kind => cases kind <;> simp [extend, only, merge, ComponentTable.append,
      ComponentTable.single, empty]
  | _ => simp [extend, only, merge, ComponentTable.append, empty]

/-- A step leaves all parts but its own as they are. -/
theorem only_extend_of_ne (h : part ≠ other) : part.only (other.extend r s) = part.only r := by
  cases part with
  | components kind =>
    cases other with
    | components kind' =>
      have hkind : kind ≠ kind' := fun heq => h (congrArg components heq)
      have hof : ((components kind').extend r s).components.of kind = r.components.of kind := by
        simp only [extend, ComponentTable.of_append, ComponentTable.of_single, if_neg hkind,
          List.append_nil]
      simp only [only, extend] at hof ⊢
      rw [hof]
    | _ => rfl
  | _ =>
    cases other with
    | components kind' => rfl
    | _ => simp_all [only, extend]

end Part

/-- The kinds that a report lists components of: each once, in the order in which they came. A list
may be empty. -/
structure Lists (kinds : List ComponentKind) (r : Report) : Prop where
  nodup : kinds.Nodup
  complete : ∀ kind, r.components.of kind ≠ [] → kind ∈ kinds

/-- The parts of a report in the order in which they are merged. -/
def parts (kinds : List ComponentKind) : List Part :=
  [.diagnostics, .hovers, .links, .highlights, .completions] ++ kinds.map .components

variable {kinds : List ComponentKind} {r s : Report}

theorem nodup_parts (h : kinds.Nodup) : (parts kinds).Nodup := by
  have hcomponents : (kinds.map Part.components).Nodup :=
    List.Nodup.map (fun _ _ heq => by injection heq) h
  refine List.nodup_append.mpr ⟨by decide, hcomponents, ?_⟩
  rintro part hpart _ hkind rfl
  obtain ⟨kind, -, rfl⟩ := List.mem_map.mp hkind
  simp at hpart

/-! ## All parts together -/

theorem foldl_extend (ps : List Part) (r s : Report) :
    ps.foldl (fun r part => part.extend r s) r = r.merge (mergeAll (ps.map (·.only s))) := by
  simp only [Part.extend_eq_merge]
  rw [← foldl_merge, List.foldl_map]

/-- The components of the kinds of a list, kind by kind. -/
def componentsOf (s : Report) (kinds : List ComponentKind) : ComponentTable :=
  kinds.foldr (fun kind t => (ComponentTable.single kind (s.components.of kind)).append t) {}

theorem mergeAll_only_components (s : Report) (kinds : List ComponentKind) :
    mergeAll ((kinds.map Part.components).map (·.only s)) =
      { components := s.componentsOf kinds } := by
  induction kinds with
  | nil => rfl
  | cons kind kinds ih =>
    rw [List.map_cons, List.map_cons, mergeAll_cons, ih]
    cases kind <;> rfl

theorem of_componentsOf (s : Report) {kinds : List ComponentKind} (h : kinds.Nodup)
    (kind : ComponentKind) :
    (s.componentsOf kinds).of kind = if kind ∈ kinds then s.components.of kind else [] := by
  induction kinds with
  | nil => cases kind <;> rfl
  | cons first kinds ih =>
    obtain ⟨hfirst, hkinds⟩ := List.nodup_cons.mp h
    have hcons : s.componentsOf (first :: kinds) =
        (ComponentTable.single first (s.components.of first)).append (s.componentsOf kinds) := rfl
    rw [hcons, ComponentTable.of_append, ComponentTable.of_single, ih hkinds]
    by_cases heq : kind = first
    · subst heq
      simp [hfirst]
    · simp [heq]

theorem Lists.componentsOf_eq (h : Lists kinds s) : s.componentsOf kinds = s.components := by
  refine ComponentTable.ext_of fun kind => ?_
  rw [of_componentsOf s h.nodup]
  split
  · rfl
  · rename_i hkind
    by_contra hne
    exact hkind (h.complete kind fun hnil => hne hnil.symm)

/-- The parts of a report make it whole. -/
theorem mergeAll_parts (h : Lists kinds s) : mergeAll ((parts kinds).map (·.only s)) = s := by
  rw [parts, List.map_append, mergeAll_append, mergeAll_only_components, h.componentsOf_eq]
  simp [Part.only, Part.extend, merge, ComponentTable.append, empty]

/-! ## Merging in place -/

/-- Reports that may change, each under its number. -/
abbrev Pool := List Report

namespace Pool

/-- Extends one part of report `i` by that of report `j`, as both are by now. -/
def extendPart (i j : Nat) (pool : Pool) (part : Part) : Pool :=
  pool.modify i fun r => part.extend r (pool.getD j empty)

/-- Merges report `j`, which lists components of the given kinds, into report `i`, part by part. -/
def mergeInto (pool : Pool) (i j : Nat) (kinds : List ComponentKind) : Pool :=
  (parts kinds).foldl (extendPart i j) pool

/-- Puts a new report behind the pool that is made of the reports `i` and `j`: an empty one, into
which one is merged after the other. -/
def mergeNew (pool : Pool) (i j : Nat) (kinds kinds' : List ComponentKind) : Pool :=
  let pool' : Pool := pool ++ [empty]
  mergeInto (mergeInto pool' pool.length i kinds) pool.length j kinds'

variable {pool : Pool} {i j : Nat}

/-- The other report keeps a part while another part is extended, be it the same report or not. -/
theorem only_getD_extendPart {part other : Part} (h : other ≠ part) :
    other.only ((extendPart i j pool part).getD j empty) = other.only (pool.getD j empty) := by
  rw [extendPart, List.getD_eq_getElem?_getD, List.getElem?_modify, List.getD_eq_getElem?_getD]
  cases pool[j]? with
  | none => rfl
  | some s =>
    by_cases hij : i = j
    · simp [hij, Part.only_extend_of_ne h]
    · simp [hij]

/-- Each step reads its own part of the other report only, so it makes no difference which of the
other parts have changed by then. -/
theorem foldl_extendPart {ps : List Part} (hps : ps.Nodup)
    (hs : ∀ part ∈ ps, part.only (pool.getD j empty) = part.only s) :
    ps.foldl (extendPart i j) pool =
      pool.modify i fun r => ps.foldl (fun r part => part.extend r s) r := by
  induction ps generalizing pool with
  | nil => exact (List.modify_id i pool).symm
  | cons part ps ih =>
    obtain ⟨hpart, hps⟩ := List.nodup_cons.mp hps
    have hstep : extendPart i j pool part = pool.modify i fun r => part.extend r s := by
      unfold extendPart
      simp only [Part.extend_eq_merge, hs part List.mem_cons_self]
    have hrest : ∀ other ∈ ps,
        other.only ((extendPart i j pool part).getD j empty) = other.only s :=
      fun other hother => (only_getD_extendPart (ne_of_mem_of_not_mem hother hpart)).trans
        (hs other (List.mem_cons_of_mem _ hother))
    rw [List.foldl_cons, ih hps hrest, hstep, List.modify_modify_eq]
    rfl

/-- **Merging in place changes one report only, and into the merged one.** -/
theorem mergeInto_eq (h : Lists kinds (pool.getD j empty)) :
    pool.mergeInto i j kinds = pool.modify i (·.merge (pool.getD j empty)) := by
  rw [mergeInto, foldl_extendPart (nodup_parts h.nodup) fun _ _ => rfl]
  simp only [foldl_extend, mergeAll_parts h]

theorem modify_length_append (pool : Pool) (t : Report) (f : Report → Report) :
    (pool ++ [t]).modify pool.length f = pool ++ [f t] := by
  induction pool with
  | nil => rfl
  | cons r pool ih => exact congrArg _ ih

/-- **A report that is made of two others leaves both as they are.** -/
theorem mergeNew_eq {kinds' : List ComponentKind} (hr : pool[i]? = some r) (hs : pool[j]? = some s)
    (hkinds : Lists kinds r) (hkinds' : Lists kinds' s) :
    pool.mergeNew i j kinds kinds' = pool ++ [r.merge s] := by
  have hget : ∀ {k : Nat} {t u : Report}, pool[k]? = some t → (pool ++ [u]).getD k empty = t := by
    intro k t u hk
    rw [List.getD_eq_getElem?_getD, List.getElem?_append_left (List.getElem?_eq_some_iff.mp hk).1,
      hk]
    rfl
  have hfirst : Lists kinds ((pool ++ [empty]).getD i empty) := by rwa [hget hr]
  rw [mergeNew, mergeInto_eq hfirst, hget hr, modify_length_append,
    mergeInto_eq (by rwa [hget hs]), hget hs, modify_length_append, empty_merge]

end Pool

/-! ## The laws -/

/-- **The laws of merging.** Merging is associative, and the empty report changes nothing. The
fields of a merged report are those of its parts one behind the other, its highlights in reverse,
and merging in the other direction changes the order only. Merged in place, a report becomes the
merged one; where a new report is made instead, all others stay as they are. -/
theorem merging_laws :
    (∀ r s t : Report, (r.merge s).merge t = r.merge (s.merge t)) ∧
    (∀ r : Report, empty.merge r = r ∧ r.merge empty = r) ∧
    (∀ rs r, MergedFrom rs r → Concatenates rs r) ∧
    (∀ r s : Report, Reordered (r.merge s) (s.merge r)) ∧
    ∀ (pool : Pool) (i j : Nat) (r s : Report) (kinds kinds' : List ComponentKind),
      pool[i]? = some r → pool[j]? = some s → Lists kinds r → Lists kinds' s →
      pool.mergeInto i j kinds' = pool.set i (r.merge s) ∧
      pool.mergeNew i j kinds kinds' = pool ++ [r.merge s] := by
  refine ⟨merge_assoc, fun r => ⟨empty_merge r, merge_empty r⟩, fun _ _ => MergedFrom.concatenates,
    merge_comm, fun pool i j r s kinds kinds' hr hs hkinds hkinds' =>
      ⟨?_, Pool.mergeNew_eq hr hs hkinds hkinds'⟩⟩
  have hget : pool.getD j empty = s := by rw [List.getD_eq_getElem?_getD, hs]; rfl
  rw [Pool.mergeInto_eq (by rwa [hget]), hget, List.modify_eq_set, hr]
  rfl

/-- A report with a highlight and one with a component, merged three times and in place. -/
theorem merging_laws_highlight_component :
    let r := ofHighlight ⟨⟨⟨0, 0⟩, ⟨0, 4⟩⟩, .keyword, []⟩
    let s : Report := { components := .single .skills [⟨"heal", [], none⟩] }
    let pool : Pool := [r, s]
    MergedFrom ([r, s] ++ [r]) ((r.merge s).merge r) ∧
      Concatenates ([r, s] ++ [r]) ((r.merge s).merge r) ∧
      Lists [] r ∧ Lists [.mobs, .skills] s ∧
      pool.mergeInto 0 1 [.mobs, .skills] = [r.merge s, s] ∧
      pool.mergeNew 0 1 [] [.mobs, .skills] = [r, s, r.merge s] ∧
      pool.mergeInto 1 1 [.mobs, .skills] = [r, s.merge s] := by
  intro r s pool
  obtain ⟨-, -, hfields, -, hpool⟩ := merging_laws
  have hmerged : MergedFrom ([r, s] ++ [r]) ((r.merge s).merge r) :=
    .merge (.merge (.single r) (.single s)) (.single r)
  have hr : Lists [] r := ⟨List.nodup_nil, fun kind h => by cases kind <;> exact absurd rfl h⟩
  have hs : Lists [.mobs, .skills] s :=
    ⟨by decide, fun kind h => by
      cases kind with
      | items => exact absurd rfl h
      | _ => decide⟩
  obtain ⟨hinto, hnew⟩ := hpool pool 0 1 r s [] [.mobs, .skills] rfl rfl hr hs
  obtain ⟨hself, -⟩ := hpool pool 1 1 s s [.mobs, .skills] [.mobs, .skills] rfl rfl hs hs
  exact ⟨hmerged, hfields _ _ hmerged, hr, hs, hinto, hnew, hself⟩

end Report

end PackLint
