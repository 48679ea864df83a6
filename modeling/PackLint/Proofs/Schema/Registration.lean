import PackLint.Proofs.Schema.Closed
import PackLint.Schema.Registration
import Mathlib.Data.List.Induction
import Mathlib.Data.List.Nodup

/-!
# What a document registers

The registering check reports on each top-level pair for itself, and enrols the pairs that have a
value and whose id no other document has registered. The components that a document registers have
different ids, none of which another document has registered, and each has declarations, all of them
in the document itself.

Results:
* `registration_map`: the report of the registering check, pair by pair.
* `registration_registers`: the registered components are the document's own.
* `Registration.filter_enrol_eq_componentOf`: the component of an id is declared by the pairs with
  the id.
* `Registration.disputes_pairReports`: each pair with a taken id is disputed once.
-/

namespace PackLint

namespace Registration

section Pairs

variable (kind : ComponentKind) (color : TextClass) (site : Site) (taken : List String)

/-- The declaration that a pair makes. -/
def declaration (p : Pair) : Declaration where
  uri := site.uri
  keyRange := idRange site p.key
  pairRange := some (site.source.range p.start p.stop)

/-- The components that pairs declare. -/
def enrol (pairs : List Pair) : List Component :=
  pairs.foldl (fun components p =>
    declare components (declaredId p.keyText) (declaration site p) (pairDocumentation p)) []

/-- Whether a pair registers its id: it has a value, and the id is not taken. -/
def registers (p : Pair) : Bool :=
  p.value.isSome && !taken.contains (declaredId p.keyText)

/-- The diagnostic of a pair whose id another document has registered. -/
def dispute (p : Pair) : Diagnostic where
  range := idRange site p.key
  message := "Duplicate " ++ kind.singular ++ " id `" ++ declaredId p.keyText ++ "`."
  code := .duplicateComponentId

/-- The report on one pair. -/
def pairReport (p : Pair) : Report :=
  checkSpaces site p.key ++
    if taken.contains (declaredId p.keyText) then .ofDiagnostic (dispute kind site p)
    else if p.value.isNone then .empty
    else .ofHighlight { range := idRange site p.key, color }

theorem register_eq (report : Report) (components : List Component) (p : Pair) :
    register kind color site taken (report, components) p =
      (report ++ pairReport kind color site taken p,
        if registers taken p then
          declare components (declaredId p.keyText) (declaration site p) (pairDocumentation p)
        else components) := by
  unfold register pairReport registers
  simp only [Report.append_eq_merge]
  cases htaken : taken.contains (declaredId p.keyText) with
  | true =>
    rw [if_pos rfl, if_pos rfl, Bool.not_true, Bool.and_false, Report.merge_assoc]
    rfl
  | false =>
    cases hvalue : p.value with
    | none => simp
    | some v => simp [Report.merge_assoc, declaration]

/-- The pairs are reported on one by one, and those that register their ids are enrolled. -/
theorem foldl_register (pairs : List Pair) (report : Report) (components : List Component) :
    pairs.foldl (register kind color site taken) (report, components) =
      (report ++ .mergeAll (pairs.map (pairReport kind color site taken)),
        (pairs.filter (registers taken)).foldl (fun components p =>
          declare components (declaredId p.keyText) (declaration site p) (pairDocumentation p))
          components) := by
  induction pairs generalizing report components with
  | nil => simp [Report.append_eq_merge]
  | cons p pairs ih =>
    rw [List.foldl_cons, register_eq, ih, List.map_cons, Report.mergeAll_cons, List.filter_cons]
    simp only [Report.append_eq_merge, Report.merge_assoc]
    cases registers taken p <;> rfl

/-- The component that pairs of one id declare together; the first of them documents it. -/
def componentOf (id : String) (pairs : List Pair) : Component where
  id
  declarations := pairs.map (declaration site)
  documentation := pairs.head?.bind pairDocumentation

end Pairs

end Registration

/-- The ids of a kind that documents other than the one at `uri` have registered. -/
def Registry.taken (registry : Registry) (uri : String) (kind : ComponentKind) : List String :=
  (registry.elsewhere uri kind).map (·.id)

/-- **The registering check reports on each pair for itself, and registers the components of the
pairs that have a value and whose id is not taken.** -/
theorem registration_map (kind : ComponentKind) (color : TextClass) (site : Site)
    (pairs : List Pair) (start stop : Nat) :
    registration kind color site (.map pairs start stop) =
      .ok (.mergeAll (pairs.map
          (Registration.pairReport kind color site (site.registry.taken site.uri kind))) ++
        { components := .single kind (Registration.enrol site
            (pairs.filter (Registration.registers (site.registry.taken site.uri kind)))) }) := by
  have hfold := Registration.foldl_register kind color site (site.registry.taken site.uri kind)
    pairs .empty []
  rw [Report.append_eq_merge, Report.empty_merge] at hfold
  change Except.ok ((pairs.foldl
    (Registration.register kind color site (site.registry.taken site.uri kind))
    (.empty, [])).1 ++ { components := ComponentTable.single kind (pairs.foldl
    (Registration.register kind color site (site.registry.taken site.uri kind))
    (.empty, [])).2 }) = _
  rw [hfold]
  rfl

/-- The component has declarations, and all of them stand in the document at `uri`. -/
def Component.OwnedBy (uri : String) (c : Component) : Prop :=
  c.declarations ≠ [] ∧ ∀ d ∈ c.declarations, d.uri = uri

/-- The components have different ids, none of them `taken`, and belong to the document at
`uri`. -/
structure Registered (uri : String) (taken : List String) (cs : List Component) : Prop where
  nodup_ids : (cs.map (·.id)).Nodup
  free : ∀ c ∈ cs, c.id ∉ taken
  owned : ∀ c ∈ cs, c.OwnedBy uri

namespace Registered

variable {uri : String} {taken : List String} {cs : List Component}

theorem nil : Registered uri taken [] where
  nodup_ids := List.nodup_nil
  free _ h := nomatch h
  owned _ h := nomatch h

theorem mono {taken' : List String} (h : Registered uri taken cs) (hsub : ∀ i ∈ taken', i ∈ taken) :
    Registered uri taken' cs where
  nodup_ids := h.nodup_ids
  free c hc hm := h.free c hc (hsub _ hm)
  owned := h.owned

end Registered

namespace Registration

variable {uri : String} {taken : List String} {cs : List Component}

theorem map_id_declare (id : String) (d : Declaration) (documentation : Option String) :
    (declare cs id d documentation).map (·.id) =
      if cs.any (·.id = id) then cs.map (·.id) else cs.map (·.id) ++ [id] := by
  unfold declare
  split
  · rw [List.map_map]
    refine List.map_congr_left fun c _ => ?_
    simp only [Function.comp_apply]
    split <;> rfl
  · rw [List.map_append]
    rfl

/-- One more declaration of a free id keeps the components registered. -/
theorem registered_declare (h : Registered uri taken cs) {id : String} (hid : id ∉ taken)
    {d : Declaration} (hd : d.uri = uri) (documentation : Option String) :
    Registered uri taken (declare cs id d documentation) := by
  refine ⟨?_, ?_, ?_⟩
  · rw [map_id_declare]
    split
    · exact h.nodup_ids
    · rename_i hn
      refine List.Nodup.append h.nodup_ids (List.nodup_singleton id) ?_
      intro i hi hi'
      rw [List.mem_singleton.mp hi'] at hi
      obtain ⟨c, hc, he⟩ := List.mem_map.mp hi
      exact hn (List.any_eq_true.mpr ⟨c, hc, decide_eq_true he⟩)
  · intro c hc hm
    have hi : c.id ∈ (declare cs id d documentation).map (·.id) := List.mem_map_of_mem hc
    rw [map_id_declare] at hi
    have hor : c.id ∈ cs.map (·.id) ∨ c.id = id := by
      split at hi
      · exact Or.inl hi
      · exact (List.mem_append.mp hi).imp_right List.mem_singleton.mp
    rcases hor with hi | hi
    · obtain ⟨c', hc', he⟩ := List.mem_map.mp hi
      exact h.free c' hc' (he ▸ hm)
    · exact hid (hi ▸ hm)
  · intro c hc
    unfold declare at hc
    split at hc
    · obtain ⟨c', hc', rfl⟩ := List.mem_map.mp hc
      have ho := h.owned c' hc'
      split
      · refine ⟨by simp, fun e he => ?_⟩
        rcases List.mem_append.mp he with he | he
        · exact ho.2 e he
        · rw [List.mem_singleton.mp he, hd]
      · exact ho
    · rcases List.mem_append.mp hc with hc | hc
      · exact h.owned c hc
      · rw [List.mem_singleton.mp hc]
        exact ⟨by simp, fun e he => by rw [List.mem_singleton.mp he, hd]⟩

/-- What pairs declare is registered if none of their ids is taken. -/
theorem registered_enrol (site : Site) {pairs : List Pair}
    (h : ∀ p ∈ pairs, declaredId p.keyText ∉ taken) :
    Registered site.uri taken (enrol site pairs) := by
  refine List.foldlRecOn (motive := fun cs => Registered site.uri taken cs) pairs _ .nil ?_
  exact fun cs hcs p hp => registered_declare hcs (h p hp) rfl _

theorem not_mem_taken_of_registers {p : Pair} (h : registers taken p) :
    declaredId p.keyText ∉ taken := by
  unfold registers at h
  simp at h
  exact h.2

/-- A declaration of an id adds to the components of that id only. -/
theorem filter_declare (q : String → Bool) (id : String) (d : Declaration)
    (documentation : Option String) :
    (declare cs id d documentation).filter (fun c => q c.id) =
      if q id then declare (cs.filter fun c => q c.id) id d documentation
      else cs.filter fun c => q c.id := by
  -- a declaration that is added to a component leaves its id
  have hmap : (cs.map fun c =>
        if c.id = id then { c with declarations := c.declarations ++ [d] } else c).filter
          (fun c => q c.id) =
      (cs.filter fun c => q c.id).map fun c =>
        if c.id = id then { c with declarations := c.declarations ++ [d] } else c := by
    rw [List.filter_map]
    congr 2
    funext c
    simp only [Function.comp_apply]
    split <;> rfl
  unfold declare
  by_cases hid : q id = true
  · have hany : (cs.filter fun c => q c.id).any (·.id = id) = cs.any (·.id = id) := by
      rw [List.any_filter]
      congr 1
      funext c
      by_cases hc : c.id = id <;> simp [hc, hid]
    rw [if_pos hid, hany]
    split
    · exact hmap
    · simp [hid]
  · rw [if_neg hid]
    split
    · rw [hmap]
      refine (List.map_congr_left fun c hc => ?_).trans (List.map_id _)
      have hc : q c.id = true := (List.mem_filter.mp hc).2
      exact if_neg fun h : c.id = id => hid (h ▸ hc)
    · simp [hid]

/-- The components of some ids are those that the pairs with the ids declare. -/
theorem filter_enrol (site : Site) (q : String → Bool) (pairs : List Pair) :
    (enrol site pairs).filter (fun c => q c.id) =
      enrol site (pairs.filter fun p => q (declaredId p.keyText)) := by
  induction pairs using List.reverseRecOn with
  | nil => rfl
  | append_singleton pairs p ih =>
    unfold enrol at ih ⊢
    rw [List.foldl_append, List.filter_append, List.foldl_append, List.foldl_cons, List.foldl_nil,
      filter_declare, ih]
    by_cases hid : q (declaredId p.keyText) = true <;> simp [hid]

/-- Pairs of one id declare one component, if there are any. -/
theorem enrol_of_same_id (site : Site) {id : String} {pairs : List Pair}
    (h : ∀ p ∈ pairs, declaredId p.keyText = id) :
    enrol site pairs = if pairs.isEmpty then [] else [componentOf site id pairs] := by
  induction pairs using List.reverseRecOn with
  | nil => rfl
  | append_singleton pairs p ih =>
    have hp : declaredId p.keyText = id := h p (by simp)
    have hfront := ih fun q hq => h q (List.mem_append_left _ hq)
    unfold enrol at hfront ⊢
    rw [List.foldl_append, hfront, List.foldl_cons, List.foldl_nil, hp]
    cases pairs with
    | nil => rfl
    | cons q pairs => simp [componentOf, declare]

/-- **The component of an id is declared by the pairs with the id, all in one.** -/
theorem filter_enrol_eq_componentOf (site : Site) (id : String) (pairs : List Pair) :
    (enrol site pairs).filter (·.id = id) =
      if pairs.any (declaredId ·.keyText = id) then
        [componentOf site id (pairs.filter (declaredId ·.keyText = id))]
      else [] := by
  rw [filter_enrol site (fun i => decide (i = id)),
    enrol_of_same_id site fun p hp => of_decide_eq_true (List.mem_filter.mp hp).2]
  by_cases h : pairs.any (declaredId ·.keyText = id) = true
  · have hne : (pairs.filter (declaredId ·.keyText = id)).isEmpty = false := by
      simpa [List.isEmpty_eq_false_iff, List.filter_eq_nil_iff] using h
    rw [hne, if_pos h]
    rfl
  · have hnil : (pairs.filter (declaredId ·.keyText = id)).isEmpty = true := by
      simpa [List.isEmpty_iff, List.filter_eq_nil_iff] using h
    rw [hnil, if_neg h]
    rfl

/-- An id is enrolled iff one of the pairs has it. -/
theorem exists_mem_enrol (site : Site) (id : String) (pairs : List Pair) :
    (∃ c ∈ enrol site pairs, c.id = id) ↔ ∃ p ∈ pairs, declaredId p.keyText = id := by
  have hfilter := filter_enrol_eq_componentOf site id pairs
  constructor
  · rintro ⟨c, hc, hid⟩
    have hmem : c ∈ (enrol site pairs).filter (·.id = id) :=
      List.mem_filter.mpr ⟨hc, decide_eq_true hid⟩
    rw [hfilter] at hmem
    split at hmem
    · rename_i hany
      simpa using hany
    · cases hmem
  · rintro ⟨p, hp, hid⟩
    have hany : pairs.any (declaredId ·.keyText = id) = true :=
      List.any_eq_true.mpr ⟨p, hp, decide_eq_true hid⟩
    rw [if_pos hany] at hfilter
    have hmem := List.mem_of_mem_filter (hfilter ▸ List.mem_singleton_self _)
    exact ⟨_, hmem, rfl⟩

theorem disputes_pairReport (kind : ComponentKind) (color : TextClass) (site : Site) (p : Pair) :
    (pairReport kind color site taken p).disputes =
      if taken.contains (declaredId p.keyText) then [dispute kind site p] else [] := by
  have hspaces : (checkSpaces site p.key).disputes = [] := by
    unfold checkSpaces
    split <;> rfl
  unfold pairReport
  rw [Report.disputes_append, hspaces, List.nil_append]
  split
  · rfl
  · split <;> rfl

/-- **Each pair whose id is taken is disputed once, and no other pair is.** -/
theorem disputes_pairReports (kind : ComponentKind) (color : TextClass) (site : Site)
    (pairs : List Pair) :
    (Report.mergeAll (pairs.map (pairReport kind color site taken))).disputes =
      (pairs.filter fun p => taken.contains (declaredId p.keyText)).map (dispute kind site) := by
  induction pairs with
  | nil => rfl
  | cons p pairs ih =>
    rw [List.map_cons, Report.mergeAll_cons, Report.disputes_merge, ih, disputes_pairReport,
      List.filter_cons]
    split <;> rfl

/-- The reports on pairs have a closed property if the diagnostics of taken ids have it. -/
theorem closed_pairReports {P : Report → Prop} (hP : Report.Closed P) {kind : ComponentKind}
    {color : TextClass} {site : Site} (hdispute : ∀ p, P (.ofDiagnostic (dispute kind site p)))
    (pairs : List Pair) : P (.mergeAll (pairs.map (pairReport kind color site taken))) := by
  refine hP.mergeAll_map fun p _ => hP.merge ?_ ?_
  · unfold checkSpaces
    split
    · exact Schema.closed_problem hP _ _ _
    · exact hP.empty
  · split
    · exact hdispute p
    · split
      · exact hP.empty
      · exact hP.highlight _

theorem silent_pairReports {kind : ComponentKind} {color : TextClass} {site : Site}
    (pairs : List Pair) :
    (Report.mergeAll (pairs.map (pairReport kind color site taken))).Silent :=
  closed_pairReports Report.closed_silent.toClosed (fun _ => rfl) pairs

end Registration

/-- What the registering check registers: what the pairs declare that have a value and whose id is
not taken. -/
theorem components_registration {kind : ComponentKind} {color : TextClass} {site : Site} {n : Node}
    {r : Report} (h : registration kind color site n = .ok r) (kind' : ComponentKind) :
    r.components.of kind' = if kind' = kind then Registration.enrol site ((n.pairs?.getD []).filter
      (Registration.registers (site.registry.taken site.uri kind))) else [] := by
  cases n with
  | map pairs start stop =>
    rw [registration_map] at h
    cases h
    rw [Report.components_of_silent_left (Registration.silent_pairReports pairs)]
    exact ComponentTable.of_single ..
  | _ =>
    cases h
    cases kind' <;> exact (ite_self _).symm

/-- What the registering check disputes: each pair whose id is taken. -/
theorem disputes_registration {kind : ComponentKind} {color : TextClass} {site : Site} {n : Node}
    {r : Report} (h : registration kind color site n = .ok r) :
    r.disputes = ((n.pairs?.getD []).filter fun p =>
      (site.registry.taken site.uri kind).contains (declaredId p.keyText)).map
        (Registration.dispute kind site) := by
  cases n with
  | map pairs start stop =>
    rw [registration_map] at h
    cases h
    rw [Report.disputes_append, Registration.disputes_pairReports]
    exact List.append_nil _
  | _ =>
    cases h
    rfl

/-- The registering check makes no link. -/
theorem linkless_registration {kind : ComponentKind} {color : TextClass} {site : Site} {n : Node}
    {r : Report} (h : registration kind color site n = .ok r) : r.Linkless := by
  cases n with
  | map pairs start stop =>
    rw [registration_map] at h
    cases h
    exact Report.closed_linkless.merge
      (Registration.closed_pairReports Report.closed_linkless (fun _ => rfl) pairs) rfl
  | _ =>
    cases h
    rfl

/-- Every kind of component in the table is registered by the document at `uri`. -/
def ComponentTable.RegisteredAt (t : ComponentTable) (registry : Registry) (uri : String) : Prop :=
  ∀ kind, Registered uri (registry.taken uri kind) (t.of kind)

namespace ComponentTable

@[simp] theorem of_empty (kind : ComponentKind) : ({} : ComponentTable).of kind = [] := by
  cases kind <;> rfl

theorem registeredAt_empty (registry : Registry) (uri : String) :
    RegisteredAt {} registry uri := by
  intro kind
  rw [of_empty]
  exact .nil

end ComponentTable

/-- **The registering check registers components of the document only.** -/
theorem registration_registers {kind : ComponentKind} {color : TextClass} {site : Site} {n : Node}
    {r : Report} (h : registration kind color site n = .ok r) :
    r.components.RegisteredAt site.registry site.uri := by
  intro kind'
  rw [components_registration h]
  split
  · rename_i hk
    rw [hk]
    refine Registration.registered_enrol site fun p hp => ?_
    exact Registration.not_mem_taken_of_registers (List.mem_filter.mp hp).2
  · exact .nil

end PackLint
