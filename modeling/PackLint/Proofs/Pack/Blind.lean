import PackLint.Proofs.Pack.Answers
import PackLint.Proofs.Pack.Registration

/-!
# What the report on a file owes to other documents

The local check of a file asks only once what is registered: when it registers the top-level keys.
So it reports the same whatever other documents declare, as long as none of them has registered one
of its ids. The references of a file are resolved alike as far as single references are.

Results:
* `Pack.check_unclaimed`: the local check of a file whose ids nobody else has registered.
* `Pack.resolve_related`: what is resolved in a file is related if single references are.
-/

namespace PackLint

namespace Pack

variable {kind : FileKind} {site site' : Site} {n : Node} {s : Schema}

/-! ## Single checks -/

/-- The check does not see what is registered. -/
def Unregistered (c : Check) : Prop :=
  ∀ site site' n, site.SameDocument site' → c site n = c site' n

theorem unregistered_cooldownAligned : Unregistered cooldownAligned := by
  rintro site _ n ⟨registry, rfl⟩
  rfl

theorem unregistered_potionMaterial : Unregistered potionMaterial := by
  rintro site _ n ⟨registry, rfl⟩
  rfl

theorem unregistered_mobTypes : Unregistered mobTypes := by
  rintro site _ n ⟨registry, rfl⟩
  rfl

theorem checksAlike_among (name : String) (names : GameData → List String) :
    Schema.All (Schema.ChecksAlike Site.SameDocument) (Choice.among name names) :=
  .intro ⟨(known_among name names).self.blind, fun _ _ _ _ => rfl⟩ fun _ h => h.elim

theorem unregistered_enchantmentEntry : Unregistered enchantmentEntry := by
  intro site site' n h
  unfold enchantmentEntry
  split
  · split
    · exact Schema.check_blind (fun _ _ => Site.SameDocument.sameText) h (checksAlike_among _ _) _
    · rfl
  · rfl

theorem runChecks_unregistered {checks : List Check} (h : site.SameDocument site')
    (hchecks : ∀ c ∈ checks, Unregistered c) :
    runChecks checks site n = runChecks checks site' n := by
  rw [runChecks_eq, runChecks_eq, Except.mapM_congr fun c hc => hchecks c hc site site' n h]

/-- Listed checks do not see what is registered. -/
theorem Listed.checksAlike (h : Listed s) : s.ChecksAlike Site.SameDocument := by
  refine ⟨h.blind, fun site site' n hsite => ?_⟩
  obtain ⟨checks, references, -, hchecks, -⟩ := h.brings
  rw [hchecks]
  refine runChecks_unregistered hsite fun c hc => ?_
  have hc : c ∈ s.info.localChecks (.ofNode site n) := by rwa [hchecks]
  rcases h.localCheck hc with rfl | rfl | rfl
  · exact unregistered_cooldownAligned
  · exact unregistered_potionMaterial
  · exact unregistered_enchantmentEntry

/-! ## Files -/

theorem unregistered_otherChecks (kind : FileKind) : ∀ c ∈ otherChecks kind, Unregistered c := by
  cases kind with
  | mob => exact fun c hc => List.mem_singleton.mp hc ▸ unregistered_mobTypes
  | _ => exact fun _ hc => nomatch hc

/-- Two reports have the reports of the registering check at two sites between equal reports. -/
def AroundRegistration (kind : FileKind) (site site' : Site) (n : Node) (r r' : Report) : Prop :=
  ∃ front registering registering' back,
    registration kind.declares kind.idColor site n = .ok registering ∧
    registration kind.declares kind.idColor site' n = .ok registering' ∧
    r = front ++ (registering ++ back) ∧ r' = front ++ (registering' ++ back)

/-- **Two local checks of a file differ in what the registering check reports, if at all.** -/
theorem check_around (h : site.SameDocument site') :
    Except.Rel (AroundRegistration kind site site' n) (kind.schema.check site n)
      (kind.schema.check site' n) := by
  have hstructure : Schema.checkStructure (fun t m => t.check site m) kind.schema site n =
      Schema.checkStructure (fun t m => t.check site' m) kind.schema site' n := by
    refine Schema.checkStructure_alike h.sameText Node.downClosed_true (fun _ _ =>
      Schema.check_alike h.sameText Node.downClosed_true) ?_ (fun t ht => ?_) trivial
    · exact (blind_file kind).mono fun _ _ => Schema.atSites_over h
    · exact (known_parts kind t ht).imp fun _ ht => ht.checksAlike.looksAlike h
  obtain ⟨registering, hregistering⟩ := @answers_registration site n kind.declares kind.idColor
  obtain ⟨registering', hregistering'⟩ := @answers_registration site' n kind.declares kind.idColor
  rw [Schema.check_eq, Schema.check_eq, localChecks_file, localChecks_file, runChecks_cons,
    runChecks_cons, hstructure, hregistering, hregistering',
    runChecks_unregistered h (unregistered_otherChecks kind)]
  cases Schema.checkStructure (fun t m => t.check site' m) kind.schema site' n with
  | error fault => exact .error fault
  | ok front =>
    cases runChecks (otherChecks kind) site' n with
    | error fault => exact .error fault
    | ok back =>
      exact .ok ⟨front, registering, registering', back, hregistering, hregistering', rfl, rfl⟩

/-- Where the registering check reports the same, so does the local check. -/
theorem check_of_registration (h : site.SameDocument site')
    (hregistration : registration kind.declares kind.idColor site n =
      registration kind.declares kind.idColor site' n) :
    kind.schema.check site n = kind.schema.check site' n := by
  generalize hx : kind.schema.check site n = x
  generalize hy : kind.schema.check site' n = y
  have hxy := @check_around kind site site' n h
  rw [hx, hy] at hxy
  cases hxy with
  | error fault => rfl
  | ok hr =>
    obtain ⟨front, registering, registering', back, hregistering, hregistering', rfl, rfl⟩ := hr
    cases hregistering.symm.trans (hregistration.trans hregistering')
    rfl

/-- None of the ids of the top-level keys is registered by another document. -/
def Unclaimed (kind : FileKind) (site : Site) (n : Node) : Prop :=
  ∀ p ∈ n.pairs?.getD [], declaredId p.keyText ∉ site.registry.taken site.uri kind.declares

/-- Keys whose ids nobody else has registered are registered alike, whatever else is registered. -/
theorem registration_unclaimed (h : site.SameDocument site') (hn : Unclaimed kind site n)
    (hn' : Unclaimed kind site' n) : registration kind.declares kind.idColor site n =
      registration kind.declares kind.idColor site' n := by
  obtain ⟨registry, rfl⟩ := h
  cases n with
  | map pairs start stop =>
    have htaken : ∀ p ∈ pairs,
        (site.registry.taken site.uri kind.declares).contains (declaredId p.keyText) =
          (registry.taken site.uri kind.declares).contains (declaredId p.keyText) := by
      intro p hp
      rw [List.contains_eq_mem, List.contains_eq_mem, decide_eq_false (hn p hp),
        decide_eq_false (hn' p hp)]
    have hreports : pairs.map (Registration.pairReport kind.declares kind.idColor site
          (site.registry.taken site.uri kind.declares)) =
        pairs.map (Registration.pairReport kind.declares kind.idColor { site with registry }
          (registry.taken site.uri kind.declares)) := by
      refine List.map_congr_left fun p hp => ?_
      unfold Registration.pairReport
      rw [htaken p hp]
      rfl
    have henrolled : pairs.filter
          (Registration.registers (site.registry.taken site.uri kind.declares)) =
        pairs.filter (Registration.registers (registry.taken site.uri kind.declares)) := by
      refine List.filter_congr fun p hp => ?_
      unfold Registration.registers
      rw [htaken p hp]
    rw [registration_map, registration_map, hreports, henrolled]
    rfl
  | _ => rfl

/-- **The local check of a file whose ids nobody else has registered is the same whatever else is
registered.** -/
theorem check_unclaimed (h : site.SameDocument site') (hn : Unclaimed kind site n)
    (hn' : Unclaimed kind site' n) : kind.schema.check site n = kind.schema.check site' n :=
  check_of_registration h (registration_unclaimed h hn hn')

/-- **What is resolved in a file is related if single references are.** -/
theorem resolve_related {Q : Report → Report → Prop} (hQ : Report.Congruence Q)
    (h : site.SameDocument site')
    (href : ∀ ref : Reference, ref.name ≠ "" → ∀ s, Q (ref.report site s) (ref.report site' s)) :
    Except.Rel Q (kind.schema.resolve site n) (kind.schema.resolve site' n) := by
  refine Schema.resolve_related (fun _ _ => Site.SameDocument.sameText) hQ
    (href _ (by decide)) h (.intro ⟨blind_file kind, fun n => ?_⟩ fun t ht => ?_) n
  · rw [referenceChecks_file, referenceChecks_file]
    exact .ok (hQ.refl _)
  · refine (known_parts kind t ht).imp fun s hs => ⟨hs.blind, fun n => ?_⟩
    obtain ⟨checks, references, hb, -, hreferences⟩ := hs.brings
    rw [hreferences]
    cases hb with
    | reference ref hname =>
      rw [runChecks_cons, runChecks_cons]
      refine .ok (hQ.merge ?_ (hQ.refl _))
      cases n.scalar? with
      | none => exact hQ.refl _
      | some scalar => exact href ref hname scalar
    | _ => exact .ok (hQ.refl _)

end Pack

end PackLint
