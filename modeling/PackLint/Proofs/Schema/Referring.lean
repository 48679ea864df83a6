import PackLint.Proofs.Schema.Proposals
import PackLint.Proofs.Schema.Respelt

/-!
# References at the leaves

References are resolved property by property, at the leaves of a map that hold one. A schema that
brings no checks of references along, in none of its parts, finds nothing. So maps of objects with
the same leaves refer to the same, if what is set aside refers to nothing.

Results:
* `Schema.findings_resolve_eq_zero`: a schema without references finds none.
* `Schema.codes_resolve_eq`: maps with the same leaves have the same codes of references.
-/

namespace PackLint

namespace Schema

variable {s : Schema} {visit visit' : Visit} {site site' : Site} {ctx : Context}

/-! ## Properties -/

theorem findings_resolveProperty (held : List Pair) (p : Property) :
    findings (resolveProperty visit site held p) = (held.map fun pair => findings
      (match pair.value with
        | none => .ok .empty
        | some value => visit (p.schema (.ofPair site pair)) value)).sum :=
  findings_mergeAll_mapM _ held

/-- The references in a map are those in its properties. -/
theorem findings_resolveMap (pairs : List Pair) (start stop : Nat) :
    findings (s.resolveMap visit site (.map pairs start stop)) =
      ((s.flatProperties (.ofNode site (.map pairs start stop))).map fun e =>
        findings (resolveProperty visit site (heldIn site (.map pairs start stop) e) e.2)).sum := by
  rw [← findings_mergeAll_mapM, resolveMap_map]
  change findings (List.mapM (fun e : String × Property => resolveProperty visit site
    (heldIn site (.map pairs start stop) e) e.2) _ >>= _) = _
  cases List.mapM (fun e : String × Property => resolveProperty visit site
    (heldIn site (.map pairs start stop) e) e.2) _ with
  | error fault => rfl
  | ok reports =>
    change Report.findings (_ ++ _) = Report.findings _
    rw [Report.findings_append]
    exact add_zero _

/-! ## Schemas without references -/

/-- The schema brings no checks of references along, and has no skill lines that refer to skills. -/
def RefersToNothing (s : Schema) : Prop :=
  (∀ ctx, s.info.referenceChecks ctx = []) ∧
    match s with
    | skillList _ _ => False
    | _ => True

/-- Nothing is found in the references of any node with schemas that refer to nothing. -/
def FindsNothing (visit : Visit) : Prop :=
  ∀ t n, All RefersToNothing t → findings (visit t n) = 0

theorem findings_resolveProperty_eq_zero (hv : FindsNothing visit) {p : Property}
    (hp : ∀ ctx, All RefersToNothing (p.schema ctx)) (held : List Pair) :
    findings (resolveProperty visit site held p) = 0 := by
  rw [findings_resolveProperty]
  refine List.sum_eq_zero (List.forall_mem_map.mpr fun pair _ => ?_)
  split
  · rfl
  · exact hv _ _ (hp _)

theorem findings_resolveItems_eq_zero (hv : FindsNothing visit) {rule : ItemsOf Schema}
    (hrule : ∀ t ∈ rule.schemas, All RefersToNothing t) (n : Node) :
    findings (resolveItems visit rule n) = 0 := by
  cases n with
  | seq items start stop =>
    cases rule with
    | anything => rfl
    | each t =>
      refine (findings_mergeAll_mapM _ items).trans (List.sum_eq_zero ?_)
      exact List.forall_mem_map.mpr fun item _ => hv t item (hrule t (List.mem_singleton_self t))
    | inOrder ts =>
      refine (findings_mergeAll_mapM _ (ts.zip items)).trans (List.sum_eq_zero ?_)
      exact List.forall_mem_map.mpr fun e he => hv e.1 e.2 (hrule e.1 (List.of_mem_zip he).1)
  | _ => rfl

theorem findings_resolveMap_eq_zero (hv : FindsNothing visit)
    (hparts : AllParts RefersToNothing s) (n : Node) :
    findings (s.resolveMap visit site n) = 0 := by
  cases n with
  | map pairs start stop =>
    rw [findings_resolveMap]
    refine List.sum_eq_zero (List.forall_mem_map.mpr fun e he => ?_)
    exact findings_resolveProperty_eq_zero hv (all_of_mem_flatProperties hparts he) _
  | _ => rfl

theorem findings_resolveStructure_eq_zero (hv : FindsNothing visit) (hs : All RefersToNothing s)
    (n : Node) : findings (resolveStructure visit s site n) = 0 := by
  cases s with
  | string info rule =>
    refine Report.findings_eq_zero ?_
    cases n with
    | scalar scalar => exact (mute_complete rule site scalar).diagnostics
    | _ => rfl
  | list info items duplicates =>
    exact findings_resolveItems_eq_zero hv (fun t ht => hs.part ⟨_, ht⟩) n
  | skillList info triggers => exact hs.self.2.elim
  | object info properties => exact findings_resolveMap_eq_zero hv hs.allParts n
  | map info value describe => exact findings_resolveMap_eq_zero hv hs.allParts n
  | _ => rfl

theorem findsNothing_resolveWithin (site : Site) (levels : Nat) :
    FindsNothing (resolveWithin site levels) := by
  induction levels with
  | zero => exact fun _ _ _ => rfl
  | succ levels ih =>
    intro t n ht
    refine (findings_bind_append _ _).trans ?_
    rw [findings_resolveStructure_eq_zero ih ht, findings_runChecks, ht.self.1]
    rfl

/-- **A schema that refers to nothing finds nothing.** -/
theorem findings_resolve_eq_zero (hs : All RefersToNothing s) (site : Site) (n : Node) :
    findings (s.resolve site n) = 0 :=
  findsNothing_resolveWithin site _ s n hs

/-! ## The same leaves -/

variable {describe : Context → Option String} {key : Option String} {inner info : SchemaInfo}
  {ps : List (String × Property)} {pairs pairs' : List Pair} {start stop start' stop' : Nat}

/-- The codes of the references in the pairs that hold a property. -/
def referenceCodes (visit : Visit) (site : Site) (e : String × Property) (held : List Pair) :
    Codes :=
  codes (findings (resolveProperty visit site held e.2))

theorem saidAlike_referenceCodes (hsite : site.Alike site')
    (hv : ∀ m m', m.Copy True site.source site'.source m' →
      VisitedAlike True site site' visit visit' m m') :
    SaidAlike site.source site'.source (referenceCodes visit site)
      (referenceCodes visit' site') where
  nil _ := rfl
  nil' _ := rfl
  perm e held held' h := by
    unfold referenceCodes
    rw [findings_resolveProperty, findings_resolveProperty, (h.map _).sum_eq]
  copies e huniform hschema held held' h := by
    have hvalues : List.Forall₂ (ValuesAlike True site site' visit visit') held held' :=
      h.imp fun p p' hp => optionRel_imp hp fun m m' _ _ hcopy => hv m m' hcopy
    exact codes_eq_of_sameOutcome (alike_resolveProperty hsite huniform hschema hvalues)

section Objects

variable (h : UniformBut key inner ps)
  (haside : ∀ e ∈ ps, some e.1 = key → ∀ ctx, All RefersToNothing (e.2.schema ctx))

include h haside

/-- What is nested in a property that refers to nothing does not either. -/
theorem refersToNothing_of_setAside {id : String} {e : String × Property} (hid : DotFree id)
    (he : e ∈ entryFlat ctx (.object inner fun _ => ps) id) (hset : setAside key e.1)
    (ctx' : Context) : All RefersToNothing (e.2.schema ctx') := by
  obtain ⟨c, hc, rfl⟩ := List.mem_map.mp he
  rw [setAside_append hid, decide_eq_true_eq] at hset
  rcases (h.tidy ctx).keyed.mem_nestedProperties.mp hc with ⟨hown, -⟩ | ⟨k, p, hp, sub, hsub, rfl⟩
  · have hfree := (h.tidy ctx).dotFree hown (key_mem_names c.1 c.2 ctx)
    rw [firstSegment_of_dotFree hfree] at hset
    exact haside c hown hset ctx'
  · have hfree := (h.tidy ctx).dotFree hp (key_mem_names k p ctx)
    rw [firstSegment_append hfree] at hset
    exact all_of_mem_nestedProperties (haside (k, p) hp hset ctx) hsub ctx'

/-- **The codes of the references in a map of objects** are those at the leaves that are not set
aside, if what is set aside refers to nothing. -/
theorem codes_resolve_objects {s : Schema}
    (hs : s = .map info (fun _ => .object inner fun _ => ps) describe)
    (hreferences : ∀ ctx, s.info.referenceChecks ctx = []) {r : Report}
    (hr : s.resolve site (.map pairs start stop) = .ok r) :
    (r.codes : Codes) = ((s.flatProperties (.ofNode site (.map pairs start stop))).map fun e =>
      referenceCodes (fun t m => t.resolve site m) site e
        (heldAt (.ofNode site (.map pairs start stop)) (s.keptIn key site (.map pairs start stop))
          e)).sum := by
  obtain ⟨ids, hflat, hids⟩ := @exists_inEntries describe site key inner ps info h s hs pairs start
    stop
  generalize hn : Node.map pairs start stop = n at hr hflat hids ⊢
  have hstructure : resolveStructure (fun t m => t.resolve site m) s site n =
      s.resolveMap (fun t m => t.resolve site m) site n := by
    rw [hs]
    rfl
  have hfound : codes (findings (s.resolve site n)) =
      ((s.flatProperties (.ofNode site n)).map fun e =>
        referenceCodes (fun t m => t.resolve site m) site e (heldIn site n e)).sum := by
    rw [resolve_eq, hstructure, ← hn]
    refine (congrArg codes (findings_bind_append _ _)).trans ?_
    rw [findings_resolveMap, findings_runChecks, hreferences, List.map_nil, List.sum_nil, add_zero,
      map_list_sum, List.map_map]
    rfl
  have hnames := @not_leadsOn_entries (.ofNode site n) key inner ps ids h hids.dotFree
  have hsplit := @setAside_or_not (.ofNode site n) key inner ps ids h hids.dotFree
  rw [← hflat] at hnames hsplit
  have hsilent : ∀ e ∈ s.flatProperties (.ofNode site n),
      referenceCodes (fun t m => t.resolve site m) site e (heldAt (.ofNode site n)
        ((s.leavesIn site n).filter (setAside key ·.path)) e) = 0 := by
    intro e he
    rcases hsplit e he with hall | hnone
    · rw [hflat] at he
      obtain ⟨id, hid, he⟩ := List.mem_flatMap.mp he
      have hset := hall e.1 (key_mem_names e.1 e.2 _)
      refine congrArg codes (findings_resolveProperty_eq_zero ?_
        (refersToNothing_of_setAside h haside (hids.dotFree id hid) he hset) _)
      exact fun t m ht => findings_resolve_eq_zero ht site m
    · unfold heldAt
      rw [pairsUnder_filter_eq_nil hnone]
      rfl
  have hperm : ∀ e ∈ s.flatProperties (.ofNode site n),
      referenceCodes (fun t m => t.resolve site m) site e (heldIn site n e) =
        referenceCodes (fun t m => t.resolve site m) site e
          (heldAt (.ofNode site n) (s.leavesIn site n) e) := fun e he => by
    unfold referenceCodes
    rw [findings_resolveProperty, findings_resolveProperty,
      ((heldIn_perm_heldAt rfl hnames he).map _).sum_eq]
    rfl
  rw [hr, findings_ok, codes_findings, List.map_congr_left hperm,
    sum_heldAt_filter (fun _ => rfl) hsplit, List.sum_eq_zero (List.forall_mem_map.mpr hsilent),
    add_zero] at hfound
  exact hfound

/-- **Maps of objects with the same leaves have the same codes of references**, if what is set aside
refers to nothing. -/
theorem codes_resolve_eq {s : Schema}
    (hs : s = .map info (fun _ => .object inner fun _ => ps) describe)
    (hreferences : ∀ ctx, s.info.referenceChecks ctx = []) (hsite : site.Alike site')
    (hsame : SameLeaves site.source site'.source (s.keptIn key site (.map pairs start stop))
      (s.keptIn key site' (.map pairs' start' stop'))) {r r' : Report}
    (hr : s.resolve site (.map pairs start stop) = .ok r)
    (hr' : s.resolve site' (.map pairs' start' stop') = .ok r') : r.codes = r'.codes := by
  obtain ⟨ids, hflat, hids⟩ := @exists_inEntries describe site key inner ps info h s hs pairs start
    stop
  obtain ⟨ids', hflat', hids'⟩ := @exists_inEntries describe site' key inner ps info h s hs pairs'
    start' stop'
  have hsaid : SaidAlike site.source site'.source
      (referenceCodes (fun t m => t.resolve site m) site)
      (referenceCodes (fun t m => t.resolve site' m) site') :=
    saidAlike_referenceCodes hsite fun m m' hcopy =>
      ⟨hcopy, fun t ht => alike_resolve ht hsite hcopy⟩
  have hcodes := codes_resolve_objects h haside hs hreferences hr
  have hcodes' := codes_resolve_objects h haside hs hreferences hr'
  rw [hflat, sum_heldAt_eq h hids hids' hsaid hsame, ← hflat', ← hcodes', WithTop.coe_inj] at hcodes
  exact hcodes

end Objects

end Schema

end PackLint
