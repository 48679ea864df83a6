import PackLint.Proofs.Report.Alike
import PackLint.Proofs.Schema.TwoSites
import PackLint.Schema.Resolve

/-!
# What a look at a document depends on

A node is looked at in the text of a document and under the settings of the workspace; what else is
known at the site matters only to the fields and the checks of a schema. So a check reports the same
at two sites with the same text and settings, if the schemas inside of the schema and the checks
that they bring along do not tell the sites apart.

References depend on what other documents declare. What is resolved at two sites is related in every
way that merging keeps and in which the reports on single references are related.

Results:
* `Schema.check_blind`: a schema that does not tell two sites apart checks a node alike at both.
* `Schema.resolve_related`: it resolves the references of a node in related ways.
-/

namespace PackLint

/-! ## Sites and contexts -/

/-- Two sites at which the same document is looked at; they differ at most in what is registered. -/
def Site.SameDocument (site site' : Site) : Prop := ∃ registry, site' = { site with registry }

theorem Site.SameDocument.sameText {site site' : Site} (h : site.SameDocument site') :
    site.SameText site' := by
  obtain ⟨registry, rfl⟩ := h
  exact ⟨rfl, rfl⟩

/-- Two contexts in which the same node is looked at, at related sites. -/
structure Context.Over (R : Site → Site → Prop) (ctx ctx' : Context) : Prop where
  site : R ctx.site ctx'.site
  node : ctx.node = ctx'.node
  pair : ctx.pair = ctx'.pair

variable {R : Site → Site → Prop} {site site' : Site}

theorem Context.over_ofNode (h : R site site') (n : Node) :
    (Context.ofNode site n).Over R (.ofNode site' n) :=
  ⟨h, rfl, rfl⟩

theorem Context.over_ofPair (h : R site site') (p : Pair) :
    (Context.ofPair site p).Over R (.ofPair site' p) :=
  ⟨h, rfl, rfl⟩

namespace Schema

/-! ## Schemas -/

/-- Nothing that the schema itself is made of tells related sites apart. The checks that it brings
along may do so. -/
def BlindTo (R : Site → Site → Prop) (s : Schema) : Prop := s.BlindUnder (Context.Over R)

/-- The local checks that the schema brings along report the same at related sites. -/
def ChecksBlindTo (R : Site → Site → Prop) (s : Schema) : Prop :=
  ∀ (site site' : Site) (n : Node), R site site' →
    runChecks (s.info.localChecks (.ofNode site n)) site n =
      runChecks (s.info.localChecks (.ofNode site' n)) site' n

/-- Neither the schema nor its local checks tell related sites apart. -/
def ChecksAlike (R : Site → Site → Prop) (s : Schema) : Prop := s.BlindTo R ∧ s.ChecksBlindTo R

variable {visit visit' : Visit} {s : Schema} {n : Node}

theorem atSites_over {V : Node → Prop} (h : R site site') {ctx ctx' : Context}
    (hctx : Context.AtSites V site site' ctx ctx') : ctx.Over R ctx' :=
  ⟨by rw [hctx.left, hctx.right]; exact h, hctx.node, hctx.pair⟩

theorem ChecksAlike.looksAlike {V : Node → Prop} (h : R site site') (hs : s.ChecksAlike R) :
    s.LooksAlike V site site' :=
  ⟨hs.1.mono fun _ _ => atSites_over h, fun n _ => hs.2 site site' n h⟩

/-- **A schema that does not tell two sites apart checks a node alike at both.** -/
theorem check_blind (hR : ∀ site site', R site site' → site.SameText site') (h : R site site')
    (hs : All (ChecksAlike R) s) (n : Node) : s.check site n = s.check site' n :=
  check_alike (hR _ _ h) Node.downClosed_true (hs.imp fun _ => ChecksAlike.looksAlike h) trivial

/-! ## Completions -/

section Completions

variable {ctx ctx' : Context} (hctx : ctx.Over R ctx') (htext : ctx.site.SameText ctx'.site)
  {missing : List (String × Property)}
  (hmissing : ∀ e ∈ missing, e.2.SteadyUnder (Context.Over R))

include hctx

theorem propertyProposal_blind {p : Property} (hp : p.SteadyUnder (Context.Over R))
    (label : String) : propertyProposal ctx label p = propertyProposal ctx' label p := by
  unfold propertyProposal
  rw [hp.description _ _ hctx]

include hmissing in
theorem proposals_blind (front : List Char) :
    missing.foldl (addProposals ctx front) [] = missing.foldl (addProposals ctx' front) [] := by
  refine List.foldl_ext _ _ [] fun items e he => ?_
  obtain ⟨key, p⟩ := e
  have hp : p.SteadyUnder (Context.Over R) := hmissing (key, p) he
  simp only [addProposals]
  rw [names_eq (hp.aliases _ _ hctx)]
  simp only [propertyProposal_blind hctx hp]

omit hctx in
include htext in
theorem atFreeLineStart_blind (value : Option Node) :
    atFreeLineStart ctx.site value = atFreeLineStart ctx'.site value := by
  funext cursor
  unfold atFreeLineStart
  simp only [htext.nodeRange_eq, htext.source]

include htext hmissing in
/-- The same properties are proposed in a map. -/
theorem mapCompletions_blind (n : Node) (names : List (List Char)) (front : List Char) :
    mapCompletions ctx names missing front n = mapCompletions ctx' names missing front n := by
  induction n using Node.height_induction generalizing front with
  | step n ih =>
    cases n with
    | scalar scalar => simp only [mapCompletions]
    | seq items start stop => simp only [mapCompletions]
    | map pairs start stop =>
      have hpairs : ∀ items ps, (∀ p ∈ ps, p ∈ pairs) →
          pairCompletions ctx names missing front items ps =
            pairCompletions ctx' names missing front items ps := by
        intro items ps hps
        induction ps with
        | nil => simp only [pairCompletions]
        | cons p ps ihps =>
          have hp := hps p List.mem_cons_self
          obtain ⟨key, value, comment⟩ := p
          have hrest := ihps fun q hq => hps q (List.mem_cons_of_mem _ hq)
          have hinner : ∀ v, value = some v → ∀ front, mapCompletions ctx names missing front v =
              mapCompletions ctx' names missing front v :=
            fun v hv => ih v (Node.height_value_lt hp hv start stop)
          rcases value with _ | (_ | _ | ⟨inner, start', stop'⟩) <;>
            simp only [pairCompletions, hrest, atFreeLineStart_blind htext, stopAfterBlanks,
              htext.source]
          rw [hinner _ rfl]
      simp only [mapCompletions]
      rw [proposals_blind hctx hmissing, hpairs _ _ fun _ h => h, htext.source]

end Completions

/-! ## References -/

section References

variable {Q : Report → Report → Prop}

/-- The schema does not tell related sites apart, and the checks of references that it brings along
have related reports at two of them. -/
def ResolvesAlike (R : Site → Site → Prop) (Q : Report → Report → Prop) (site site' : Site)
    (s : Schema) : Prop :=
  s.BlindTo R ∧ ∀ n, Except.Rel Q (runChecks (s.info.referenceChecks (.ofNode site n)) site n)
    (runChecks (s.info.referenceChecks (.ofNode site' n)) site' n)

/-- The visits have related outcomes wherever references have. -/
def RelatedVisits (R : Site → Site → Prop) (Q : Report → Report → Prop) (site site' : Site)
    (visit visit' : Visit) : Prop :=
  ∀ s n, All (ResolvesAlike R Q site site') s → Except.Rel Q (visit s n) (visit' s n)

variable (hR : ∀ site site', R site site' → site.SameText site') (hQ : Report.Congruence Q)
  (hskill : ∀ s, Q (Reference.skill.report site s) (Reference.skill.report site' s))
  (h : R site site')

include hQ

theorem related_mapM {α : Type} {l : List α} {f g : α → Except Fault Report}
    (hfg : ∀ a ∈ l, Except.Rel Q (f a) (g a)) :
    Except.Rel Q ((l.mapM f).map .mergeAll) ((l.mapM g).map .mergeAll) :=
  (Except.Rel.mapM (List.forall₂_same.mpr hfg)).map fun _ _ => hQ.mergeAll

theorem resolveItems_related (hv : RelatedVisits R Q site site' visit visit')
    {rule : ItemsOf Schema} (hrule : ∀ t ∈ rule.schemas, All (ResolvesAlike R Q site site') t) :
    Except.Rel Q (resolveItems visit rule n) (resolveItems visit' rule n) := by
  cases n with
  | seq items start stop =>
    cases rule with
    | anything => exact .ok (hQ.refl _)
    | each t =>
      exact related_mapM hQ fun item _ => hv t item (hrule t (List.mem_singleton_self t))
    | inOrder ts =>
      exact related_mapM hQ fun e he => hv e.1 e.2 (hrule e.1 (List.of_mem_zip he).1)
  | _ => exact .ok (hQ.refl _)

include h

theorem resolveProperty_related (hv : RelatedVisits R Q site site' visit visit') {p : Property}
    (hp : p.SteadyUnder (Context.Over R))
    (hschema : ∀ ctx, All (ResolvesAlike R Q site site') (p.schema ctx))
    (found : List Pair) :
    Except.Rel Q (resolveProperty visit site found p) (resolveProperty visit' site' found p) := by
  refine related_mapM hQ fun pair _ => ?_
  rw [← hp.schema _ _ (Context.over_ofPair h pair)]
  split
  · exact .ok (hQ.refl _)
  · exact hv _ _ (hschema _)

include hR

theorem resolveMap_related (hself : s.BlindTo R)
    (hparts : AllParts (ResolvesAlike R Q site site') s)
    (hv : RelatedVisits R Q site site' visit visit') :
    Except.Rel Q (s.resolveMap visit site n) (s.resolveMap visit' site' n) := by
  have htext := hR _ _ h
  have hctx := Context.over_ofNode h n
  have hsteady : AllParts (SteadyUnder (Context.Over R)) s :=
    fun t ht => (hparts t ht).imp fun _ h => h.1.1
  unfold resolveMap
  simp only
  split
  · rename_i pairs start stop
    have hflat : ∀ e ∈ s.flatProperties (.ofNode site' (.map pairs start stop)),
        e.2.SteadyUnder (Context.Over R) := fun e => steady_of_mem_flatProperties hself.1 hsteady
    have hfound : ((s.flatProperties (.ofNode site' (.map pairs start stop))).map fun e =>
          (e.1, e.2, propertyPairs (.ofNode site (.map pairs start stop)) e.1 e.2 pairs)) =
        (s.flatProperties (.ofNode site' (.map pairs start stop))).map fun e =>
          (e.1, e.2, propertyPairs (.ofNode site' (.map pairs start stop)) e.1 e.2 pairs) := by
      refine List.map_congr_left fun e he => ?_
      unfold propertyPairs
      rw [names_eq ((hflat e he).aliases _ _ hctx)]
    rw [flatProperties_steady hself.1 hsteady hctx, hfound]
    refine (Except.Rel.mapM (List.forall₂_same.mpr fun e he => ?_)).bind fun _ _ hreports =>
      .ok (hQ.merge (hQ.mergeAll hreports) ?_)
    · obtain ⟨⟨key, p⟩, hm, rfl⟩ := List.mem_map.mp he
      exact resolveProperty_related hQ h hv (hflat _ hm) (all_of_mem_flatProperties hparts hm) _
    · rw [propertyNames_eq fun e he => (hflat e he).aliases _ _ hctx,
        mapCompletions_blind hctx htext fun e he => ?_]
      · exact hQ.refl _
      · obtain ⟨⟨key, p, ps⟩, hm, rfl⟩ := List.mem_map.mp he
        obtain ⟨⟨key', p'⟩, he', heq⟩ := List.mem_map.mp (List.mem_of_mem_filter hm)
        cases heq
        exact hflat _ he'
  · have hitems : ((s.properties (.ofNode site n)).map fun e =>
          propertyProposal (.ofNode site n) e.1 e.2) =
        (s.properties (.ofNode site' n)).map fun e =>
          propertyProposal (.ofNode site' n) e.1 e.2 := by
      rw [properties_steady hself.1 hctx]
      exact List.map_congr_left fun e he =>
        propertyProposal_blind hctx (steady_of_mem_properties hself.1 he) e.1
    unfold stopAfterBlanks
    rw [hitems, htext.source]
    exact .ok (hQ.refl _)

include hskill

theorem skillLine_related (supportsTriggers : Bool) (scalar : Scalar) :
    Q (skillLine supportsTriggers site scalar) (skillLine supportsTriggers site' scalar) := by
  unfold skillLine
  rw [(hR _ _ h).source]
  split
  · exact hQ.refl _
  · refine hQ.merge (hQ.refl _) ?_
    cases Mechanic.skillReference? _ with
    | none => exact hQ.refl _
    | some token => exact hskill _

theorem resolveStructure_related (hself : s.BlindTo R)
    (hparts : AllParts (ResolvesAlike R Q site site') s)
    (hv : RelatedVisits R Q site site' visit visit') :
    Except.Rel Q (resolveStructure visit s site n) (resolveStructure visit' s site' n) := by
  have hctx := Context.over_ofNode h n
  cases s with
  | string info rule =>
    refine .ok ?_
    cases n with
    | scalar scalar =>
      change Q (rule.complete site scalar) (rule.complete site' scalar)
      unfold StringRule.complete
      simp only
      rw [hself.1.2.matcher _ _ hctx, (hR _ _ h).nodeRange_eq]
      exact hQ.refl _
    | _ => exact hQ.refl _
  | list info items duplicates =>
    unfold resolveStructure
    simp only
    rw [hself.1.2.1 _ _ hctx]
    exact resolveItems_related hQ hv fun t ht => hparts t ⟨_, ht⟩
  | skillList info triggers =>
    refine .ok ?_
    cases n with
    | seq items start stop =>
      refine hQ.mergeAll (List.forall₂_map_left_iff.mpr (List.forall₂_map_right_iff.mpr ?_))
      exact List.forall₂_same.mpr fun scalar _ => skillLine_related hR hQ hskill h triggers scalar
    | _ => exact hQ.refl _
  | object info properties => exact resolveMap_related hR hQ h hself hparts hv
  | map info value describe => exact resolveMap_related hR hQ h hself hparts hv
  | _ => exact .ok (hQ.refl _)

theorem relatedVisits_resolveWithin (levels : Nat) :
    RelatedVisits R Q site site' (resolveWithin site levels) (resolveWithin site' levels) := by
  induction levels with
  | zero => exact fun _ _ _ => .ok (hQ.refl _)
  | succ levels ih =>
    intro s n hs
    refine (resolveStructure_related hR hQ hskill h hs.self.1 hs.allParts ih).bind
      fun _ _ hstructure => (hs.self.2 n).bind fun _ _ hreferences => ?_
    exact .ok (hQ.merge hstructure hreferences)

/-- **A schema that does not tell two sites apart resolves the references of a node in related
ways.** -/
theorem resolve_related (hs : All (ResolvesAlike R Q site site') s) (n : Node) :
    Except.Rel Q (s.resolve site n) (s.resolve site' n) :=
  relatedVisits_resolveWithin hR hQ hskill h _ s n hs

end References

end Schema

end PackLint
