import PackLint.Proofs.Report.Reordered
import PackLint.Proofs.Schema.Levels
import PackLint.Proofs.Schema.Steady
import PackLint.Proofs.Schema.Sweep
import PackLint.Proofs.Tree.Within

/-!
# Looking at nodes from two sites

A node is looked at in the text of a document and under the settings of the workspace; what else is
known at the site matters only to the fields and the checks of a schema. So a check reports the
same at two sites with the same text and settings, if the schemas inside of the schema and the
checks that they bring along do not tell the sites apart where they look: at the node and at the
nodes within.

Results:
* `Schema.check_alike`: a schema that does not tell two sites apart at the nodes within a node
  checks this node alike at both.
-/

namespace PackLint

/-! ## Sites and contexts -/

/-- Two sites at which the same text is looked at under the same settings. -/
structure Site.SameText (site site' : Site) : Prop where
  settings : site.settings = site'.settings
  source : site.source = site'.source

variable {site site' : Site}

namespace Site.SameText

variable (h : site.SameText site')

include h

theorem nodeRange_eq (n : Node) : site.nodeRange n = site'.nodeRange n := by
  rw [nodeRange, nodeRange, h.source]

theorem nodeText_eq (n : Node) : site.nodeText n = site'.nodeText n := by
  rw [nodeText, nodeText, h.source]

theorem problem_eq (n : Node) (code : DiagnosticCode) (message : String) :
    site.problem n code message = site'.problem n code message := by
  rw [problem, problem, h.nodeRange_eq]

theorem highlight?_eq (n : Node) (color : Option TextClass) :
    site.highlight? n color = site'.highlight? n color := by
  cases color with
  | none => rfl
  | some color => rw [highlight?, highlight?, h.nodeRange_eq]

theorem suggestion?_eq (text : String) (candidates : List String) :
    site.suggestion? text candidates = site'.suggestion? text candidates :=
  suggestion?_congr h.settings text candidates

/-- A rule that does not tell two contexts apart reports the same on a scalar. -/
theorem stringCheck_eq {rule : StringRule} {info : SchemaInfo} (s : Scalar)
    (hmatcher : rule.matcher (.ofNode site (.scalar s)) = rule.matcher (.ofNode site' (.scalar s)))
    (hcase : rule.caseSensitive (.ofNode site (.scalar s)) =
      rule.caseSensitive (.ofNode site' (.scalar s)))
    (hname : info.name (.ofNode site (.scalar s)) = info.name (.ofNode site' (.scalar s))) :
    rule.check info site s = rule.check info site' s := by
  unfold StringRule.check
  simp only
  rw [mismatch?_congr (.ofNode site (.scalar s)) (.ofNode site' (.scalar s)) h.settings hmatcher
    hcase hname]
  split
  · exact h.problem_eq _ _ _
  · exact h.highlight?_eq _ _

/-- The same keys are unexpected. -/
theorem sweep_eq (n : Node) (names : List (List Char)) (front : List Char) :
    site.sweep names front n = site'.sweep names front n := by
  induction n using Node.height_induction generalizing names front with
  | step n ih =>
    cases n with
    | scalar scalar => rw [sweep_scalar, sweep_scalar]
    | seq items start stop => rw [sweep_seq, sweep_seq]
    | map pairs start stop =>
      rw [sweep_map, sweep_map]
      have hpairs : pairs.mapM (site.sweepPair names front) =
          pairs.mapM (site'.sweepPair names front) := by
        refine Except.mapM_congr fun p hp => ?_
        unfold sweepPair
        simp only
        split
        · rfl
        · split
          · split
            · rename_i hv
              exact ih _ (Node.height_value_lt hp hv start stop) _ _
            · unfold brokenStep
              split <;> rw [h.problem_eq]
          · unfold unexpectedKey
            simp only
            rw [h.suggestion?_eq, h.problem_eq]
      rw [hpairs]

end Site.SameText

/-- Two contexts in which the same node is looked at, at the one site and at the other. Only nodes
in `V` are looked at. -/
structure Context.AtSites (V : Node → Prop) (site site' : Site) (ctx ctx' : Context) : Prop where
  left : ctx.site = site
  right : ctx'.site = site'
  node : ctx.node = ctx'.node
  pair : ctx.pair = ctx'.pair
  mem : ∀ n ∈ ctx.node, V n

variable {V : Node → Prop}

theorem Context.atSites_ofNode {n : Node} (hn : V n) :
    AtSites V site site' (.ofNode site n) (.ofNode site' n) :=
  ⟨rfl, rfl, rfl, rfl, fun _ h => by cases h; exact hn⟩

theorem Context.atSites_ofPair {p : Pair} (hp : ∀ n ∈ p.value, V n) :
    AtSites V site site' (.ofPair site p) (.ofPair site' p) :=
  ⟨rfl, rfl, rfl, rfl, hp⟩

namespace Schema

/-- Nothing that the schema itself is made of tells related contexts apart. The checks that it
brings along may do so. -/
def BlindUnder (A : Context → Context → Prop) (s : Schema) : Prop :=
  s.SteadyUnder A ∧
    match s with
    | map _ _ describe => SameUnder A describe
    | _ => True

theorem BlindUnder.mono {A B : Context → Context → Prop} {s : Schema}
    (hAB : ∀ ctx ctx', A ctx ctx' → B ctx ctx') (h : s.BlindUnder B) : s.BlindUnder A := by
  refine ⟨h.1.mono hAB, ?_⟩
  cases s with
  | map info value describe => exact SameUnder.mono hAB h.2
  | _ => trivial

/-- No field of the schema tells related contexts apart. The nodes that are looked at may differ,
and with them the entries of a map. -/
def FieldsUnder (A : Context → Context → Prop) : Schema → Prop
  | map info value describe => SameUnder A info.name ∧ SameUnder A value ∧ SameUnder A describe
  | s => s.SteadyUnder A

theorem FieldsUnder.objectSteady {A : Context → Context → Prop} {s : Schema}
    (h : s.FieldsUnder A) : s.ObjectSteady A := by
  cases s with
  | object info properties => exact h.2
  | _ => trivial

/-- If no field tells contexts of the same node apart, then neither does the schema. -/
theorem FieldsUnder.blindUnder {A B : Context → Context → Prop} {s : Schema} (h : s.FieldsUnder B)
    (hAB : ∀ ctx ctx', A ctx ctx' → B ctx ctx')
    (hnode : ∀ ctx ctx' : Context, A ctx ctx' → ctx.node = ctx'.node)
    (hpair : ∀ ctx ctx' : Context, A ctx ctx' → ∀ pairs ∈ ctx.node.bind Node.pairs?, ∀ p ∈ pairs,
      B (.ofPair ctx.site p) (.ofPair ctx'.site p)) : s.BlindUnder A := by
  cases s with
  | map info value describe =>
    obtain ⟨hname, hvalue, hdescribe⟩ := h
    refine ⟨⟨hname.mono hAB, hvalue.mono hAB, fun ctx ctx' hctx => ?_⟩, hdescribe.mono hAB⟩
    simp only [properties]
    rw [hvalue ctx ctx' (hAB ctx ctx' hctx), ← hnode ctx ctx' hctx]
    split
    · rename_i pairs hpairs
      unfold entryProperties
      refine List.foldl_ext _ _ [] fun entries p hp => ?_
      rw [hdescribe _ _ (hpair ctx ctx' hctx pairs hpairs p hp)]
    · rfl
  | _ => exact ⟨SteadyUnder.mono hAB h, trivial⟩

/-- Neither the schema nor its local checks tell the sites apart at the nodes in `V`. -/
def LooksAlike (V : Node → Prop) (site site' : Site) (s : Schema) : Prop :=
  s.BlindUnder (Context.AtSites V site site') ∧
    ∀ n, V n → runChecks (s.info.localChecks (.ofNode site n)) site n =
      runChecks (s.info.localChecks (.ofNode site' n)) site' n

/-- The visits report the same wherever the schemas do not tell the sites apart. -/
def SameVisits (V : Node → Prop) (site site' : Site) (visit visit' : Visit) : Prop :=
  ∀ s n, All (LooksAlike V site site') s → V n → visit s n = visit' s n

variable {visit visit' : Visit} {s : Schema} {n : Node}

section Checks

variable (htext : site.SameText site') (hV : Node.DownClosed V)

include htext

/-! ## Single checks -/

section Node

variable (hs : All (BlindUnder (Context.AtSites V site site')) s) (hn : V n)

include hs hn

theorem wrongType_alike : s.wrongType site n = s.wrongType site' n := by
  unfold wrongType
  rw [typeName_steady (hs.imp fun _ h => h.1) (Context.atSites_ofNode hn), htext.problem_eq]

theorem checkBool_alike : s.checkBool site n = s.checkBool site' n := by
  unfold checkBool
  split
  · exact htext.highlight?_eq _ _
  · rw [htext.problem_eq, htext.nodeText_eq]
  · exact wrongType_alike htext hs hn

theorem checkNumber_alike {rule : NumberRule}
    (hrule : rule.SteadyUnder (Context.AtSites V site site')) :
    s.checkNumber rule site n = s.checkNumber rule site' n := by
  unfold checkNumber
  split
  · rw [violation?_steady hrule (Context.atSites_ofNode hn)]
    simp only [htext.problem_eq, htext.highlight?_eq]
  · rw [wrongType_alike htext hs hn]

theorem checkString_alike {rule : StringRule}
    (hrule : rule.SteadyUnder (Context.AtSites V site site')) :
    s.checkString rule site n = s.checkString rule site' n := by
  unfold checkString
  split
  · rename_i scalar
    have hctx : Context.AtSites V site site' (.ofNode site (.scalar scalar))
        (.ofNode site' (.scalar scalar)) := Context.atSites_ofNode hn
    exact htext.stringCheck_eq scalar (hrule.matcher _ _ hctx) (hrule.caseSensitive _ _ hctx)
      (hs.self.1.1 _ _ hctx)
  · exact wrongType_alike htext hs hn

end Node

theorem checkLength_alike (n : Node) (expected actual : Nat) :
    checkLength site n expected actual = checkLength site' n expected actual := by
  unfold checkLength
  split
  · rfl
  · simp only [htext.problem_eq]

theorem repeated_alike (earlier : List Value) (items : List Node) :
    repeated site earlier items = repeated site' earlier items := by
  induction items generalizing earlier with
  | nil => rfl
  | cons item items ih =>
    simp only [repeated]
    rw [ih, htext.problem_eq, htext.nodeText_eq]

/-! ## Nodes within nodes -/

variable (hv : SameVisits V site site' visit visit')

include hv

theorem checkItems_alike {items : List Node} (hitems : ∀ m ∈ items, V m) {rule : ItemsOf Schema}
    (hrule : ∀ t ∈ rule.schemas, All (LooksAlike V site site') t) (n : Node) :
    checkItems visit site n items rule = checkItems visit' site' n items rule := by
  cases rule with
  | anything => rfl
  | each t =>
    simp only [checkItems]
    rw [Except.mapM_congr fun item hitem =>
      hv t item (hrule t (List.mem_singleton_self t)) (hitems item hitem)]
  | inOrder ts =>
    have hzip : ((ts.zip items).mapM fun e => visit e.1 e.2) =
        (ts.zip items).mapM fun e => visit' e.1 e.2 :=
      Except.mapM_congr fun e he => hv e.1 e.2 (hrule e.1 (List.of_mem_zip he).1)
        (hitems e.2 (List.of_mem_zip he).2)
    simp only [checkItems]
    rw [hzip, checkLength_alike htext]

theorem checkPair_alike {p : Property} (hp : p.SteadyUnder (Context.AtSites V site site'))
    (hschema : ∀ ctx, All (LooksAlike V site site') (p.schema ctx)) (key : String) {pair : Pair}
    (hpair : ∀ n ∈ pair.value, V n) :
    checkPair visit site key p pair = checkPair visit' site' key p pair := by
  have hctx : Context.AtSites V site site' (.ofPair site pair) (.ofPair site' pair) :=
    Context.atSites_ofPair hpair
  have hblind := (hschema (.ofPair site pair)).imp fun _ h => h.1.1
  unfold checkPair
  split
  · rw [htext.problem_eq]
  · rename_i m hm
    simp only
    rw [← hp.schema _ _ hctx, hoverText_steady hp hblind hctx, htext.nodeRange_eq,
      hv _ _ (hschema _) (hpair m hm)]

include hV

theorem checkList_alike (hs : All (BlindUnder (Context.AtSites V site site')) s) (hn : V n)
    {rule : ItemsOf Schema} (hrule : ∀ t ∈ rule.schemas, All (LooksAlike V site site') t)
    (duplicates : Bool) :
    checkList visit s rule duplicates site n = checkList visit' s rule duplicates site' n := by
  unfold checkList
  split
  · rw [checkItems_alike htext hv (hV.item hn) hrule]
    unfold checkRepeated
    rw [repeated_alike htext]
  · rw [wrongType_alike htext hs hn]

section Map

variable {pairs : List Pair} {start stop : Nat} (hn : V (.map pairs start stop))

include hn

theorem checkProperty_alike {p : Property} (hp : p.SteadyUnder (Context.AtSites V site site'))
    (hschema : ∀ ctx, All (LooksAlike V site site') (p.schema ctx)) (key : String) :
    checkProperty visit site (.map pairs start stop) pairs key p =
      checkProperty visit' site' (.map pairs start stop) pairs key p := by
  have hctx : Context.AtSites V site site' (.ofNode site (.map pairs start stop))
      (.ofNode site' (.map pairs start stop)) := Context.atSites_ofNode hn
  have hfound : ∀ pair ∈ propertyPairs (.ofNode site' (.map pairs start stop)) key p pairs,
      ∀ n ∈ pair.value, V n := by
    intro pair hpair
    obtain ⟨name, -, hpair⟩ := List.mem_flatMap.mp hpair
    exact hV.value_of_mem_findPairs (hV.value hn) hpair
  unfold propertyPairs at hfound
  unfold checkProperty propertyPairs missingProperty
  simp only
  rw [names_eq (hp.aliases _ _ hctx), hp.required _ _ hctx,
    Except.mapM_congr fun pair hpair =>
      checkPair_alike htext hv hp hschema key (hfound pair hpair)]
  simp only [htext.problem_eq]

omit hv in
theorem entryHovers_alike (hs : All (BlindUnder (Context.AtSites V site site')) s) :
    s.entryHovers site (.map pairs start stop) pairs =
      s.entryHovers site' (.map pairs start stop) pairs := by
  cases s with
  | map info value describe =>
    have hself : (map info value describe).BlindUnder (Context.AtSites V site site') := hs.self
    obtain ⟨⟨-, hvalue, -⟩, hdescribe⟩ := hself
    have hpart := hs.part ⟨.ofNode site' (.map pairs start stop), rfl⟩
    simp only [entryHovers]
    rw [hvalue _ _ (Context.atSites_ofNode hn)]
    split
    · congr 1
      refine List.map_congr_left fun p hp => ?_
      have hpair := hV.value hn p (List.mem_of_mem_filter hp)
      rw [htext.nodeRange_eq, hoverText_steady ⟨sameUnder_const _, sameUnder_const _, hdescribe,
        sameUnder_const _⟩ (hpart.imp fun _ h => h.1) (Context.atSites_ofPair hpair)]
    · rfl
  | _ => rfl

end Map

section Structure

variable (hself : s.BlindUnder (Context.AtSites V site site'))
  (hparts : AllParts (LooksAlike V site site') s) (hn : V n)

include hself hparts hn

theorem checkMap_alike : s.checkMap visit site n = s.checkMap visit' site' n := by
  have hs : All (BlindUnder (Context.AtSites V site site')) s :=
    .intro hself fun t ht => (hparts t ht).imp fun _ h => h.1
  have hctx : Context.AtSites V site site' (.ofNode site n) (.ofNode site' n) :=
    Context.atSites_ofNode hn
  have hsteady : AllParts (SteadyUnder (Context.AtSites V site site')) s :=
    fun t ht => (hparts t ht).imp fun _ h => h.1.1
  unfold checkMap
  split
  · rename_i pairs start stop
    have hflat : ∀ e ∈ s.flatProperties (.ofNode site' (.map pairs start stop)),
        e.2.SteadyUnder (Context.AtSites V site site') :=
      fun e => steady_of_mem_flatProperties hself.1 hsteady
    have hproperties : ((s.flatProperties (.ofNode site' (.map pairs start stop))).mapM
          fun e => checkProperty visit site (.map pairs start stop) pairs e.1 e.2) =
        (s.flatProperties (.ofNode site' (.map pairs start stop))).mapM
          fun e => checkProperty visit' site' (.map pairs start stop) pairs e.1 e.2 :=
      Except.mapM_congr fun e he => checkProperty_alike htext hV hv hn (hflat e he)
        (all_of_mem_flatProperties hparts he) e.1
    simp only
    rw [flatProperties_steady hself.1 hsteady hctx, hproperties,
      propertyNames_eq fun e he => (hflat e he).aliases _ _ hctx, htext.sweep_eq,
      entryHovers_alike htext hV hn hs]
  · rw [wrongType_alike htext hs hn]

/-- The structure of a node is reported on alike at both sites if the schemas inside of the schema
do not tell them apart. -/
theorem checkStructure_alike :
    checkStructure visit s site n = checkStructure visit' s site' n := by
  have hs : All (BlindUnder (Context.AtSites V site site')) s :=
    .intro hself fun t ht => (hparts t ht).imp fun _ h => h.1
  have hctx : Context.AtSites V site site' (.ofNode site n) (.ofNode site' n) :=
    Context.atSites_ofNode hn
  cases s with
  | anything info => rfl
  | bool info => exact congrArg Except.ok (checkBool_alike htext hs hn)
  | number info rule => exact checkNumber_alike htext hs hn hself.1.2
  | string info rule => exact congrArg Except.ok (checkString_alike htext hs hn hself.1.2)
  | list info items duplicates =>
    simp only [checkStructure]
    rw [hself.1.2.1 _ _ hctx, hself.1.2.2 _ _ hctx]
    exact checkList_alike htext hV hv hs hn (fun t ht => hparts t ⟨_, ht⟩) _
  | skillList info triggers =>
    refine checkList_alike htext hV hv hs hn (fun t ht => hparts t ?_) true
    exact List.mem_singleton.mp ht
  | object info properties => exact checkMap_alike htext hV hv hself hparts hn
  | map info value describe => exact checkMap_alike htext hV hv hself hparts hn

end Structure

omit hv

include hV

/-! ## Checks -/

theorem sameVisits_checkWithin (levels : Nat) :
    SameVisits V site site' (checkWithin site levels) (checkWithin site' levels) := by
  induction levels with
  | zero => exact fun _ _ _ _ => rfl
  | succ levels ih =>
    intro s n hs hn
    simp only [checkWithin]
    rw [checkStructure_alike htext hV ih hs.self.1 hs.allParts hn, hs.self.2 n hn]

/-- **A schema that does not tell two sites apart at the nodes within a node checks this node alike
at both.** -/
theorem check_alike (hs : All (LooksAlike V site site') s) (hn : V n) :
    s.check site n = s.check site' n :=
  sameVisits_checkWithin htext hV _ s n hs hn

/-- What the schema itself brings along need be alike at the node only. -/
theorem check_of_parts (hself : s.BlindUnder (Context.AtSites V site site'))
    (hparts : AllParts (LooksAlike V site site') s) (hn : V n)
    (hchecks : runChecks (s.info.localChecks (.ofNode site n)) site n =
      runChecks (s.info.localChecks (.ofNode site' n)) site' n) :
    s.check site n = s.check site' n := by
  have hvisits : SameVisits V site site' (fun t m => t.check site m) fun t m => t.check site' m :=
    fun _ _ => check_alike htext hV
  rw [check_eq, check_eq, checkStructure_alike htext hV hvisits hself hparts hn, hchecks]

end Checks

end Schema

end PackLint
