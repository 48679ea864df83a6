import PackLint.Proofs.Schema.Parts
import PackLint.Proofs.Schema.Outcome
import PackLint.Schema.Resolve

/-!
# Levels of a check

A check is given as many levels as the node is high, and more would change nothing: a schema looks
at nodes inside of a node only, and these are less high. The same goes for references.

Results:
* `Schema.checkStructure_congr`: the structure of a schema depends on the checks of the nodes inside
  of a node only.
* `Schema.checkWithin_eq_check`, `Schema.resolveWithin_eq_resolve`: a visit that is given enough
  levels is the visit of the node.
* `Schema.check_eq`, `Schema.resolve_eq`: so both can be unfolded without counting levels.
-/

namespace PackLint

namespace Schema

variable {visit visit' : Visit} {site : Site} {n : Node} {s : Schema}

theorem checkItems_congr {items : List Node} (h : ∀ t, ∀ m ∈ items, visit t m = visit' t m)
    (rule : ItemsOf Schema) :
    checkItems visit site n items rule = checkItems visit' site n items rule := by
  cases rule with
  | anything => rfl
  | each t => rw [checkItems, checkItems, Except.mapM_congr (h t)]
  | inOrder ts =>
    rw [checkItems, checkItems, Except.mapM_congr fun e he => h e.1 e.2 (List.of_mem_zip he).2]

theorem checkList_congr (h : ∀ t (m : Node), m.height < n.height → visit t m = visit' t m)
    (rule : ItemsOf Schema) (allowDuplicates : Bool) :
    checkList visit s rule allowDuplicates site n =
      checkList visit' s rule allowDuplicates site n := by
  cases n with
  | seq items start stop =>
    rw [checkList, checkList,
      checkItems_congr (fun t m hm => h t m (Node.height_item_lt hm start stop)) rule]
  | _ => rfl

theorem checkPair_congr {key : String} {p : Property} {pair : Pair}
    (h : ∀ t, ∀ m ∈ pair.value, visit t m = visit' t m) :
    checkPair visit site key p pair = checkPair visit' site key p pair := by
  unfold checkPair
  split
  · rfl
  · rename_i v hv
    simp only
    rw [h _ v hv]

theorem checkProperty_congr {pairs : List Pair} {key : String} {p : Property}
    (h : ∀ pair ∈ propertyPairs (.ofNode site n) key p pairs, ∀ t, ∀ m ∈ pair.value,
      visit t m = visit' t m) :
    checkProperty visit site n pairs key p = checkProperty visit' site n pairs key p := by
  unfold checkProperty
  simp only
  rw [Except.mapM_congr fun pair hp => checkPair_congr (h pair hp)]

theorem checkMap_congr (h : ∀ t (m : Node), m.height < n.height → visit t m = visit' t m) :
    s.checkMap visit site n = s.checkMap visit' site n := by
  cases n with
  | map pairs start stop =>
    have hproperty : ∀ e : String × Property,
        checkProperty visit site (.map pairs start stop) pairs e.1 e.2 =
          checkProperty visit' site (.map pairs start stop) pairs e.1 e.2 := fun e =>
      checkProperty_congr fun pair hp t m hm => h t m (height_value_of_mem_propertyPairs hp hm)
    unfold checkMap
    simp only [hproperty]
  | _ => rfl

/-- **The structure of a schema depends on the checks of the nodes inside of a node only.** -/
theorem checkStructure_congr
    (h : ∀ t (m : Node), m.height < n.height → visit t m = visit' t m) :
    checkStructure visit s site n = checkStructure visit' s site n := by
  cases s with
  | list info rule allowDuplicates => exact checkList_congr h _ _
  | skillList info triggers => exact checkList_congr h _ _
  | object info properties => exact checkMap_congr h
  | map info value describe => exact checkMap_congr h
  | _ => rfl

/-- **Enough levels are as good as more.** Each level looks at the nodes inside of a node with the
level below, and these are less high than the node. -/
theorem within_eq {within : Nat → Visit}
    (hstep : ∀ {k k' : Nat} {s : Schema} {n : Node},
      (∀ t (m : Node), m.height < n.height → within k t m = within k' t m) →
        within (k + 1) s n = within (k' + 1) s n)
    {levels levels' : Nat} (h : n.height < levels) (h' : n.height < levels') :
    within levels s n = within levels' s n := by
  induction levels generalizing s n levels' with
  | zero => exact absurd h (Nat.not_lt_zero _)
  | succ levels ih =>
    cases levels' with
    | zero => exact absurd h' (Nat.not_lt_zero _)
    | succ levels' => exact hstep fun t m hm => ih (by omega) (by omega)

theorem checkWithin_succ (site : Site) (levels : Nat) (s : Schema) (n : Node) :
    checkWithin site (levels + 1) s n = do
      let report ← checkStructure (checkWithin site levels) s site n
      return report ++ (← runChecks (s.info.localChecks (.ofNode site n)) site n) := rfl

/-- **A check that is given enough levels is the check of the node.** -/
theorem checkWithin_eq_check {levels : Nat} (h : n.height < levels) :
    checkWithin site levels s n = s.check site n := by
  refine within_eq (fun {k k' s n} hinside => ?_) h (Nat.lt_succ_self _)
  rw [checkWithin_succ, checkWithin_succ, checkStructure_congr hinside]

/-- **A check is that of the structure, with the checks of the nodes inside, and those that the
schema brings along.** -/
theorem check_eq (s : Schema) (site : Site) (n : Node) :
    s.check site n = do
      let report ← checkStructure (fun t m => t.check site m) s site n
      return report ++ (← runChecks (s.info.localChecks (.ofNode site n)) site n) := by
  have hstructure : checkStructure (checkWithin site n.height) s site n =
      checkStructure (fun t m => t.check site m) s site n :=
    checkStructure_congr fun t m hm => checkWithin_eq_check hm
  rw [check, checkWithin_succ, hstructure]

/-! ## References -/

theorem resolveItems_congr (h : ∀ t (m : Node), m.height < n.height → visit t m = visit' t m)
    (rule : ItemsOf Schema) : resolveItems visit rule n = resolveItems visit' rule n := by
  cases n with
  | seq items start stop =>
    have hitems : ∀ t, ∀ m ∈ items, visit t m = visit' t m := fun t m hm =>
      h t m (Node.height_item_lt hm start stop)
    cases rule with
    | anything => rfl
    | each t => rw [resolveItems, resolveItems, Except.mapM_congr (hitems t)]
    | inOrder ts =>
      rw [resolveItems, resolveItems,
        Except.mapM_congr fun e he => hitems e.1 e.2 (List.of_mem_zip he).2]
  | _ => rfl

theorem resolveProperty_congr {found : List Pair} {p : Property}
    (h : ∀ pair ∈ found, ∀ t, ∀ m ∈ pair.value, visit t m = visit' t m) :
    resolveProperty visit site found p = resolveProperty visit' site found p := by
  unfold resolveProperty
  rw [Except.mapM_congr fun pair hpair => ?_]
  split
  · rfl
  · rename_i v hv
    exact h pair hpair _ v hv

theorem resolveMap_congr (h : ∀ t (m : Node), m.height < n.height → visit t m = visit' t m) :
    s.resolveMap visit site n = s.resolveMap visit' site n := by
  cases n with
  | map pairs start stop =>
    have hproperty : ∀ e : String × Property,
        resolveProperty visit site (propertyPairs (.ofNode site (.map pairs start stop)) e.1 e.2
          pairs) e.2 =
        resolveProperty visit' site (propertyPairs (.ofNode site (.map pairs start stop)) e.1 e.2
          pairs) e.2 := fun e =>
      resolveProperty_congr fun pair hp t m hm => h t m (height_value_of_mem_propertyPairs hp hm)
    unfold resolveMap
    simp only [List.mapM_map, Function.comp_def, hproperty]
  | _ => rfl

theorem resolveStructure_congr
    (h : ∀ t (m : Node), m.height < n.height → visit t m = visit' t m) :
    resolveStructure visit s site n = resolveStructure visit' s site n := by
  cases s with
  | list info rule allowDuplicates => exact resolveItems_congr h _
  | object info properties => exact resolveMap_congr h
  | map info value describe => exact resolveMap_congr h
  | _ => rfl

theorem resolveWithin_succ (site : Site) (levels : Nat) (s : Schema) (n : Node) :
    resolveWithin site (levels + 1) s n = do
      let report ← resolveStructure (resolveWithin site levels) s site n
      return report ++ (← runChecks (s.info.referenceChecks (.ofNode site n)) site n) := rfl

/-- **References that are given enough levels are those of the node.** -/
theorem resolveWithin_eq_resolve {levels : Nat} (h : n.height < levels) :
    resolveWithin site levels s n = s.resolve site n := by
  refine within_eq (fun {k k' s n} hinside => ?_) h (Nat.lt_succ_self _)
  rw [resolveWithin_succ, resolveWithin_succ, resolveStructure_congr hinside]

/-- **References are those of the structure, with the references of the nodes inside, and those
that the schema brings along.** -/
theorem resolve_eq (s : Schema) (site : Site) (n : Node) :
    s.resolve site n = do
      let report ← resolveStructure (fun t m => t.resolve site m) s site n
      return report ++ (← runChecks (s.info.referenceChecks (.ofNode site n)) site n) := by
  have hstructure : resolveStructure (resolveWithin site n.height) s site n =
      resolveStructure (fun t m => t.resolve site m) s site n :=
    resolveStructure_congr fun t m hm => resolveWithin_eq_resolve hm
  rw [resolve, resolveWithin_succ, hstructure]

end Schema

end PackLint
