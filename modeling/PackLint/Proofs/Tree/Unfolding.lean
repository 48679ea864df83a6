import PackLint.Proofs.Schema.Outcome
import PackLint.Proofs.Tree.Within
import PackLint.Tree.Load
import Mathlib.Algebra.Order.BigOperators.Group.List
import Mathlib.Algebra.Order.Ring.Nat

/-!
# Trees that graphs unfold to

In the tree of a graph every alias is a copy. A graph that holds itself has no such tree, and one
that shares nodes has a tree that may be much larger than the graph. `Yaml.Graph.Unfolds` says which
tree a graph unfolds to, without counting anything; the conversion (`_convert`) counts nodes and
levels, and so comes to an end in any case. That nothing but the limits refuses a graph is said of
the algorithm: the interpreter's own limit on recursion is left out (`Yaml.Graph.convert`).

Results:
* `Yaml.Graph.counts_convert`: what is converted below a node, and how many nodes are counted.
* `Yaml.Graph.toNode_eq_ok_iff`: the tree of a graph is the one that it unfolds to, if this is
  within the limits.
* `Yaml.Graph.exists_unfolds_iff`: a graph unfolds exactly if no way down in it is endless.
* `Yaml.Graph.toNode_within_limits`: where all scalars decode, nothing but the limits refuses a
  graph.
* `Node.exists_unfolds_of_load`: a tree that is loaded is what some graph unfolds to, and so is all
  that stands within it.
-/

namespace PackLint

/-! ## The size of a tree -/

namespace Node

mutual

/-- The number of nodes of a tree, keys included. -/
def count : Node → Nat
  | scalar _ => 1
  | seq items _ _ => itemsCount items + 1
  | map pairs _ _ => pairsCount pairs + 1

/-- The number of nodes of trees. -/
def itemsCount : List Node → Nat
  | [] => 0
  | n :: ns => count n + itemsCount ns

/-- The number of nodes of the keys and values of pairs. -/
def pairsCount : List (KeyValue Node) → Nat
  | [] => 0
  | ⟨key, some value, _⟩ :: pairs => count key + count value + pairsCount pairs
  | ⟨key, none, _⟩ :: pairs => count key + pairsCount pairs

end

mutual

/-- How deep the deepest node of a tree lies below the root. -/
def depth : Node → Nat
  | scalar _ => 0
  | seq items _ _ => itemsDepth items
  | map pairs _ _ => pairsDepth pairs

/-- How deep the deepest node of trees lies below the sequence that holds them. -/
def itemsDepth : List Node → Nat
  | [] => 0
  | n :: ns => max (depth n + 1) (itemsDepth ns)

/-- How deep the deepest node of keys and values lies below the map that holds them. -/
def pairsDepth : List (KeyValue Node) → Nat
  | [] => 0
  | ⟨key, some value, _⟩ :: pairs =>
    max (depth key + 1) (max (depth value + 1) (pairsDepth pairs))
  | ⟨key, none, _⟩ :: pairs => max (depth key + 1) (pairsDepth pairs)

end

end Node

namespace KeyValue

/-- The number of nodes of a pair. -/
def count (p : Pair) : Nat := p.key.count + (p.value.map Node.count).getD 0

/-- The nodes of a pair lie less than so many levels below the pair. -/
def Shallow (levels : Nat) (p : Pair) : Prop :=
  p.key.depth < levels ∧ ∀ v ∈ p.value, v.depth < levels

end KeyValue

namespace Node

theorem itemsCount_eq (items : List Node) : itemsCount items = (items.map count).sum := by
  induction items with
  | nil => rfl
  | cons n items ih => rw [itemsCount, ih, List.map_cons, List.sum_cons]

theorem pairsCount_eq (pairs : List Pair) : pairsCount pairs = (pairs.map KeyValue.count).sum := by
  induction pairs with
  | nil => rfl
  | cons p pairs ih =>
    obtain ⟨key, value, comment⟩ := p
    rw [List.map_cons, List.sum_cons, ← ih]
    cases value with
    | none => rw [pairsCount]; rfl
    | some v => rw [pairsCount]; rfl

/-- A tree has a root. -/
theorem one_le_count (n : Node) : 1 ≤ n.count := by
  cases n with
  | scalar => exact Nat.le_refl 1
  | seq => exact Nat.le_add_left 1 _
  | map => exact Nat.le_add_left 1 _

theorem itemsDepth_le_iff {items : List Node} {levels : Nat} :
    itemsDepth items ≤ levels ↔ ∀ n ∈ items, n.depth < levels := by
  induction items with
  | nil => exact ⟨fun _ _ h => (nomatch h), fun _ => Nat.zero_le _⟩
  | cons n items ih =>
    rw [itemsDepth, List.forall_mem_cons, ← ih]
    omega

theorem pairsDepth_le_iff {pairs : List Pair} {levels : Nat} :
    pairsDepth pairs ≤ levels ↔ ∀ p ∈ pairs, p.Shallow levels := by
  induction pairs with
  | nil => exact ⟨fun _ _ h => (nomatch h), fun _ => Nat.zero_le _⟩
  | cons p pairs ih =>
    obtain ⟨key, value, comment⟩ := p
    rw [List.forall_mem_cons, ← ih]
    cases value with
    | none =>
      have hp : KeyValue.Shallow levels ⟨key, none, comment⟩ ↔ key.depth < levels := by
        simp [KeyValue.Shallow]
      rw [pairsDepth, hp]
      omega
    | some v =>
      have hp : KeyValue.Shallow levels ⟨key, some v, comment⟩ ↔
          key.depth < levels ∧ v.depth < levels := by
        simp [KeyValue.Shallow]
      rw [pairsDepth, hp]
      omega

end Node

/-! ## Counting on -/

section Counting

variable {α β : Type} {f : α → Nat → Except LoadError (β × Nat)} {P : α → β → Prop}
  {size : β → Nat} {limit : Int}

/-- The function yields what `P` says, and counts its size as long as the limit allows. -/
def Counts (f : α → Nat → Except LoadError (β × Nat)) (P : α → β → Prop) (size : β → Nat)
    (limit : Int) : Prop :=
  ∀ a count b total,
    f a count = .ok (b, total) ↔ P a b ∧ total = count + size b ∧ (total : Int) ≤ limit

/-- What counts its members counts a list of them. -/
theorem mapCounted_eq_ok_iff (hf : Counts f P size limit) {as : List α} {count : Nat}
    (hcount : (count : Int) ≤ limit) {bs : List β} {total : Nat} :
    mapCounted f as count = .ok (bs, total) ↔
      List.Forall₂ P as bs ∧ total = count + (bs.map size).sum ∧ (total : Int) ≤ limit := by
  induction as generalizing count bs total with
  | nil =>
    rw [mapCounted, List.forall₂_nil_left_iff]
    constructor
    · intro h
      cases h
      exact ⟨rfl, rfl, hcount⟩
    · rintro ⟨rfl, rfl, -⟩
      rfl
  | cons a as ih =>
    rw [mapCounted, Except.bind_eq_ok, List.forall₂_cons_left_iff]
    constructor
    · rintro ⟨⟨b, mid⟩, hb, h⟩
      obtain ⟨⟨bs, last⟩, hbs, h⟩ := Except.bind_eq_ok.mp h
      cases h
      obtain ⟨hP, rfl, hmid⟩ := (hf a count b mid).mp hb
      obtain ⟨hrest, htotal, hlimit⟩ := (ih hmid).mp hbs
      refine ⟨⟨b, bs, hP, hrest, rfl⟩, ?_, hlimit⟩
      rw [htotal, List.map_cons, List.sum_cons, Nat.add_assoc]
    · rintro ⟨⟨b, bs, hP, hrest, rfl⟩, htotal, hlimit⟩
      rw [List.map_cons, List.sum_cons, ← Nat.add_assoc] at htotal
      have hmid : ((count + size b : Nat) : Int) ≤ limit := by omega
      refine ⟨(b, count + size b), (hf a count b _).mpr ⟨hP, rfl, hmid⟩, ?_⟩
      exact Except.bind_eq_ok.mpr ⟨(bs, total), (ih hmid).mpr ⟨hrest, htotal, hlimit⟩, rfl⟩

theorem exists_forall₂ {R : α → β → Prop} {as : List α} (h : ∀ a ∈ as, ∃ b, R a b) :
    ∃ bs, List.Forall₂ R as bs := by
  induction as with
  | nil => exact ⟨[], .nil⟩
  | cons a as ih =>
    obtain ⟨⟨b, hb⟩, has⟩ := List.forall_mem_cons.mp h
    obtain ⟨bs, hbs⟩ := ih has
    exact ⟨b :: bs, .cons hb hbs⟩

theorem exists_of_forall₂_of_mem {R : α → β → Prop} {as : List α} {bs : List β}
    (h : List.Forall₂ R as bs) {a : α} (ha : a ∈ as) : ∃ b ∈ bs, R a b := by
  induction h with
  | nil => cases ha
  | cons hab _ ih =>
    rcases List.mem_cons.mp ha with rfl | ha
    · exact ⟨_, List.mem_cons_self, hab⟩
    · obtain ⟨b, hb, hR⟩ := ih ha
      exact ⟨b, List.mem_cons_of_mem _ hb, hR⟩

/-- What holds of the second members alone may be said of them apart. -/
theorem forall₂_and_right {R : α → β → Prop} {Q : β → Prop} {as : List α} {bs : List β} :
    List.Forall₂ (fun a b => R a b ∧ Q b) as bs ↔ List.Forall₂ R as bs ∧ ∀ b ∈ bs, Q b := by
  constructor
  · intro h
    induction h with
    | nil => exact ⟨.nil, fun _ hb => (nomatch hb)⟩
    | cons hab _ ih => exact ⟨.cons hab.1 ih.1, List.forall_mem_cons.mpr ⟨hab.2, ih.2⟩⟩
  · rintro ⟨h, hQ⟩
    induction h with
    | nil => exact .nil
    | cons hab _ ih =>
      obtain ⟨hb, hbs⟩ := List.forall_mem_cons.mp hQ
      exact .cons ⟨hab, hb⟩ (ih hbs)

/-- A list is refused for what one of its members is refused for. -/
theorem mapCounted_error {E : LoadError → Prop} (hf : ∀ a count e, f a count = .error e → E e)
    {as : List α} {count : Nat} {e : LoadError} (h : mapCounted f as count = .error e) : E e := by
  induction as generalizing count with
  | nil => cases h
  | cons a as ih =>
    rcases Except.bind_eq_error.mp h with h | ⟨⟨b, mid⟩, -, h⟩
    · exact hf a count e h
    · rcases Except.bind_eq_error.mp h with h | ⟨_, _, h⟩
      · exact ih h
      · cases h

end Counting

/-! ## Unfolding -/

/-- One of the limits on trees is the reason. -/
def LoadError.OfLimits (limits : Limits) (e : LoadError) : Prop :=
  e = .tooManyNodes limits.maxNodeCount ∨ e = .tooDeep limits.maxDepth

namespace Yaml.Graph

variable {g : Graph} {src : Source} {limits : Limits}

mutual

/-- The node with a number unfolds to a finite tree, in which every alias is a copy. -/
inductive Unfolds (g : Graph) (src : Source) : Nat → Node → Prop
  | scalar {number : Nat} {tag : ScalarTag} {text : List Char} {style : ScalarStyle}
      {start stop : Mark} {value : Value}
      (hnode : g.nodes.getD number default = ⟨.scalar tag text style, start, stop⟩)
      (hvalue : decodeScalar g.version tag text start = .ok value) :
      Unfolds g src number
        (.scalar ⟨value, String.ofList text, start.index, stop.index, style⟩)
  | sequence {number : Nat} {items : List Nat} {start stop : Mark} {ns : List Node}
      (hnode : g.nodes.getD number default = ⟨.sequence items, start, stop⟩)
      (hitems : List.Forall₂ (Unfolds g src) items ns) :
      Unfolds g src number (.seq ns start.index (src.trimStop start.index stop.index))
  | mapping {number : Nat} {kvs : List (Nat × Nat)} {start stop : Mark} {pairs : List Pair}
      (hnode : g.nodes.getD number default = ⟨.mapping kvs, start, stop⟩)
      (hpairs : List.Forall₂ (UnfoldsPair g src) kvs pairs) :
      Unfolds g src number (.map pairs start.index (src.trimStop start.index stop.index))

/-- The numbers of a key and a value unfold to a pair, which has no value if nothing is written. -/
inductive UnfoldsPair (g : Graph) (src : Source) : Nat × Nat → Pair → Prop
  | absent {k v : Nat} {key : Node} (hkey : Unfolds g src k key) (hvalue : g.isAbsent v = true) :
      UnfoldsPair g src (k, v)
        ⟨key, none, src.commentBefore (g.nodes.getD k default).start.index⟩
  | present {k v : Nat} {key value : Node} (hkey : Unfolds g src k key)
      (habsent : g.isAbsent v = false) (hvalue : Unfolds g src v value) :
      UnfoldsPair g src (k, v)
        ⟨key, some value, src.commentBefore (g.nodes.getD k default).start.index⟩

end

/-- The conversion of a pair, given that of a node. -/
def convertPair (g : Graph) (src : Source) (child : Nat → Nat → Except LoadError (Node × Nat))
    (kv : Nat × Nat) (count : Nat) : Except LoadError (Pair × Nat) := do
  let (key, count) ← child kv.1 count
  let comment := src.commentBefore (g.nodes.getD kv.1 default).start.index
  if g.isAbsent kv.2 then .ok (⟨key, none, comment⟩, count)
  else
    let (value, count) ← child kv.2 count
    .ok (⟨key, some value, comment⟩, count)

/-! ### Inversion -/

theorem unfolds_scalar_iff {number : Nat} {tag : ScalarTag} {text : List Char}
    {style : ScalarStyle} {start stop : Mark} {n : Node}
    (h : g.nodes.getD number default = ⟨.scalar tag text style, start, stop⟩) :
    Unfolds g src number n ↔ ∃ value, decodeScalar g.version tag text start = .ok value ∧
      n = .scalar ⟨value, String.ofList text, start.index, stop.index, style⟩ := by
  constructor
  · intro hn
    cases hn with
    | scalar hnode hvalue =>
      cases h.symm.trans hnode
      exact ⟨_, hvalue, rfl⟩
    | sequence hnode => cases h.symm.trans hnode
    | mapping hnode => cases h.symm.trans hnode
  · rintro ⟨value, hvalue, rfl⟩
    exact .scalar h hvalue

theorem unfolds_sequence_iff {number : Nat} {items : List Nat} {start stop : Mark} {n : Node}
    (h : g.nodes.getD number default = ⟨.sequence items, start, stop⟩) :
    Unfolds g src number n ↔ ∃ ns, List.Forall₂ (Unfolds g src) items ns ∧
      n = .seq ns start.index (src.trimStop start.index stop.index) := by
  constructor
  · intro hn
    cases hn with
    | scalar hnode => cases h.symm.trans hnode
    | sequence hnode hitems =>
      cases h.symm.trans hnode
      exact ⟨_, hitems, rfl⟩
    | mapping hnode => cases h.symm.trans hnode
  · rintro ⟨ns, hns, rfl⟩
    exact .sequence h hns

theorem unfolds_mapping_iff {number : Nat} {kvs : List (Nat × Nat)} {start stop : Mark} {n : Node}
    (h : g.nodes.getD number default = ⟨.mapping kvs, start, stop⟩) :
    Unfolds g src number n ↔ ∃ pairs, List.Forall₂ (UnfoldsPair g src) kvs pairs ∧
      n = .map pairs start.index (src.trimStop start.index stop.index) := by
  constructor
  · intro hn
    cases hn with
    | scalar hnode => cases h.symm.trans hnode
    | sequence hnode => cases h.symm.trans hnode
    | mapping hnode hpairs =>
      cases h.symm.trans hnode
      exact ⟨_, hpairs, rfl⟩
  · rintro ⟨pairs, hpairs, rfl⟩
    exact .mapping h hpairs

/-! ### Conversion -/

section Steps

variable {levels number count : Nat} {start stop : Mark}

theorem convert_of_lt (h : limits.maxNodeCount < (count + 1 : Nat)) :
    g.convert src limits levels number count = .error (.tooManyNodes limits.maxNodeCount) := by
  cases levels <;> exact if_pos h

theorem convert_zero (h : ((count + 1 : Nat) : Int) ≤ limits.maxNodeCount) :
    g.convert src limits 0 number count = .error (.tooDeep limits.maxDepth) := by
  rw [convert]
  exact if_neg (Int.not_lt.mpr h)

theorem convert_scalar {tag : ScalarTag} {text : List Char} {style : ScalarStyle}
    (hcount : ((count + 1 : Nat) : Int) ≤ limits.maxNodeCount)
    (hnode : g.nodes.getD number default = ⟨.scalar tag text style, start, stop⟩) :
    g.convert src limits (levels + 1) number count =
      match decodeScalar g.version tag text start with
      | .ok value =>
        .ok (.scalar ⟨value, String.ofList text, start.index, stop.index, style⟩, count + 1)
      | .error e => .error (.unreadable e) := by
  rw [convert, hnode]
  exact if_neg (Int.not_lt.mpr hcount)

theorem convert_sequence {items : List Nat}
    (hcount : ((count + 1 : Nat) : Int) ≤ limits.maxNodeCount)
    (hnode : g.nodes.getD number default = ⟨.sequence items, start, stop⟩) :
    g.convert src limits (levels + 1) number count =
      mapCounted (g.convert src limits levels) items (count + 1) >>= fun r =>
        .ok (.seq r.1 start.index (src.trimStop start.index stop.index), r.2) := by
  rw [convert, hnode]
  exact if_neg (Int.not_lt.mpr hcount)

theorem convert_mapping {kvs : List (Nat × Nat)}
    (hcount : ((count + 1 : Nat) : Int) ≤ limits.maxNodeCount)
    (hnode : g.nodes.getD number default = ⟨.mapping kvs, start, stop⟩) :
    g.convert src limits (levels + 1) number count =
      mapCounted (g.convertPair src (g.convert src limits levels)) kvs (count + 1) >>= fun r =>
        .ok (.map r.1 start.index (src.trimStop start.index stop.index), r.2) := by
  rw [convert, hnode]
  exact if_neg (Int.not_lt.mpr hcount)

end Steps

/-- The node with a number unfolds to a tree that has no more than so many levels. -/
def UnfoldsBelow (g : Graph) (src : Source) (levels number : Nat) (n : Node) : Prop :=
  g.Unfolds src number n ∧ n.depth < levels

/-- The conversion of a pair counts the key and the value. -/
theorem counts_convertPair {child : Nat → Nat → Except LoadError (Node × Nat)} {levels : Nat}
    (hchild : Counts child (g.UnfoldsBelow src levels) Node.count limits.maxNodeCount) :
    Counts (g.convertPair src child) (fun kv p => g.UnfoldsPair src kv p ∧ p.Shallow levels)
      KeyValue.count limits.maxNodeCount := by
  rintro ⟨k, v⟩ count p total
  rw [convertPair, Except.bind_eq_ok]
  constructor
  · rintro ⟨⟨key, mid⟩, hk, h⟩
    obtain ⟨⟨hkey, hdepth⟩, rfl, hmid⟩ := (hchild _ _ _ _).mp hk
    dsimp only at h
    split at h
    · cases h
      exact ⟨⟨.absent hkey ‹_›, hdepth, fun _ hv => (nomatch hv)⟩, rfl, hmid⟩
    · obtain ⟨⟨value, last⟩, hv, h⟩ := Except.bind_eq_ok.mp h
      obtain ⟨⟨hvalue, hbelow⟩, rfl, hlast⟩ := (hchild _ _ _ _).mp hv
      cases h
      refine ⟨⟨.present hkey (Bool.eq_false_iff.mpr ‹_›) hvalue, hdepth, ?_⟩, ?_, hlast⟩
      · rintro _ ⟨⟩
        exact hbelow
      · exact Nat.add_assoc _ _ _
  · rintro ⟨⟨hp, hdepth, hbelow⟩, rfl, hlimit⟩
    cases hp with
    | @absent _ _ key hkey hvalue =>
      refine ⟨(key, count + key.count), (hchild _ _ _ _).mpr ⟨⟨hkey, hdepth⟩, rfl, hlimit⟩, ?_⟩
      exact if_pos hvalue
    | @present _ _ key value hkey habsent hvalue =>
      have hlimit : ((count + key.count + value.count : Nat) : Int) ≤ limits.maxNodeCount := by
        rw [Nat.add_assoc]
        exact hlimit
      refine ⟨(key, count + key.count),
        (hchild _ _ _ _).mpr ⟨⟨hkey, hdepth⟩, rfl, by omega⟩, ?_⟩
      refine (if_neg (Bool.eq_false_iff.mp habsent)).trans (Except.bind_eq_ok.mpr ?_)
      refine ⟨(value, count + key.count + value.count),
        (hchild _ _ _ _).mpr ⟨⟨hvalue, hbelow _ rfl⟩, rfl, hlimit⟩, ?_⟩
      rw [Nat.add_assoc]
      rfl

/-- A collection is converted if its members are; it is one node more than these. -/
theorem counts_collection {α β : Type} {child : α → Nat → Except LoadError (β × Nat)}
    {R : α → β → Prop} {Q : β → Prop} {size : β → Nat} {limit : Int} {levels : Nat}
    (hchild : Counts child (fun a b => R a b ∧ Q b) size limit) (make : List β → Node)
    (hsize : ∀ bs, (make bs).count = (bs.map size).sum + 1)
    (hdepth : ∀ bs, (make bs).depth < levels + 1 ↔ ∀ b ∈ bs, Q b) {as : List α} {count : Nat}
    (hcount : ((count + 1 : Nat) : Int) ≤ limit) (n : Node) (total : Nat) :
    (mapCounted child as (count + 1) >>= fun r => .ok (make r.1, r.2)) = .ok (n, total) ↔
      ((∃ bs, List.Forall₂ R as bs ∧ n = make bs) ∧ n.depth < levels + 1) ∧
        total = count + n.count ∧ (total : Int) ≤ limit := by
  rw [Except.bind_eq_ok]
  constructor
  · rintro ⟨⟨bs, last⟩, hr, h⟩
    obtain ⟨hbs, hlast, hlimit⟩ := (mapCounted_eq_ok_iff hchild hcount).mp hr
    cases h
    obtain ⟨hrel, hall⟩ := forall₂_and_right.mp hbs
    refine ⟨⟨⟨bs, hrel, rfl⟩, (hdepth bs).mpr hall⟩, ?_, hlimit⟩
    rw [hlast, hsize, Nat.add_right_comm, Nat.add_assoc]
  · rintro ⟨⟨⟨bs, hrel, rfl⟩, hlt⟩, htotal, hlimit⟩
    rw [hsize] at htotal
    refine ⟨(bs, total), (mapCounted_eq_ok_iff hchild hcount).mpr ⟨?_, by omega, hlimit⟩, rfl⟩
    exact forall₂_and_right.mpr ⟨hrel, (hdepth bs).mp hlt⟩

/-- **What is converted below a node** is what it unfolds to, if this has no more levels than there
may be; all of its nodes are counted. -/
theorem counts_convert (levels : Nat) :
    Counts (g.convert src limits levels) (g.UnfoldsBelow src levels) Node.count
      limits.maxNodeCount := by
  induction levels with
  | zero =>
    refine fun number count n total =>
      ⟨fun h => ?_, fun ⟨⟨_, h⟩, _⟩ => absurd h (Nat.not_lt_zero _)⟩
    by_cases hcount : limits.maxNodeCount < (count + 1 : Nat)
    · rw [convert_of_lt hcount] at h
      cases h
    · rw [convert_zero (Int.not_lt.mp hcount)] at h
      cases h
  | succ levels ih =>
    intro number count n total
    by_cases hcount : limits.maxNodeCount < (count + 1 : Nat)
    · rw [convert_of_lt hcount]
      refine ⟨fun h => (nomatch h), fun ⟨_, htotal, h⟩ => ?_⟩
      have := n.one_le_count
      omega
    replace hcount := Int.not_lt.mp hcount
    obtain ⟨⟨node, start, stop⟩, hnode⟩ : ∃ x, g.nodes.getD number default = x := ⟨_, rfl⟩
    unfold UnfoldsBelow
    cases node with
    | scalar tag text style =>
      rw [convert_scalar hcount hnode, unfolds_scalar_iff hnode]
      constructor
      · intro h
        split at h
        · cases h
          exact ⟨⟨⟨_, ‹_›, rfl⟩, Nat.zero_lt_succ _⟩, rfl, hcount⟩
        · cases h
      · rintro ⟨⟨⟨value, hvalue, rfl⟩, -⟩, rfl, -⟩
        rw [hvalue]
        rfl
    | sequence items =>
      rw [convert_sequence hcount hnode, unfolds_sequence_iff hnode]
      refine counts_collection (R := g.Unfolds src) (Q := (·.depth < levels)) ih
        (fun ns => .seq ns start.index (src.trimStop start.index stop.index)) (fun ns => ?_)
        (fun ns => Nat.lt_succ_iff.trans Node.itemsDepth_le_iff) hcount n total
      rw [Node.count, Node.itemsCount_eq]
    | mapping kvs =>
      rw [convert_mapping hcount hnode, unfolds_mapping_iff hnode]
      refine counts_collection (counts_convertPair ih)
        (fun pairs => .map pairs start.index (src.trimStop start.index stop.index))
        (fun pairs => ?_) (fun pairs => Nat.lt_succ_iff.trans Node.pairsDepth_le_iff) hcount n total
      rw [Node.count, Node.pairsCount_eq]

/-- **The tree of a graph** is the one that the graph unfolds to, if it is within the limits. -/
theorem toNode_eq_ok_iff {n : Node} :
    g.toNode src limits = .ok n ↔ g.Unfolds src g.root n ∧
      (n.count : Int) ≤ limits.maxNodeCount ∧ (n.depth : Int) ≤ limits.maxDepth := by
  rw [toNode, Except.bind_eq_ok]
  constructor
  · rintro ⟨⟨root, total⟩, hroot, h⟩
    cases h
    obtain ⟨⟨hunfolds, hdepth⟩, rfl, hlimit⟩ := (counts_convert _ _ _ _ _).mp hroot
    exact ⟨hunfolds, by omega, by omega⟩
  · rintro ⟨hunfolds, hcount, hdepth⟩
    exact ⟨(n, 0 + n.count),
      (counts_convert _ _ _ _ _).mpr ⟨⟨hunfolds, by omega⟩, rfl, by omega⟩, rfl⟩

/-- A node unfolds to one tree at most: limits that both are within leave no choice. -/
theorem Unfolds.unique {number : Nat} {m n : Node} (hm : g.Unfolds src number m)
    (hn : g.Unfolds src number n) : m = n := by
  let limits : Limits := { maxNodeCount := m.count + n.count }
  have hconvert {k : Node} (hk : g.Unfolds src number k) (hcount : k.count ≤ m.count + n.count)
      (hdepth : k.depth < m.depth + n.depth + 1) :
      g.convert src limits (m.depth + n.depth + 1) number 0 = .ok (k, 0 + k.count) :=
    (counts_convert _ _ _ _ _).mpr ⟨⟨hk, hdepth⟩, rfl, by dsimp only [limits]; omega⟩
  have h := (hconvert hm (by omega) (by omega)).symm.trans (hconvert hn (by omega) (by omega))
  cases h
  rfl

/-! ### Graphs whose scalars decode -/

/-- All scalars of a graph decode. -/
def Decodes (g : Graph) : Prop :=
  ∀ x ∈ g.nodes, ∀ tag text style, x.node = .scalar tag text style →
    ∃ value, decodeScalar g.version tag text x.start = .ok value

/-- What stands at any number decodes: where the graph has no node, nothing is written. -/
theorem Decodes.getD (hg : g.Decodes) {number : Nat} {tag : ScalarTag} {text : List Char}
    {style : ScalarStyle} {start stop : Mark}
    (hnode : g.nodes.getD number default = ⟨.scalar tag text style, start, stop⟩) :
    ∃ value, decodeScalar g.version tag text start = .ok value := by
  rw [Array.getD_eq_getD_getElem?] at hnode
  cases hx : g.nodes[number]? with
  | none =>
    rw [hx] at hnode
    cases hnode
    exact ⟨.null, rfl⟩
  | some x =>
    rw [hx] at hnode
    cases hnode
    exact hg _ (Array.mem_of_getElem? hx) tag text style rfl

/-- A pair is refused for what its key or its value is refused for. -/
theorem convertPair_error {child : Nat → Nat → Except LoadError (Node × Nat)}
    {E : LoadError → Prop} (hchild : ∀ number count e, child number count = .error e → E e)
    {kv : Nat × Nat} {count : Nat} {e : LoadError}
    (h : g.convertPair src child kv count = .error e) : E e := by
  rcases Except.bind_eq_error.mp h with h | ⟨_, _, h⟩
  · exact hchild _ _ _ h
  · dsimp only at h
    split at h
    · cases h
    · rcases Except.bind_eq_error.mp h with h | ⟨_, _, h⟩
      · exact hchild _ _ _ h
      · cases h

/-- A scalar has no value, which is the reason. -/
def ScalarFails (g : Graph) (e : LoadError) : Prop :=
  ∃ number tag text style start stop e',
    g.nodes.getD number default = ⟨.scalar tag text style, start, stop⟩ ∧
      decodeScalar g.version tag text start = .error e' ∧ e = .unreadable e'

/-- A graph is refused for a limit or for a scalar. -/
theorem convert_refused {levels : Nat} : ∀ number count e,
    g.convert src limits levels number count = .error e → e.OfLimits limits ∨ g.ScalarFails e := by
  induction levels with
  | zero =>
    intro number count e h
    by_cases hcount : limits.maxNodeCount < (count + 1 : Nat)
    · rw [convert_of_lt hcount] at h
      cases h
      exact .inl (.inl rfl)
    · rw [convert_zero (Int.not_lt.mp hcount)] at h
      cases h
      exact .inl (.inr rfl)
  | succ levels ih =>
    intro number count e h
    by_cases hcount : limits.maxNodeCount < (count + 1 : Nat)
    · rw [convert_of_lt hcount] at h
      cases h
      exact .inl (.inl rfl)
    replace hcount := Int.not_lt.mp hcount
    obtain ⟨⟨node, start, stop⟩, hnode⟩ : ∃ x, g.nodes.getD number default = x := ⟨_, rfl⟩
    cases node with
    | scalar tag text style =>
      rw [convert_scalar hcount hnode] at h
      cases hvalue : decodeScalar g.version tag text start with
      | ok value =>
        rw [hvalue] at h
        cases h
      | error e' =>
        rw [hvalue] at h
        cases h
        exact .inr ⟨_, _, _, _, _, _, _, hnode, hvalue, rfl⟩
    | sequence items =>
      rw [convert_sequence hcount hnode] at h
      rcases Except.bind_eq_error.mp h with h | ⟨_, _, h⟩
      · exact mapCounted_error ih h
      · cases h
    | mapping kvs =>
      rw [convert_mapping hcount hnode] at h
      rcases Except.bind_eq_error.mp h with h | ⟨_, _, h⟩
      · exact mapCounted_error (fun _ _ _ => convertPair_error ih) h
      · cases h

/-- A graph whose scalars decode is refused for a limit only. -/
theorem convert_error (hg : g.Decodes) {levels : Nat} (number count : Nat) (e : LoadError)
    (h : g.convert src limits levels number count = .error e) : e.OfLimits limits := by
  refine (convert_refused number count e h).resolve_right ?_
  rintro ⟨_, tag, text, style, start, stop, e', hnode, hfails, -⟩
  obtain ⟨value, hvalue⟩ := hg.getD hnode
  rw [hvalue] at hfails
  cases hfails

/-! ### Which graphs unfold -/

/-- The nodes right below a node, without the values that are not written. -/
def children (g : Graph) (number : Nat) : List Nat :=
  match (g.nodes.getD number default).node with
  | .scalar _ _ _ => []
  | .sequence items => items
  | .mapping kvs => kvs.flatMap fun kv => if g.isAbsent kv.2 then [kv.1] else [kv.1, kv.2]

/-- What stands below a node that unfolds does so too, to a smaller tree. -/
theorem Unfolds.child {number below : Nat} {n : Node} (h : g.Unfolds src number n)
    (hbelow : below ∈ g.children number) : ∃ m, g.Unfolds src below m ∧ m.count < n.count := by
  unfold children at hbelow
  cases h with
  | scalar hnode =>
    rw [hnode] at hbelow
    cases hbelow
  | sequence hnode hitems =>
    rw [hnode] at hbelow
    obtain ⟨m, hm, hunfolds⟩ := exists_of_forall₂_of_mem hitems hbelow
    refine ⟨m, hunfolds, Nat.lt_succ_of_le ?_⟩
    rw [Node.itemsCount_eq]
    exact List.le_sum_of_mem (List.mem_map_of_mem hm)
  | mapping hnode hpairs =>
    rw [hnode] at hbelow
    obtain ⟨⟨k, v⟩, hkv, hbelow⟩ := List.mem_flatMap.mp hbelow
    obtain ⟨p, hp, hunfolds⟩ := exists_of_forall₂_of_mem hpairs hkv
    rw [Node.count, Node.pairsCount_eq]
    have hle := List.le_sum_of_mem (@List.mem_map_of_mem _ _ _ _ KeyValue.count hp)
    cases hunfolds with
    | @absent _ _ key hkey hvalue =>
      rw [if_pos hvalue, List.mem_singleton] at hbelow
      subst hbelow
      exact ⟨key, hkey, Nat.lt_succ_of_le ((Nat.le_add_right key.count _).trans hle)⟩
    | @present _ _ key value hkey habsent hvalue =>
      rw [if_neg (Bool.eq_false_iff.mp habsent)] at hbelow
      rcases List.mem_pair.mp hbelow with rfl | rfl
      · exact ⟨key, hkey, Nat.lt_succ_of_le ((Nat.le_add_right _ _).trans hle)⟩
      · exact ⟨value, hvalue, Nat.lt_succ_of_le ((Nat.le_add_left _ _).trans hle)⟩

/-- What stands within the tree that a node unfolds to is what another one unfolds to. -/
theorem Unfolds.exists_of_within {number : Nat} {n m : Node} (h : g.Unfolds src number n)
    (hm : m.Within n) : ∃ below, g.Unfolds src below m := by
  induction hm generalizing number with
  | refl => exact ⟨number, h⟩
  | item hitem _ ih =>
    cases h with
    | sequence _ hitems =>
      obtain ⟨_, -, hunfolds⟩ := exists_of_forall₂_of_mem hitems.flip hitem
      exact ih hunfolds
  | value hp hvalue _ ih =>
    cases h with
    | mapping _ hpairs =>
      obtain ⟨⟨k, v⟩, -, hpair⟩ := exists_of_forall₂_of_mem hpairs.flip hp
      cases hpair with
      | absent _ _ => cases hvalue
      | present _ _ hunfolds =>
        cases hvalue
        exact ih hunfolds

/-- **A graph unfolds exactly if no way down is endless.** -/
theorem exists_unfolds_iff (hg : g.Decodes) {number : Nat} :
    (∃ n, g.Unfolds src number n) ↔ Acc (fun below above => below ∈ g.children above) number := by
  constructor
  · rintro ⟨n, hn⟩
    induction hcount : n.count using Nat.strongRecOn generalizing number n with
    | ind count ih =>
      subst hcount
      refine ⟨number, fun below hbelow => ?_⟩
      obtain ⟨m, hm, hlt⟩ := hn.child hbelow
      exact ih m.count hlt m hm rfl
  · intro h
    induction h with
    | intro number _ ih =>
      obtain ⟨⟨node, start, stop⟩, hnode⟩ : ∃ x, g.nodes.getD number default = x := ⟨_, rfl⟩
      unfold children at ih
      rw [hnode] at ih
      cases node with
      | scalar tag text style =>
        obtain ⟨value, hvalue⟩ := hg.getD hnode
        exact ⟨_, .scalar hnode hvalue⟩
      | sequence items =>
        obtain ⟨ns, hns⟩ := exists_forall₂ ih
        exact ⟨_, .sequence hnode hns⟩
      | mapping kvs =>
        obtain ⟨pairs, hpairs⟩ : ∃ pairs, List.Forall₂ (g.UnfoldsPair src) kvs pairs := by
          refine exists_forall₂ fun ⟨k, v⟩ hkv => ?_
          by_cases hvalue : g.isAbsent v = true
          · obtain ⟨key, hkey⟩ := ih k (List.mem_flatMap.mpr ⟨(k, v), hkv, by simp [hvalue]⟩)
            exact ⟨_, .absent hkey hvalue⟩
          · obtain ⟨key, hkey⟩ := ih k (List.mem_flatMap.mpr ⟨(k, v), hkv, by simp [hvalue]⟩)
            obtain ⟨value, hunfolds⟩ :=
              ih v (List.mem_flatMap.mpr ⟨(k, v), hkv, by simp [hvalue]⟩)
            exact ⟨_, .present hkey (Bool.eq_false_iff.mpr hvalue) hunfolds⟩
        exact ⟨_, .mapping hnode hpairs⟩

/-! ### Limits -/

/-- **A graph has a tree exactly if what it unfolds to is finite and within the limits.** It is
refused for a limit otherwise, also if it holds itself. -/
theorem toNode_within_limits (g : Graph) (src : Source) (limits : Limits) (hg : g.Decodes) :
    (∀ n, g.toNode src limits = .ok n ↔ g.Unfolds src g.root n ∧
      (n.count : Int) ≤ limits.maxNodeCount ∧ (n.depth : Int) ≤ limits.maxDepth) ∧
    ((¬∃ n, g.Unfolds src g.root n ∧
        (n.count : Int) ≤ limits.maxNodeCount ∧ (n.depth : Int) ≤ limits.maxDepth) →
      g.toNode src limits = .error (.tooManyNodes limits.maxNodeCount) ∨
      g.toNode src limits = .error (.tooDeep limits.maxDepth)) := by
  refine ⟨fun n => toNode_eq_ok_iff, fun hnone => ?_⟩
  cases h : g.toNode src limits with
  | ok n => exact absurd ⟨n, toNode_eq_ok_iff.mp h⟩ hnone
  | error e =>
    rcases Except.bind_eq_error.mp h with h | ⟨_, _, h⟩
    · exact (convert_error hg _ _ _ h).imp (congrArg _) (congrArg _)
    · cases h

/-- A sequence that holds nothing but itself. -/
def endless : Graph := ⟨#[⟨.sequence [0], {}, { index := 7 }⟩], 0, .v1_2⟩

/-- It has no tree to be within any limits. -/
theorem toNode_endless :
    endless.Decodes ∧
      (endless.toNode (Source.ofString "&a [*a]") {} = .error (.tooManyNodes 50000) ∨
        endless.toNode (Source.ofString "&a [*a]") {} = .error (.tooDeep 64)) := by
  have hdecodes : endless.Decodes := by
    intro x hx tag text style hnode
    obtain rfl : x = ⟨.sequence [0], {}, { index := 7 }⟩ := by simpa [endless] using hx
    cases hnode
  refine ⟨hdecodes, (toNode_within_limits endless _ {} hdecodes).2 ?_⟩
  rintro ⟨n, hn, -⟩
  obtain ⟨m, hm, hlt⟩ := hn.child (List.mem_singleton.mpr rfl : 0 ∈ endless.children 0)
  cases hm.unique hn
  exact Nat.lt_irrefl _ hlt

end Yaml.Graph

/-! ## Trees that are loaded -/

/-- A tree that is loaded is converted from the root of the graph of its text. -/
theorem Node.load_eq_ok {limits : Limits} {src : Source} {n : Node}
    (h : load limits src = .ok (some n)) :
    ∃ g levels count, Yaml.Graph.ofText? src.toList = .ok (some g) ∧
      g.convert src limits levels g.root 0 = .ok (n, count) := by
  unfold load at h
  split at h
  · cases h
  · split at h
    · cases h
    · cases h
    · rename_i g hg
      cases htree : g.toNode src limits with
      | error e =>
        rw [htree] at h
        cases h
      | ok root =>
        rw [htree] at h
        cases h
        obtain ⟨⟨root, count⟩, hroot, hn⟩ := Except.bind_eq_ok.mp htree
        cases hn
        exact ⟨g, _, count, hg, hroot⟩

/-- What is loaded, and all that stands within it, is what nodes of the graph of its text unfold
to. -/
theorem Node.exists_unfolds_of_load {limits : Limits} {src : Source} {n m : Node}
    (h : load limits src = .ok (some n)) (hm : m.Within n) :
    ∃ g number, Yaml.Graph.ofText? src.toList = .ok (some g) ∧ g.Unfolds src number m := by
  obtain ⟨g, levels, count, hg, hconvert⟩ := load_eq_ok h
  obtain ⟨⟨hunfolds, -⟩, -⟩ := (g.counts_convert _ _ _ _ _).mp hconvert
  obtain ⟨number, hunfolds⟩ := hunfolds.exists_of_within hm
  exact ⟨g, number, hg, hunfolds⟩

end PackLint
