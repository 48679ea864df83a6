import PackLint.Tree.KeyPath
import Mathlib.Tactic.SplitIfs

/-!
# Heights of trees

The items of a sequence and the values of a map are less high than the collection itself. So what is
shown of a node from the nodes inside of it holds of all nodes (`Node.height_induction`). The pairs
that are found for a dotted key stand in the map or in maps inside of it.

Results:
* `findPairs_induction`: a pair found for a dotted key stands in the map or in one below it.
* `height_value_of_mem_findPairs`: the values found for a key are less high than the map.
-/

namespace PackLint

namespace Node

theorem height_le_itemsHeight {items : List Node} {n : Node} (h : n ∈ items) :
    n.height ≤ itemsHeight items := by
  induction items with
  | nil => cases h
  | cons m items ih =>
    simp only [itemsHeight]
    rcases List.mem_cons.mp h with rfl | h
    · omega
    · have := ih h
      omega

theorem pairsHeight_cons (p : Pair) (pairs : List Pair) :
    pairsHeight (p :: pairs) =
      max p.key.height (max ((p.value.map height).getD 0) (pairsHeight pairs)) := by
  obtain ⟨key, value, comment⟩ := p
  cases value <;> simp [pairsHeight]

theorem height_value_le {pairs : List Pair} {p : Pair} {v : Node} (h : p ∈ pairs)
    (hv : p.value = some v) : v.height ≤ pairsHeight pairs := by
  induction pairs with
  | nil => cases h
  | cons q pairs ih =>
    rw [pairsHeight_cons]
    rcases List.mem_cons.mp h with rfl | h
    · rw [hv, Option.map_some, Option.getD_some]
      omega
    · have := ih h
      omega

theorem height_key_le {pairs : List Pair} {p : Pair} (h : p ∈ pairs) :
    p.key.height ≤ pairsHeight pairs := by
  induction pairs with
  | nil => cases h
  | cons q pairs ih =>
    rw [pairsHeight_cons]
    rcases List.mem_cons.mp h with rfl | h
    · omega
    · have := ih h
      omega

theorem height_item_lt {items : List Node} {n : Node} (h : n ∈ items) (start stop : Nat) :
    n.height < (seq items start stop).height := by
  simp only [height]
  exact Nat.lt_succ_of_le (height_le_itemsHeight h)

theorem height_value_lt {pairs : List Pair} {p : Pair} {v : Node} (h : p ∈ pairs)
    (hv : p.value = some v) (start stop : Nat) : v.height < (map pairs start stop).height := by
  simp only [height]
  exact Nat.lt_succ_of_le (height_value_le h hv)

/-- A map that is the value of a pair is less high than the map of the pair. -/
theorem height_inside_lt {pairs inner : List Pair} {p : Pair} (h : p ∈ pairs)
    (hinner : inner ∈ p.value.bind pairs?) : pairsHeight inner < pairsHeight pairs := by
  obtain ⟨n, hn, hpairs⟩ := Option.bind_eq_some_iff.mp hinner
  have hle := height_value_le h hn
  cases n with
  | map ps start stop =>
    cases hpairs
    exact hle
  | _ => cases hpairs

/-- **Induction on the height of a node.** -/
@[elab_as_elim]
theorem height_induction {P : Node → Prop} (n : Node)
    (step : ∀ n : Node, (∀ m : Node, m.height < n.height → P m) → P n) : P n := by
  induction hn : n.height using Nat.strongRecOn generalizing n with
  | ind k ih => exact step n fun m hm => ih m.height (hn ▸ hm) m rfl

end Node

/-! ## Dotted keys -/

section KeyPath

variable {pairs : List Pair} {p : Pair} {v : Node}

/-- **Induction on where a pair is found for a dotted key**: in the map, or in a map right below
it. -/
theorem findPairs_induction {P : List Pair → Prop} (here : ∀ pairs, p ∈ pairs → P pairs)
    (below : ∀ pairs inner : List Pair, ∀ q ∈ pairs, inner ∈ q.value.bind Node.pairs? → P inner →
      P pairs) {key : String} (h : p ∈ findPairs pairs key) : P pairs := by
  have hnamed : ∀ {pairs name}, p ∈ pairsNamed pairs name → P pairs := fun hp =>
    here _ (List.mem_filter.mp hp).1
  have hbelow : ∀ (segments : List (List Char)) (pairs : List Pair) (front : List Char),
      p ∈ pairsBelow pairs front segments → P pairs := by
    intro segments
    induction segments with
    | nil => exact fun pairs front hp => nomatch hp
    | cons s rest ih =>
      intro pairs front hp
      unfold pairsBelow at hp
      simp only at hp
      split at hp
      · cases hp
      · rcases List.mem_append.mp hp with hp | hp
        · obtain ⟨inner, hinner, hp⟩ := List.mem_flatMap.mp hp
          obtain ⟨q, hq, hinner⟩ := List.mem_filterMap.mp hinner
          split at hinner
          · exact below pairs inner q hq hinner ((List.mem_append.mp hp).elim hnamed (ih _ _))
          · cases hinner
        · exact ih _ _ hp
  exact (List.mem_append.mp h).elim hnamed (hbelow _ _ _)

/-- The values that are found for a key are less high than the map. -/
theorem height_value_of_mem_findPairs {key : String} (hp : p ∈ findPairs pairs key)
    (hv : p.value = some v) : v.height ≤ Node.pairsHeight pairs := by
  refine findPairs_induction (P := fun pairs => v.height ≤ Node.pairsHeight pairs)
    (fun pairs hp => Node.height_value_le hp hv) (fun pairs inner q hq hinner hle => ?_) hp
  exact Nat.le_trans hle (Nat.le_of_lt (Node.height_inside_lt hq hinner))

end KeyPath

end PackLint
