import PackLint.Proofs.Tree.Height

/-!
# Nodes within nodes

The nodes within a node are the node itself, the items of its sequences and the values of its maps,
but no keys: a schema looks at no other nodes.

Results:
* `Node.DownClosed.value_of_mem_findPairs`: what holds of all nodes within a map holds of the values
  that are found for a dotted key.
-/

namespace PackLint

namespace Node

/-- `n.Within m`: the node `n` is `m` or stands inside of it. -/
inductive Within (n : Node) : Node → Prop
  | refl : Within n n
  | item {items : List Node} {start stop : Nat} {m : Node} (hm : m ∈ items) (h : Within n m) :
      Within n (seq items start stop)
  | value {pairs : List Pair} {start stop : Nat} {p : Pair} {m : Node} (hp : p ∈ pairs)
      (hm : p.value = some m) (h : Within n m) : Within n (map pairs start stop)

variable {n m k : Node}

theorem Within.trans (h : n.Within m) (h' : m.Within k) : n.Within k := by
  induction h' with
  | refl => exact h
  | item hm _ ih => exact .item hm ih
  | value hp hm _ ih => exact .value hp hm ih

/-- With a node the property holds of all nodes within it. -/
structure DownClosed (V : Node → Prop) : Prop where
  item {items : List Node} {start stop : Nat} : V (seq items start stop) → ∀ m ∈ items, V m
  value {pairs : List Pair} {start stop : Nat} : V (map pairs start stop) →
    ∀ p ∈ pairs, ∀ m ∈ p.value, V m

theorem downClosed_within (m : Node) : DownClosed fun n => n.Within m where
  item h _ hk := .trans (.item hk .refl) h
  value h _ hp _ hk := .trans (.value hp hk .refl) h

theorem downClosed_true : DownClosed fun _ => True where
  item _ _ _ := trivial
  value _ _ _ _ _ := trivial

namespace DownClosed

variable {V : Node → Prop} (hV : DownClosed V)

include hV

/-- What holds of all nodes within a map holds of the values that are found for a dotted key. -/
theorem value_of_mem_findPairs {pairs : List Pair} (h : ∀ p ∈ pairs, ∀ m ∈ p.value, V m)
    {key : String} {p : Pair} (hp : p ∈ findPairs pairs key) : ∀ m ∈ p.value, V m := by
  revert h
  refine findPairs_induction (P := fun pairs => (∀ p ∈ pairs, ∀ m ∈ p.value, V m) →
    ∀ m ∈ p.value, V m) (fun pairs hp h => h p hp) (fun pairs inner q hq hinner ih h => ih ?_) hp
  obtain ⟨n, hn, hpairs⟩ := Option.bind_eq_some_iff.mp hinner
  cases n with
  | map ps start stop =>
    cases hpairs
    exact hV.value (h q hq _ hn)
  | _ => cases hpairs

end DownClosed

end Node

end PackLint
