import PackLint.Proofs.Tree.Trail
import Mathlib.Data.List.Perm.Basic

/-!
# Chains of pairs

A pair in a tree of maps ends a chain: the pairs that lead to it, from the map on, and the pair
itself. A chain numbers its pairs, so that pairs that look the same but stand in different places
end different chains. `Chain.From` says what a chain is without any walk or search.

A dotted key can be cut in many ways, and the search for it (`find_pairs`) tries them all. Since the
numbers of a chain say which pairs it consists of, and their keys how the key is cut, no chain is
found twice. Keys are texts as they are read, where all halves of surrogate pairs are one character
(`Yaml.Scan.numericEscape`).

Results:
* `Node.mem_chains`: a walk over a map lists the chains from it.
* `findPairs_chains`: the search for a key finds the ends of the chains whose keys make up the key.
-/

namespace PackLint

/-- A pair, below the pairs that lead to it, the topmost first; each has its number among the pairs
of its map. -/
structure Chain where
  above : List (Nat × Pair)
  number : Nat
  pair : Pair

namespace Chain

/-- Where the chain ends: the numbers of its pairs. -/
def address (c : Chain) : List Nat := c.above.map Prod.fst ++ [c.number]

/-- The keys of the pairs, joined by dots. -/
def key (c : Chain) : String := dotted (c.above.map (·.2.keyText) ++ [c.pair.keyText])

/-- The chain with one more pair at its top. -/
def under (i : Nat) (p : Pair) (c : Chain) : Chain := { c with above := (i, p) :: c.above }

/-- The end of the chain without its numbers. -/
def toOccurrence (c : Chain) : Occurrence := ⟨c.key, c.pair⟩

/-- The chain starts at a pair of a map, and each pair but the last has a map as its value, of which
the next one is a pair. -/
inductive From : List Pair → Chain → Prop
  | single {pairs : List Pair} {i : Nat} {p : Pair} (hp : pairs[i]? = some p) :
      From pairs ⟨[], i, p⟩
  | step {pairs inner : List Pair} {i start stop : Nat} {p : Pair} {c : Chain}
      (hp : pairs[i]? = some p) (hv : p.value = some (.map inner start stop))
      (hc : From inner c) : From pairs (c.under i p)

/-- The chain ends at a scalar as key, and its keys make up a key. -/
def Holds (key : String) (c : Chain) : Prop := c.pair.key.isScalar ∧ c.key = key

instance (key : String) (c : Chain) : Decidable (c.Holds key) := instDecidableAnd

@[simp] theorem address_here (i : Nat) (p : Pair) : address ⟨[], i, p⟩ = [i] := rfl

@[simp] theorem address_under (i : Nat) (p : Pair) (c : Chain) :
    (c.under i p).address = i :: c.address := rfl

@[simp] theorem above_under (i : Nat) (p : Pair) (c : Chain) :
    (c.under i p).above = (i, p) :: c.above := rfl

theorem toOccurrence_under (i : Nat) (p : Pair) (c : Chain) :
    (c.under i p).toOccurrence = c.toOccurrence.below p.keyText := by
  have hkey : (c.under i p).key = p.keyText ++ "." ++ c.key := dotted_cons _ (by simp)
  unfold toOccurrence Occurrence.below
  rw [hkey]
  rfl

/-- A chain holds a key iff its end is named by it. -/
theorem named_toOccurrence (key : String) (c : Chain) :
    c.toOccurrence.Named [key] ↔ c.Holds key :=
  and_congr_right fun _ => List.mem_singleton

end Chain

/-! ## A walk over the chains -/

namespace Node

mutual

/-- The chains from a map, from top to bottom. -/
def chains : Node → List Chain
  | .map pairs _ _ => pairChains 0 pairs
  | _ => []

/-- The chains from a map that start at some of its pairs, which are numbered from `i` on. -/
def pairChains (i : Nat) : List (KeyValue Node) → List Chain
  | [] => []
  | ⟨key, value, comment⟩ :: ps =>
    let inside := match value with
      | some n => chains n
      | none => []
    ⟨[], i, ⟨key, value, comment⟩⟩ :: inside.map (.under i ⟨key, value, comment⟩) ++
      pairChains (i + 1) ps

end

/-- The chains from the map that is the value of a pair. -/
def chainsInside (p : Pair) : List Chain := (p.value.map chains).getD []

/-- The chains that start at a pair with a number. -/
def chainsAt (i : Nat) (p : Pair) : List Chain :=
  ⟨[], i, p⟩ :: (chainsInside p).map (.under i p)

variable {n : Node} {c : Chain} {pairs : List Pair} {start stop : Nat}

theorem pairChains_cons (i : Nat) (p : Pair) (ps : List Pair) :
    pairChains i (p :: ps) = chainsAt i p ++ pairChains (i + 1) ps := by
  obtain ⟨key, value, comment⟩ := p
  cases value <;> rw [pairChains] <;> rfl

theorem chains_of_not_map (h : n.isMap = false) : n.chains = [] := by
  cases n with
  | map pairs start stop => cases h
  | _ =>
    rw [chains]
    rintro _ _ _ ⟨⟩

/-- A chain starts at the pair that its first number says. -/
theorem mem_pairChains (i : Nat) (ps : List Pair) :
    c ∈ pairChains i ps ↔ ∃ j p, ps[j]? = some p ∧ c ∈ chainsAt (i + j) p := by
  induction ps generalizing i with
  | nil =>
    rw [pairChains]
    simp
  | cons q ps ih =>
    rw [pairChains_cons, List.mem_append, ih]
    constructor
    · rintro (h | ⟨j, p, hp, h⟩)
      · exact ⟨0, q, rfl, h⟩
      · exact ⟨j + 1, p, hp, by rwa [← Nat.add_assoc, Nat.add_right_comm]⟩
    · rintro ⟨j, p, hp, h⟩
      cases j with
      | zero =>
        cases hp
        exact .inl h
      | succ j => exact .inr ⟨j, p, hp, by rwa [Nat.add_right_comm, Nat.add_assoc]⟩

theorem mem_chains_map :
    c ∈ (Node.map pairs start stop).chains ↔ ∃ i p, pairs[i]? = some p ∧ c ∈ chainsAt i p := by
  rw [chains, mem_pairChains]
  simp only [Nat.zero_add]

/-- **A walk over a map lists the chains from it.** -/
theorem mem_chains : c ∈ (Node.map pairs start stop).chains ↔ c.From pairs := by
  constructor
  · generalize hn : Node.map pairs start stop = n
    induction n using Node.height_induction generalizing pairs start stop c with
    | step n ih =>
      subst hn
      intro hc
      obtain ⟨i, p, hp, hc⟩ := mem_chains_map.mp hc
      rcases List.mem_cons.mp hc with rfl | hc
      · exact .single hp
      · obtain ⟨inside, hinside, rfl⟩ := List.mem_map.mp hc
        unfold chainsInside at hinside
        rcases hv : p.value with _ | (scalar | ⟨items, s, t⟩ | ⟨inner, s, t⟩) <;>
          rw [hv] at hinside
        · cases hinside
        · rw [Option.map_some, Option.getD_some, chains_of_not_map rfl] at hinside
          cases hinside
        · rw [Option.map_some, Option.getD_some, chains_of_not_map rfl] at hinside
          cases hinside
        · have hlt := height_value_lt (List.mem_of_getElem? hp) hv start stop
          exact .step hp hv (ih _ hlt rfl hinside)
  · intro h
    induction h generalizing start stop with
    | single hp => exact mem_chains_map.mpr ⟨_, _, hp, List.mem_cons_self⟩
    | @step pairs inner i s t p c hp hv _ ih =>
      refine mem_chains_map.mpr ⟨i, p, hp, List.mem_cons_of_mem _ (List.mem_map.mpr ⟨c, ?_, rfl⟩)⟩
      unfold chainsInside
      rw [hv]
      exact @ih s t

theorem toOccurrence_chainsAt (i : Nat) {p : Pair}
    (hinside : (chainsInside p).map Chain.toOccurrence = p.inside) :
    (chainsAt i p).map Chain.toOccurrence = p.places := by
  have hunder : Chain.toOccurrence ∘ Chain.under i p = .below p.keyText ∘ Chain.toOccurrence :=
    funext fun c => Chain.toOccurrence_under i p c
  unfold chainsAt KeyValue.places
  rw [List.map_cons, List.map_map, hunder, ← hinside, List.map_map]
  rfl

/-- The ends of the chains are the places in the map. -/
theorem toOccurrence_chains (n : Node) : n.chains.map Chain.toOccurrence = n.occurrences := by
  induction n using Node.height_induction with
  | step n ih =>
    cases n with
    | scalar s => rw [chains_of_not_map rfl, occurrences_of_not_map rfl, List.map_nil]
    | seq items start stop => rw [chains_of_not_map rfl, occurrences_of_not_map rfl, List.map_nil]
    | map pairs start stop =>
      have hpair : ∀ p ∈ pairs, ∀ i, (chainsAt i p).map Chain.toOccurrence = p.places := by
        intro p hp i
        refine toOccurrence_chainsAt i ?_
        unfold chainsInside KeyValue.inside
        cases hv : p.value with
        | none => rfl
        | some m => exact ih m (height_value_lt hp hv start stop)
      rw [chains, occurrences]
      generalize 0 = i
      clear ih
      induction pairs generalizing i with
      | nil => rw [pairChains, pairOccurrences, List.map_nil]
      | cons p ps ih =>
        obtain ⟨hp, hps⟩ := List.forall_mem_cons.mp hpair
        rw [pairChains_cons, pairOccurrences_cons, List.map_append, hp, ih hps]

theorem nodup_chainsAt {i : Nat} {p : Pair}
    (h : ((chainsInside p).map Chain.address).Nodup) :
    ((chainsAt i p).map Chain.address).Nodup := by
  have hunder : Chain.address ∘ Chain.under i p = (i :: ·) ∘ Chain.address :=
    funext fun c => Chain.address_under i p c
  unfold chainsAt
  rw [List.map_cons, List.map_map, hunder, ← List.map_map, List.nodup_cons]
  refine ⟨fun hmem => ?_, h.map (List.cons_injective)⟩
  obtain ⟨a, ha, heq⟩ := List.mem_map.mp hmem
  obtain ⟨c, -, rfl⟩ := List.mem_map.mp ha
  exact absurd (List.cons_eq_cons.mp heq).2 (by simp [Chain.address])

/-- Chains that start at the same pair have its number. -/
theorem head_of_mem_chainsAt {i : Nat} {p : Pair} (h : c ∈ chainsAt i p) :
    ∃ rest, c.address = i :: rest := by
  rcases List.mem_cons.mp h with rfl | h
  · exact ⟨[], rfl⟩
  · obtain ⟨inside, -, rfl⟩ := List.mem_map.mp h
    exact ⟨_, Chain.address_under i p inside⟩

/-- No two chains end at the same place. -/
theorem nodup_chains (n : Node) : (n.chains.map Chain.address).Nodup := by
  induction n using Node.height_induction with
  | step n ih =>
    cases n with
    | scalar s =>
      rw [chains_of_not_map rfl]
      exact .nil
    | seq items start stop =>
      rw [chains_of_not_map rfl]
      exact .nil
    | map pairs start stop =>
      have hpair : ∀ p ∈ pairs, ((chainsInside p).map Chain.address).Nodup := by
        intro p hp
        unfold chainsInside
        cases hv : p.value with
        | none => exact .nil
        | some m => exact ih m (height_value_lt hp hv start stop)
      rw [chains]
      generalize 0 = i
      clear ih
      induction pairs generalizing i with
      | nil => rw [pairChains]; exact .nil
      | cons p ps ih =>
        obtain ⟨hp, hps⟩ := List.forall_mem_cons.mp hpair
        rw [pairChains_cons, List.map_append, List.nodup_append]
        refine ⟨nodup_chainsAt hp, ih hps (i + 1), fun a ha b hb heq => ?_⟩
        obtain ⟨c, hc, rfl⟩ := List.mem_map.mp ha
        obtain ⟨c', hc', rfl⟩ := List.mem_map.mp hb
        obtain ⟨j, q, -, hc'⟩ := (mem_pairChains _ _).mp hc'
        obtain ⟨_, hhead⟩ := head_of_mem_chainsAt hc
        obtain ⟨_, hhead'⟩ := head_of_mem_chainsAt hc'
        rw [hhead, hhead'] at heq
        have := (List.cons_eq_cons.mp heq).1
        omega

end Node

/-! ## The search -/

open Node

/-- The chains that hold a key with a single pair end at the pairs that have the key literally. -/
theorem pairsNamed_eq (pairs : List Pair) (start stop : Nat) (key : String) :
    pairsNamed pairs key = (((Node.map pairs start stop).chains.filter
      fun c => c.above = [] ∧ c.Holds key).map (·.pair)) := by
  have hat : ∀ i p, (chainsAt i p).filter (fun c => c.above = [] ∧ c.Holds key) =
      if p.key.isScalar && p.keyText = key then [⟨[], i, p⟩] else [] := by
    intro i p
    have hinside : ((chainsInside p).map (Chain.under i p)).filter
        (fun c => c.above = [] ∧ c.Holds key) = [] := by
      refine List.filter_eq_nil_iff.mpr fun c hc h => ?_
      obtain ⟨inside, -, rfl⟩ := List.mem_map.mp hc
      exact absurd (of_decide_eq_true h).1 (by simp)
    unfold chainsAt
    rw [List.filter_cons, hinside]
    by_cases h : p.key.isScalar ∧ p.keyText = key
    · rw [if_pos (decide_eq_true ⟨rfl, h⟩), if_pos (by simpa using h)]
    · rw [if_neg fun ht => h (of_decide_eq_true ht).2, if_neg (by simpa using h)]
  rw [chains]
  generalize 0 = i
  unfold pairsNamed
  induction pairs generalizing i with
  | nil => rw [pairChains]; rfl
  | cons p ps ih =>
    rw [pairChains_cons, List.filter_append, List.map_append, hat, List.filter_cons, ih (i + 1)]
    split <;> rfl

/-- A chain that holds a key is a single pair or has others above it. -/
theorem filter_holds_perm (cs : List Chain) (key : String) :
    (cs.filter (·.Holds key)).Perm (cs.filter (fun c => c.above = [] ∧ c.Holds key) ++
      cs.filter (fun c => c.above ≠ [] ∧ c.Holds key)) := by
  have hperm := List.filter_append_perm (fun c : Chain => c.above = []) (cs.filter (·.Holds key))
  rw [List.filter_filter, List.filter_filter] at hperm
  simpa only [Bool.decide_and, decide_not] using hperm.symm

/-- The other chains that hold the key end at the pairs that are found in maps below. -/
theorem pairsBelow_perm (pairs : List Pair) (start stop : Nat) (key : String) :
    (pairsBelow pairs [] (keySegments key)).Perm (((Node.map pairs start stop).chains.filter
      fun c => c.above ≠ [] ∧ c.Holds key).map (·.pair)) := by
  have hfound : (findPairs pairs key).Perm
      (((Node.map pairs start stop).chains.filter (·.Holds key)).map (·.pair)) := by
    refine (findPairs_perm pairs key).trans (.of_eq ?_)
    have hplaces := toOccurrence_chains (.map pairs start stop)
    rw [occurrences] at hplaces
    rw [pairsAt, placesNamed, ← hplaces, List.filter_map, List.map_map]
    refine congrArg (List.map _) (List.filter_congr fun c _ => decide_eq_decide.mpr ?_)
    exact Chain.named_toOccurrence key c
  have hall := hfound.trans ((filter_holds_perm _ key).map _)
  rw [List.map_append, ← pairsNamed_eq] at hall
  exact (List.perm_append_left_iff _).mp hall

/-- The key `A..B` has an empty segment: it is found as it stands, below `A` and an empty key, and
below `A.`. -/
example :
    let pair (key : String) (start : Nat) (value : Option Node) : Pair :=
      ⟨.scalar (.ofString key start start), value, none⟩
    let map (key : String) (p : Pair) : Pair := pair key 0 (some (.map [p] 0 0))
    (findPairs [map "A." (pair "B" 1 none), map "A" (map "" (pair "B" 2 none)),
      pair "A..B" 3 none] "A..B").map (·.start) = [3, 2, 1] := by decide

end PackLint
