import PackLint.Proofs.Schema.Outcome
import PackLint.Proofs.Tree.Entry
import PackLint.Proofs.Tree.Unfolding
import PackLint.Proofs.Yaml.Graph
import PackLint.Tree.Load

/-!
# Trees of texts without aliases

Where no node is used twice the nodes of a tree stand in the text like those of the graph, so the
values of different entries have no text in common.

Results:
* `Node.entriesApart_load`: the entries of a map that is read from a text without aliases are apart.
-/

namespace PackLint

open Yaml

theorem Source.trimStop_bounds (src : Source) {start stop : Nat} (h : start ≤ stop) :
    start ≤ src.trimStop start stop ∧ src.trimStop start stop ≤ stop := by
  have hblanks : ((src.slice start stop).reverse.takeWhile isBlank).length ≤ stop - start := by
    refine Nat.le_trans (List.takeWhile_sublist _).length_le ?_
    rw [List.length_reverse, slice, Array.length_toList, Array.size_extract]
    omega
  unfold trimStop
  omega

/-- The node, and all nodes within it, stand between two indices. -/
def Node.Inside (lo hi : Nat) (n : Node) : Prop :=
  ∀ m : Node, m.Within n → lo ≤ m.start ∧ m.start ≤ m.stop ∧ m.stop ≤ hi

namespace Node.Inside

variable {lo lo' hi hi' start stop : Nat}

theorem mono {n : Node} (h : n.Inside lo hi) (hlo : lo' ≤ lo) (hhi : hi ≤ hi') :
    n.Inside lo' hi' := fun m hm =>
  ⟨Nat.le_trans hlo (h m hm).1, (h m hm).2.1, Nat.le_trans (h m hm).2.2 hhi⟩

theorem scalar {s : Scalar} (h : s.start ≤ s.stop) :
    (Node.scalar s).Inside s.start s.stop := by
  intro m hm
  cases hm
  exact ⟨Nat.le_refl _, h, Nat.le_refl _⟩

theorem seq {items : List Node} (hlo : lo ≤ start) (hle : start ≤ stop) (hhi : stop ≤ hi)
    (h : ∀ n ∈ items, n.Inside lo hi) : (Node.seq items start stop).Inside lo hi := by
  intro m hm
  cases hm with
  | refl => exact ⟨hlo, hle, hhi⟩
  | item hn hm => exact h _ hn m hm

theorem map {pairs : List Pair} (hlo : lo ≤ start) (hle : start ≤ stop) (hhi : stop ≤ hi)
    (h : ∀ p ∈ pairs, ∀ n ∈ p.value, n.Inside lo hi) :
    (Node.map pairs start stop).Inside lo hi := by
  intro m hm
  cases hm with
  | refl => exact ⟨hlo, hle, hhi⟩
  | value hp hn hm => exact h _ hp _ hn m hm

end Node.Inside

/-- An entry that ends before the others start. -/
theorem EntriesApart.cons {lo mid hi : Nat} {p : Pair} {pairs : List Pair}
    (h : EntriesApart mid pairs) (hlo : lo ≤ mid) (hp : ∀ v ∈ p.value, v.Inside (lo + 1) mid)
    (hpairs : ∀ q ∈ pairs, ∀ w ∈ q.value, w.Inside (mid + 1) hi) :
    EntriesApart lo (p :: pairs) where
  behind := List.forall_mem_cons.mpr ⟨fun v hv => (hp v hv v .refl).1,
    fun q hq w hw => Nat.lt_of_le_of_lt hlo (h.behind q hq w hw)⟩
  apart := by
    refine List.pairwise_cons.mpr ⟨fun q hq v hv w hw => ⟨fun n hn => ?_, fun n hn => ?_⟩, h.apart⟩
    · have := hp v hv n hn
      have := hpairs q hq w hw w .refl
      omega
    · have := hp v hv v .refl
      have := hpairs q hq w hw n hn
      omega

theorem mapCounted_cons_eq_ok {α β ε : Type} {f : α → Nat → Except ε (β × Nat)} {a : α}
    {as : List α} {count : Nat} {r : List β × Nat} (h : mapCounted f (a :: as) count = .ok r) :
    ∃ b bs, f a count = .ok b ∧ mapCounted f as b.2 = .ok bs ∧ r = (b.1 :: bs.1, bs.2) := by
  obtain ⟨b, hb, h⟩ := Except.bind_eq_ok.mp h
  obtain ⟨bs, hbs, h⟩ := Except.bind_eq_ok.mp h
  cases h
  exact ⟨b, bs, hb, hbs, rfl⟩

namespace Yaml.Graph

variable {g : Graph} {child : Nat → Nat → Except LoadError (Node × Nat)} {lo hi : Nat}

/-- What the numbers of placed nodes are converted to stands where these do. -/
def Converts (g : Graph) (child : Nat → Nat → Except LoadError (Node × Nat)) : Prop :=
  ∀ number count x r, g.nodes[number]? = some x →
    Placed (g.nodes[·]?) x.start.index x.stop.index x.node.children → child number count = .ok r →
    r.1.Inside x.start.index x.stop.index

variable (hchild : g.Converts child)

include hchild

theorem inside_items {items : List Nat} {count : Nat} {r : List Node × Nat}
    (h : Placed (g.nodes[·]?) lo hi (items.map fun n => (.item, n)))
    (hr : mapCounted child items count = .ok r) : ∀ n ∈ r.1, n.Inside lo hi := by
  induction items generalizing lo count r with
  | nil =>
    cases hr
    exact fun _ hn => nomatch hn
  | cons number items ih =>
    obtain ⟨b, bs, hb, hbs, rfl⟩ := mapCounted_cons_eq_ok hr
    cases h with
    | node hx hstart _ hinside hrest =>
      refine List.forall_mem_cons.mpr ⟨?_, fun n hn => ?_⟩
      · exact (hchild _ _ _ _ hx hinside hb).mono hstart hrest.le
      · exact (ih hrest hbs n hn).mono (Nat.le_trans hstart hinside.le) (Nat.le_refl _)

/-- What is converted of a pair: its key, and its value unless this is nothing. -/
def ConvertsPairs (g : Graph) (child : Nat → Nat → Except LoadError (Node × Nat))
    (pair : Nat × Nat → Nat → Except LoadError (Pair × Nat)) : Prop :=
  ∀ kv count r, pair kv count = .ok r → ∀ v ∈ r.1.value,
    g.isAbsent kv.2 = false ∧ ∃ count count', child kv.2 count = .ok (v, count')

omit hchild in
theorem isAbsent_of_nothing {number : Nat} {style : ScalarStyle} {start stop : Mark}
    (h : g.nodes[number]? = some ⟨.scalar .null [] style, start, stop⟩) :
    g.isAbsent number = true := by
  unfold isAbsent
  rw [h]

/-- The values of placed pairs stand one behind the other, behind the start of the first pair. -/
theorem apart_pairs {pair : Nat × Nat → Nat → Except LoadError (Pair × Nat)}
    (hpair : g.ConvertsPairs child pair) {pairs : List (Nat × Nat)} {count : Nat}
    {r : List Pair × Nat} (h : Placed (g.nodes[·]?) lo hi (GraphNode.mapping pairs).children)
    (hr : mapCounted pair pairs count = .ok r) :
    (∀ p ∈ r.1, ∀ v ∈ p.value, v.Inside (lo + 1) hi) ∧ EntriesApart lo r.1 := by
  induction pairs generalizing lo count r with
  | nil =>
    cases hr
    exact ⟨fun _ hp => (nomatch hp), fun _ hp => (nomatch hp), .nil⟩
  | cons kv pairs ih =>
    obtain ⟨b, bs, hb, hbs, rfl⟩ := mapCounted_cons_eq_ok hr
    obtain ⟨mid, hmid, hrest⟩ := Placed.behind_key h
    cases hrest with
    | nothing hx hrest =>
      obtain ⟨hinside, hapart⟩ := ih hrest hbs
      have hnone : ∀ v ∈ b.1.value, v.Inside (lo + 1) mid := fun v hv => by
        have hvalue := (hpair _ _ _ hb v hv).1
        rw [isAbsent_of_nothing hx] at hvalue
        cases hvalue
      refine ⟨List.forall_mem_cons.mpr ⟨fun v hv => ?_, fun q hq w hw => ?_⟩,
        hapart.cons hmid hnone hinside⟩
      · exact (hnone v hv).mono (Nat.le_refl _) hrest.le
      · exact (hinside q hq w hw).mono (Nat.succ_le_succ hmid) (Nat.le_refl _)
    | @node _ _ _ _ _ x hx _ hvalue hbelow hrest =>
      obtain ⟨hinside, hapart⟩ := ih hrest hbs
      have hlt : lo < x.start.index := Nat.lt_of_le_of_lt hmid (hvalue rfl)
      have hle : lo ≤ x.stop.index := Nat.le_trans (Nat.le_of_lt hlt) hbelow.le
      have hvalue : ∀ v ∈ b.1.value, v.Inside (lo + 1) x.stop.index := fun v hv => by
        obtain ⟨-, count, count', hv⟩ := hpair _ _ _ hb v hv
        exact (hchild _ _ _ _ hx hbelow hv).mono hlt (Nat.le_refl _)
      refine ⟨List.forall_mem_cons.mpr ⟨fun v hv => ?_, fun q hq w hw => ?_⟩,
        hapart.cons hle hvalue hinside⟩
      · exact (hvalue v hv).mono (Nat.le_refl _) hrest.le
      · exact (hinside q hq w hw).mono (Nat.succ_le_succ hle) (Nat.le_refl _)

omit hchild

variable {src : Source} {limits : Limits}

/-- What a node is converted to is of its kind and starts where it does. -/
theorem convert_eq_ok {levels number count : Nat} {x : PlacedNode} {r : Node × Nat}
    (hx : g.nodes[number]? = some x) (hr : g.convert src limits levels number count = .ok r) :
    ∃ below, levels = below + 1 ∧ match x.node with
      | .scalar _ text style => ∃ value,
        r.1 = .scalar ⟨value, String.ofList text, x.start.index, x.stop.index, style⟩
      | .sequence items => ∃ s, mapCounted (g.convert src limits below) items (count + 1) = .ok s ∧
        r.1 = .seq s.1 x.start.index (src.trimStop x.start.index x.stop.index)
      | .mapping pairs => ∃ pair s, g.ConvertsPairs (g.convert src limits below) pair ∧
        mapCounted pair pairs (count + 1) = .ok s ∧
        r.1 = .map s.1 x.start.index (src.trimStop x.start.index x.stop.index) := by
  have hget : g.nodes.getD number default = x := by
    rw [Array.getD_eq_getD_getElem?, hx]
    rfl
  cases levels with
  | zero =>
    unfold convert at hr
    simp only at hr
    split at hr <;> cases hr
  | succ levels =>
    unfold convert at hr
    rw [hget] at hr
    obtain ⟨node, start, stop⟩ := x
    simp only at hr
    split at hr
    · cases hr
    · refine ⟨levels, rfl, ?_⟩
      cases node with
      | scalar tag text style =>
        simp only at hr
        split at hr
        · cases hr
          exact ⟨_, rfl⟩
        · cases hr
      | sequence items =>
        obtain ⟨s, hs, hr⟩ := Except.bind_eq_ok.mp hr
        cases hr
        exact ⟨s, hs, rfl⟩
      | mapping pairs =>
        obtain ⟨s, hs, hr⟩ := Except.bind_eq_ok.mp hr
        cases hr
        refine ⟨_, s, fun kv count q hq v hv => ?_, hs, rfl⟩
        obtain ⟨key, -, hq⟩ := Except.bind_eq_ok.mp hq
        split at hq
        · cases hq
          cases hv
        · obtain ⟨value, hvalue, hq⟩ := Except.bind_eq_ok.mp hq
          cases hq
          cases hv
          exact ⟨Bool.eq_false_iff.mpr ‹_›, _, _, hvalue⟩

/-- A node that is converted stands where the node of the graph does. -/
theorem converts_convert (levels : Nat) : g.Converts (g.convert src limits levels) := by
  induction levels with
  | zero =>
    intro number count x r hx _ hr
    obtain ⟨below, hlevels, -⟩ := convert_eq_ok hx hr
    cases hlevels
  | succ levels ih =>
    rintro number count ⟨node, start, stop⟩ r hx hplaced hr
    obtain ⟨below, hlevels, hr⟩ := convert_eq_ok hx hr
    cases hlevels
    obtain ⟨hstart, hstop⟩ := src.trimStop_bounds hplaced.le
    cases node with
    | scalar tag text style =>
      obtain ⟨value, hvalue⟩ := hr
      rw [hvalue]
      exact .scalar hplaced.le
    | sequence items =>
      obtain ⟨s, hs, hseq⟩ := hr
      rw [hseq]
      exact .seq (Nat.le_refl _) hstart hstop (inside_items ih hplaced hs)
    | mapping pairs =>
      obtain ⟨pair, s, hpair, hs, hmap⟩ := hr
      rw [hmap]
      refine .map (Nat.le_refl _) hstart hstop fun p hp v hv => ?_
      exact ((apart_pairs ih hpair hplaced hs).1 p hp v hv).mono (Nat.le_succ _) (Nat.le_refl _)

end Yaml.Graph

/-- **The entries of a map that is read from a text without aliases are apart.** -/
theorem Node.entriesApart_load {limits : Limits} {src : Source} {pairs : List Pair}
    {start stop : Nat} (h : load limits src = .ok (some (.map pairs start stop)))
    (halias : AliasFree src.toList) :
    EntriesApart start pairs := by
  obtain ⟨g, levels, count, hg, hr⟩ := load_eq_ok h
  obtain ⟨lo, hi, hplaced⟩ := Graph.placed_root hg halias
  cases hplaced with
  | @node _ _ _ _ _ x hx _ _ hinside _ =>
    obtain ⟨node, first, last⟩ := x
    obtain ⟨below, -, hroot⟩ := Graph.convert_eq_ok hx hr
    cases node with
    | scalar =>
      obtain ⟨_, h⟩ := hroot
      cases h
    | sequence =>
      obtain ⟨_, _, h⟩ := hroot
      cases h
    | mapping kvs =>
      obtain ⟨pair, s, hpair, hs, h⟩ := hroot
      cases h
      exact (Graph.apart_pairs (Graph.converts_convert _) hpair hinside hs).2

end PackLint
