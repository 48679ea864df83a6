import PackLint.Proofs.Yaml.Event
import PackLint.Yaml.Graph
import Mathlib.Logic.Function.Iterate

/-!
# Nodes stand in the order of the text

In a text without aliases each node of the graph is one stretch of the text: what is inside of it
stands between its start and its stop, one node behind the other, and the value of a pair behind
the start of the pair.

Results:
* `Composer.orderly_step`: an event puts one node behind the others, or opens or closes one.
* `Graph.placed_root`: the graph of a text without aliases is placed in this way.
-/

namespace PackLint.Yaml

/-! ## Aliases -/

/-- Whether an event is an alias. -/
def EventKind.isAlias : EventKind → Bool
  | aliasOf _ => true
  | _ => false

/-- No alias stands in the text. -/
def AliasFree (text : List Char) : Prop := ∀ e ∈ (Event.stream text).events, ¬ e.kind.isAlias

instance (text : List Char) : Decidable (AliasFree text) :=
  inferInstanceAs (Decidable (∀ e ∈ (Event.stream text).events, ¬ e.kind.isAlias))

/-! ## Placed nodes -/

/-- Nodes in the order in which a collection takes them that takes `f` first. -/
def Frame.label (f : Frame) : List Nat → List (Frame × Nat)
  | [] => []
  | n :: ns => (f, n) :: label f.next ns

/-- The nodes right below a node, with what they are to it. -/
def GraphNode.children : GraphNode → List (Frame × Nat)
  | scalar _ _ _ => []
  | sequence items => items.map fun n => (.item, n)
  | mapping pairs => pairs.flatMap fun kv => [(.key, kv.1), (.value, kv.2)]

/-- The nodes stand between two indices, one behind the other, with all that is below them. Where
keys stand does not matter. A value is nothing, or starts behind what comes before its key. -/
inductive Placed (node? : Nat → Option PlacedNode) : Nat → Nat → List (Frame × Nat) → Prop
  | nil {lo hi : Nat} (h : lo ≤ hi) : Placed node? lo hi []
  | key {lo mid hi n : Nat} {rest : List (Frame × Nat)} (hmid : lo ≤ mid)
      (hrest : Placed node? mid hi rest) : Placed node? lo hi ((.key, n) :: rest)
  | nothing {lo hi n : Nat} {rest : List (Frame × Nat)} {style : ScalarStyle} {start stop : Mark}
      (hnode : node? n = some ⟨.scalar .null [] style, start, stop⟩)
      (hrest : Placed node? lo hi rest) : Placed node? lo hi ((.value, n) :: rest)
  | node {lo hi n : Nat} {f : Frame} {rest : List (Frame × Nat)} {x : PlacedNode}
      (hnode : node? n = some x) (hstart : lo ≤ x.start.index)
      (hvalue : f = .value → lo < x.start.index)
      (hinside : Placed node? x.start.index x.stop.index x.node.children)
      (hrest : Placed node? x.stop.index hi rest) : Placed node? lo hi ((f, n) :: rest)

namespace Placed

variable {node? node?' : Nat → Option PlacedNode} {lo lo' hi hi' : Nat}
  {nodes nodes' : List (Frame × Nat)}

/-- Nodes keep their places where more nodes are known. -/
theorem mono (h : Placed node? lo hi nodes) (hnode : ∀ n x, node? n = some x → node?' n = some x) :
    Placed node?' lo hi nodes := by
  induction h with
  | nil h => exact .nil h
  | key hmid _ ih => exact .key hmid ih
  | nothing hn _ ih => exact .nothing (hnode _ _ hn) ih
  | node hn hstart hvalue _ _ ihinside ih => exact .node (hnode _ _ hn) hstart hvalue ihinside ih

theorem le (h : Placed node? lo hi nodes) : lo ≤ hi := by
  induction h with
  | nil h => exact h
  | key hmid _ ih => exact Nat.le_trans hmid ih
  | nothing _ _ ih => exact ih
  | node _ hstart _ _ _ ihinside ih => exact Nat.le_trans hstart (Nat.le_trans ihinside ih)

theorem of_le (h : Placed node? lo hi nodes) (hle : lo' ≤ lo) : Placed node? lo' hi nodes := by
  induction h with
  | nil h => exact .nil (Nat.le_trans hle h)
  | key hmid hrest => exact .key (Nat.le_trans hle hmid) hrest
  | nothing hn _ ih => exact .nothing hn (ih hle)
  | node hn hstart hvalue hinside hrest =>
    exact .node hn (Nat.le_trans hle hstart) (fun hf => Nat.lt_of_le_of_lt hle (hvalue hf)) hinside
      hrest

theorem append (h : Placed node? lo hi nodes) (h' : Placed node? hi hi' nodes') :
    Placed node? lo hi' (nodes ++ nodes') := by
  induction h with
  | nil hle => exact h'.of_le hle
  | key hmid _ ih => exact .key hmid (ih h')
  | nothing hn _ ih => exact .nothing hn (ih h')
  | node hn hstart hvalue hinside _ _ ih => exact .node hn hstart hvalue hinside (ih h')

theorem extend (h : Placed node? lo hi nodes) (hle : hi ≤ hi') : Placed node? lo hi' nodes := by
  simpa using h.append (.nil hle)

theorem behind_key {n : Nat} (h : Placed node? lo hi ((.key, n) :: nodes)) :
    ∃ mid, lo ≤ mid ∧ Placed node? mid hi nodes := by
  cases h with
  | key hmid hrest => exact ⟨_, hmid, hrest⟩
  | node _ hstart _ hinside hrest => exact ⟨_, Nat.le_trans hstart hinside.le, hrest⟩

end Placed

/-! ## Labels -/

theorem Frame.label_append (f : Frame) (ns : List Nat) (n : Nat) :
    f.label (ns ++ [n]) = f.label ns ++ [(Frame.next^[ns.length] f, n)] := by
  induction ns generalizing f with
  | nil => rfl
  | cons m ns ih =>
    change (f, m) :: f.next.label (ns ++ [n]) = _
    rw [ih]
    rfl

theorem Frame.label_item (ns : List Nat) : item.label ns = ns.map fun n => (.item, n) := by
  induction ns with
  | nil => rfl
  | cons n ns ih => exact congrArg _ ih

/-- A key without a value is left out. -/
theorem Placed.pairUp {node? : Nat → Option PlacedNode} {lo hi : Nat} {ns : List Nat}
    (h : Placed node? lo hi (Frame.key.label ns)) :
    Placed node? lo hi (GraphNode.mapping (Composer.pairUp ns)).children := by
  fun_induction Composer.pairUp ns generalizing lo with
  | case1 k v rest ih =>
    change Placed node? lo hi ((.key, k) :: (.value, v) :: Frame.key.label rest) at h
    change Placed node? lo hi
      ((.key, k) :: (.value, v) :: (GraphNode.mapping (Composer.pairUp rest)).children)
    obtain ⟨mid, hmid, hrest⟩ := h.behind_key
    refine .key hmid ?_
    cases hrest with
    | nothing hn hrest => exact .nothing hn (ih hrest)
    | node hn hstart hvalue hinside hrest => exact .node hn hstart hvalue hinside (ih hrest)
  | case2 ns hne => exact .nil h.le

/-! ## Composers -/

namespace OpenNode

/-- What the collection takes first. -/
def first (o : OpenNode) : Frame := if o.isMapping then .key else .item

/-- What the collection takes next. -/
def frame (o : OpenNode) : Frame := Frame.next^[o.children.length] o.first

/-- The nodes that the collection has taken. -/
def labelled (o : OpenNode) : List (Frame × Nat) := o.first.label o.children.reverse

variable (o : OpenNode) (n : Nat)

theorem frame_grow : frame { o with children := n :: o.children } = o.frame.next :=
  Function.iterate_succ_apply' Frame.next _ _

theorem labelled_grow :
    labelled { o with children := n :: o.children } = o.labelled ++ [(o.frame, n)] := by
  unfold labelled frame
  rw [List.reverse_cons, Frame.label_append, List.length_reverse]
  rfl

/-- The children of a collection that is over are those that it has taken. -/
theorem placed_children {o : OpenNode} {node? : Nat → Option PlacedNode} {lo hi : Nat}
    (h : Placed node? lo hi o.labelled) : Placed node? lo hi (GraphNode.children
      (if o.isMapping then .mapping (Composer.pairUp o.children.reverse)
        else .sequence o.children.reverse)) := by
  unfold labelled first at h
  split
  · rw [if_pos ‹_›] at h
    exact h.pairUp
  · rw [if_neg ‹_›, Frame.label_item] at h
    exact h

end OpenNode

namespace Composer

/-- The nodes of a composer that are over. -/
def node? (c : Composer) (n : Nat) : Option PlacedNode :=
  if n ∈ c.around.map OpenNode.number then none else c.nodes[n]?

/-- The collections are open, each inside of the next: their children stand behind their start and
in front of the next collection, the innermost up to an index. -/
def Around (node? all? : Nat → Option PlacedNode) : Nat → List OpenNode → Prop
  | _, [] => True
  | i, o :: outer => ∃ x before, all? o.number = some x ∧
      Placed node? x.start.index i o.labelled ∧ before ≤ x.start.index ∧
      (outer.head?.map OpenNode.frame = some .value → before < x.start.index) ∧
      Around node? all? before outer

/-- The nodes are placed up to an index, inside of the given frames. -/
structure Orderly (i : Nat) (frames : List Frame) (c : Composer) : Prop where
  frames : c.around.map OpenNode.frame = frames
  distinct : (c.around.map OpenNode.number).Nodup
  around : Around c.node? (c.nodes[·]?) i c.around
  root : ∀ n ∈ c.root, ∃ lo hi, Placed c.node? lo hi [(.item, n)]

variable {c : Composer} {i j : Nat} {frames : List Frame} {around : List OpenNode}
  {node? node?' all? all?' : Nat → Option PlacedNode}

theorem Around.mono (h : Around node? all? i around)
    (hnode : ∀ n x, node? n = some x → node?' n = some x)
    (hall : ∀ o ∈ around, ∀ x, all? o.number = some x → all?' o.number = some x) (hij : i ≤ j) :
    Around node?' all?' j around := by
  induction around generalizing i j with
  | nil => trivial
  | cons o outer ih =>
    obtain ⟨x, before, hx, hplaced, hbefore, hvalue, houter⟩ := h
    obtain ⟨ho, hrest⟩ := List.forall_mem_cons.mp hall
    exact ⟨x, before, ho x hx, (hplaced.mono hnode).extend hij, hbefore, hvalue,
      ih houter hrest (Nat.le_refl _)⟩

/-- Open collections are nodes. -/
theorem Around.number_lt {nodes : Array PlacedNode} (h : Around node? (nodes[·]?) i around) :
    ∀ o ∈ around, o.number < nodes.size := by
  induction around generalizing i with
  | nil => exact fun _ ho => nomatch ho
  | cons o outer ih =>
    obtain ⟨x, before, hx, -, -, -, houter⟩ := h
    exact List.forall_mem_cons.mpr ⟨(Array.getElem?_eq_some_iff.mp hx).1, ih houter⟩

theorem getElem?_push_of_some {nodes : Array PlacedNode} {n : Nat} {x : PlacedNode}
    (h : nodes[n]? = some x) (y : PlacedNode) : (nodes.push y)[n]? = some x := by
  rw [Array.getElem?_push, if_neg (Nat.ne_of_lt (Array.getElem?_eq_some_iff.mp h).1), h]

theorem node?_congr {c c' : Composer} (hnodes : c'.nodes = c.nodes)
    (hnumbers : c'.around.map OpenNode.number = c.around.map OpenNode.number) :
    c'.node? = c.node? := by
  funext n
  unfold Composer.node?
  rw [hnodes, hnumbers]

/-- The composer whose innermost collection is over, before the one around it takes it. -/
def ended (c : Composer) (number : Nat) (outer : List OpenNode) (node : GraphNode) (stop : Mark) :
    Composer :=
  { c with
    nodes := c.nodes.modify number fun n => { n with node, stop }
    around := outer }

section Ended

variable {o : OpenNode} {outer : List OpenNode} (hc : c.around = o :: outer)
  (ho : o.number ∉ outer.map OpenNode.number) (node : GraphNode) (stop : Mark)

include hc ho

theorem node?_ended (n : Nat) : (c.ended o.number outer node stop).node? n =
    if n = o.number then c.nodes[o.number]?.map fun x => { x with node, stop } else c.node? n := by
  unfold Composer.node? ended
  simp only
  rw [Array.getElem?_modify]
  by_cases hn : n = o.number
  · subst hn
    rw [if_neg ho, if_pos rfl, if_pos rfl]
  · rw [if_neg (Ne.symm hn), if_neg hn, hc]
    simp [hn]

theorem node?_ended_of_some (n : Nat) (x : PlacedNode) (hx : c.node? n = some x) :
    (c.ended o.number outer node stop).node? n = some x := by
  rw [node?_ended hc ho]
  split
  · rename_i hn
    unfold Composer.node? at hx
    rw [hn, hc, List.map_cons, if_pos List.mem_cons_self] at hx
    cases hx
  · exact hx

theorem Around.ended (h : Around c.node? (c.nodes[·]?) i outer) :
    Around (c.ended o.number outer node stop).node?
      ((c.ended o.number outer node stop).nodes[·]?) i outer := by
  refine h.mono (node?_ended_of_some hc ho node stop) (fun o' ho' x hx => ?_) (Nat.le_refl _)
  have hne : o'.number ≠ o.number := fun heq => ho (heq ▸ List.mem_map_of_mem ho')
  change (c.nodes.modify o.number _)[o'.number]? = some x
  rw [Array.getElem?_modify, if_neg (Ne.symm hne)]
  exact hx

end Ended

namespace Orderly

variable (h : c.Orderly i frames)

include h

theorem mono (hij : i ≤ j) : c.Orderly j frames :=
  { h with around := h.around.mono (fun _ _ hx => hx) (fun _ _ _ hx => hx) hij }

/-- The innermost collection takes the next node. -/
theorem attach {n : Nat} (hn : Placed c.node? i j [(frames.head?.getD .item, n)]) :
    (c.attach n).Orderly j (Frame.taken frames) := by
  obtain ⟨hframes, hdistinct, haround, hroot⟩ := h
  unfold Composer.attach
  split
  · rename_i o outer hc
    rw [hc] at hframes hdistinct haround
    subst hframes
    have hnode : node? { c with around := { o with children := n :: o.children } :: outer } =
        c.node? := node?_congr rfl (hc ▸ rfl)
    obtain ⟨x, before, hx, hplaced, hbefore, hvalue, houter⟩ := haround
    refine ⟨?_, hdistinct, ⟨x, before, hx, ?_, hbefore, hvalue, ?_⟩, hnode ▸ hroot⟩
    · rw [List.map_cons, OpenNode.frame_grow]
      rfl
    · rw [OpenNode.labelled_grow, hnode]
      exact hplaced.append hn
    · rw [hnode]
      exact houter
  · rename_i hc
    have hnode : node? { c with root := some n } = c.node? := rfl
    rw [hc] at hframes
    subst hframes
    refine ⟨congrArg (List.map OpenNode.frame) hc, hdistinct, ?_, fun m hm => ⟨i, j, ?_⟩⟩
    · change Around c.node? (c.nodes[·]?) j c.around
      rw [hc]
      trivial
    · cases hm
      exact hn

/-- A new node is over at once. -/
theorem add (anchor : Option String) (x : PlacedNode) :
    (c.add anchor x).Orderly i frames ∧ (c.add anchor x).node? c.nodes.size = some x := by
  obtain ⟨hframes, hdistinct, haround, hroot⟩ := h
  have hnode : ∀ m y, c.node? m = some y → (c.add anchor x).node? m = some y := by
    intro m y hy
    unfold Composer.node? at hy ⊢
    change (if m ∈ c.around.map OpenNode.number then none else (c.nodes.push x)[m]?) = some y
    split at hy
    · cases hy
    · rw [if_neg ‹_›]
      exact getElem?_push_of_some hy x
  refine ⟨⟨hframes, hdistinct, ?_, fun m hm => ?_⟩, ?_⟩
  · exact haround.mono hnode (fun _ _ _ hy => getElem?_push_of_some hy x) (Nat.le_refl _)
  · obtain ⟨lo, hi, hplaced⟩ := hroot m hm
    exact ⟨lo, hi, hplaced.mono hnode⟩
  · have hnew : c.nodes.size ∉ c.around.map OpenNode.number := by
      intro hmem
      obtain ⟨o, ho, hsize⟩ := List.mem_map.mp hmem
      exact Nat.lt_irrefl _ (hsize ▸ haround.number_lt o ho)
    unfold Composer.node?
    change (if c.nodes.size ∈ c.around.map OpenNode.number then none
      else (c.nodes.push x)[c.nodes.size]?) = some x
    rw [if_neg hnew]
    exact Array.getElem?_push_size

/-- A collection is open until its end. -/
theorem openNode (anchor : Option String) (isMapping : Bool) {start stop : Mark}
    (hstart : i ≤ start.index) (hvalue : frames.head? = some .value → i < start.index) :
    (c.openNode anchor isMapping start stop).Orderly start.index
      ((if isMapping then Frame.key else .item) :: frames) := by
  obtain ⟨hframes, hdistinct, haround, hroot⟩ := h
  have hlt := haround.number_lt
  have hnode : ∀ m y, c.node? m = some y →
      (c.openNode anchor isMapping start stop).node? m = some y := by
    intro m y hy
    unfold Composer.node? at hy ⊢
    change (if m ∈ c.nodes.size :: c.around.map OpenNode.number then none
      else (c.nodes.push ⟨.sequence [], start, stop⟩)[m]?) = some y
    split at hy
    · cases hy
    · rename_i hopen
      have hne : m ≠ c.nodes.size := Nat.ne_of_lt (Array.getElem?_eq_some_iff.mp hy).1
      rw [if_neg fun hmem => (List.mem_cons.mp hmem).elim hne hopen]
      exact getElem?_push_of_some hy _
  refine ⟨?_, ?_, ?_, fun m hm => ?_⟩
  · change (if isMapping then Frame.key else .item) :: c.around.map OpenNode.frame = _
    rw [hframes]
  · refine List.nodup_cons.mpr ⟨fun hmem => ?_, hdistinct⟩
    obtain ⟨o, ho, hsize⟩ := List.mem_map.mp hmem
    exact Nat.lt_irrefl _ (hsize ▸ hlt o ho)
  · refine ⟨⟨.sequence [], start, stop⟩, i, Array.getElem?_push_size, .nil (Nat.le_refl _), hstart,
      fun hv => hvalue ?_, ?_⟩
    · rw [← hframes, List.head?_map]
      exact hv
    · exact haround.mono hnode (fun _ _ _ hx => getElem?_push_of_some hx _) (Nat.le_refl _)
  · obtain ⟨lo, hi, hplaced⟩ := hroot m hm
    exact ⟨lo, hi, hplaced.mono hnode⟩

/-- The end of a collection is taken by the one around it. -/
theorem closeNode {stop : Mark} (hstop : i ≤ stop.index) :
    (c.closeNode stop).Orderly stop.index (Frame.taken frames.tail) := by
  have hframes := h.frames
  unfold Composer.closeNode
  split
  · rename_i hc
    rw [hc] at hframes
    subst hframes
    exact h.mono hstop
  · rename_i o outer hc
    obtain ⟨-, hdistinct, haround, hroot⟩ := h
    rw [hc] at hframes hdistinct haround
    subst hframes
    obtain ⟨hopen, hdistinct⟩ := List.nodup_cons.mp hdistinct
    obtain ⟨x, before, hx, hplaced, hbefore, hvalue, houter⟩ := haround
    refine attach (c := c.ended o.number outer _ stop) ⟨rfl, hdistinct,
      houter.ended hc hopen _ stop, fun n hn => ?_⟩ (.node (x := { x with node := _, stop }) ?_
        hbefore (fun hv => hvalue ?_) (((OpenNode.placed_children hplaced).mono ?_).extend hstop)
        (.nil (Nat.le_refl _)))
    · obtain ⟨lo, hi, hplaced⟩ := hroot n hn
      exact ⟨lo, hi, hplaced.mono (node?_ended_of_some hc hopen _ stop)⟩
    · rw [node?_ended hc hopen, if_pos rfl, show c.nodes[o.number]? = some x from hx]
      rfl
    · cases outer with
      | nil => cases hv
      | cons o' outer => exact congrArg some hv
    · exact node?_ended_of_some hc hopen _ stop

end Orderly

/-- What is written as nothing is null. -/
theorem ensures_scalarTag_nothing (version : Version) :
    Ensures (scalarTag version none true []) fun tag => tag = .null := by
  have h11 : ScalarTag.ofText? .v1_1 [] = some .null := by decide
  have h12 : ScalarTag.ofText? .v1_2 [] = some .null := by decide
  unfold scalarTag
  rw [if_pos rfl]
  by_cases hold : version = .v1_1
  · rw [hold, h11]
    exact .pure rfl
  · by_cases hnew : version = .v1_2
    · rw [hnew, h12]
      exact .pure rfl
    · have hnone : ScalarTag.ofText? version [] = none := if_pos ⟨hold, hnew⟩
      rw [hnone]
      exact .throw _

/-- A scalar is the next node of the collection around it. -/
theorem Orderly.scalar {e : Event} {anchor tag : Option String} {decided : Bool} {text : List Char}
    {style : ScalarStyle} (h : c.Orderly i frames) (he : e.Between i j frames) (hij : i ≤ j)
    (hkind : e.kind = .scalar anchor tag decided text style) :
    Ensures (scalarTag e.version tag decided text) fun t =>
      ((c.add anchor ⟨.scalar t text style, e.start, e.stop⟩).attach c.nodes.size).Orderly j
        (Frame.taken frames) := by
  rcases he with ⟨hplace, hnothing⟩ | ⟨hi, hle, hj, hvalue⟩
  · obtain ⟨rfl, rfl, rfl, rfl, rfl⟩ : none = anchor ∧ none = tag ∧ true = decided ∧ [] = text ∧
        ScalarStyle.plain = style := by
      unfold Event.IsNothing at hnothing
      rw [hkind] at hnothing
      cases hnothing
      exact ⟨rfl, rfl, rfl, rfl, rfl⟩
    refine (ensures_scalarTag_nothing _).imp fun t ht => ?_
    subst ht
    obtain ⟨hadd, hnode⟩ := h.add none ⟨.scalar .null [] .plain, e.start, e.stop⟩
    refine hadd.attach ?_
    rcases hplace with hplace | hplace
    · rw [hplace]
      exact .key hij (.nil (Nat.le_refl _))
    · rw [hplace]
      exact .nothing hnode (.nil hij)
  · refine fun t _ => ?_
    have hreach : e.reach = e.stop.index := by
      unfold Event.reach
      rw [hkind]
    rw [hreach] at hle hj
    obtain ⟨hadd, hnode⟩ := h.add anchor ⟨.scalar t text style, e.start, e.stop⟩
    refine hadd.attach (.node hnode hi (fun hv => hvalue ?_) (.nil hle) (.nil hj))
    cases hhead : frames.head? with
    | none => rw [hhead] at hv; cases hv
    | some f => rw [hhead] at hv; exact congrArg some hv

/-- **An event puts one node behind the others, or opens or closes one.** -/
theorem orderly_step {e : Event} (h : c.Orderly i frames) (he : e.Between i j frames) (hij : i ≤ j)
    (halias : ¬ e.kind.isAlias) :
    Ensures (c.step e) (Orderly j (e.kind.framesBehind frames)) := by
  unfold Composer.step
  cases hkind : e.kind with
  | aliasOf name =>
    rw [hkind] at halias
    exact absurd rfl halias
  | documentStart => exact .guard (.pure { h.mono hij with })
  | documentEnd => exact .pure (h.mono hij)
  | streamEnd => exact .pure (h.mono hij)
  | scalar anchor tag decided text style =>
    exact (h.scalar he hij hkind).bind fun _ h => .pure h
  | sequenceStart anchor =>
    obtain ⟨hi, hj, hvalue⟩ := he.of_start (.inl hkind)
    exact .pure ((h.openNode anchor false hi hvalue).mono hj)
  | mappingStart anchor =>
    obtain ⟨hi, hj, hvalue⟩ := he.of_start (.inr hkind)
    exact .pure ((h.openNode anchor true hi hvalue).mono hj)
  | sequenceEnd =>
    obtain ⟨hi, hj⟩ := he.of_end (.inl hkind)
    exact .pure ((h.closeNode hi).mono hj)
  | mappingEnd =>
    obtain ⟨hi, hj⟩ := he.of_end (.inr hkind)
    exact .pure ((h.closeNode hi).mono hj)

/-- What events in order make of the text is placed. -/
theorem orderly_foldlM {events : List Event} (h : c.Orderly i frames)
    (horder : Event.InOrder i frames events)
    (halias : ∀ e ∈ events, ¬ e.kind.isAlias) :
    Ensures (events.foldlM (fun (c : Composer) e => c.step e) c) fun c' =>
      ∃ i frames, c'.Orderly i frames := by
  induction events generalizing c i frames with
  | nil => exact .pure ⟨i, frames, h⟩
  | cons e events ih =>
    obtain ⟨j, hij, hbetween, horder⟩ := horder
    obtain ⟨he, halias⟩ := List.forall_mem_cons.mp halias
    rw [List.foldlM_cons]
    exact (orderly_step h hbetween hij he).bind fun c' h' => ih h' horder halias

end Composer

/-- **The graph of a text without aliases is placed.** -/
theorem Graph.placed_root {text : List Char} {g : Graph} (h : ofText? text = .ok (some g))
    (halias : AliasFree text) :
    ∃ lo hi, Placed (g.nodes[·]?) lo hi [(.item, g.root)] := by
  have hfirst : Composer.Orderly 0 [] {} := ⟨rfl, .nil, trivial, nofun⟩
  have hall : Ensures (ofText? text) fun g? =>
      ∀ g ∈ g?, ∃ lo hi, Placed (g.nodes[·]?) lo hi [(.item, g.root)] := by
    unfold ofText?
    refine (Composer.orderly_foldlM hfirst (Event.inOrder_stream text) halias).bind fun c hc => ?_
    split
    · exact .throw _
    · refine .pure fun g hg => ?_
      obtain ⟨i, frames, hc⟩ := hc
      obtain ⟨root, hroot, rfl⟩ := Option.map_eq_some_iff.mp hg
      obtain ⟨lo, hi, hplaced⟩ := hc.root root hroot
      refine ⟨lo, hi, hplaced.mono fun n x hx => ?_⟩
      unfold Composer.node? at hx
      split at hx
      · cases hx
      · exact hx
  exact hall _ h g rfl

end PackLint.Yaml
