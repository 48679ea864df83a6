import PackLint.Proofs.Yaml.Event
import PackLint.Proofs.Yaml.Spelt
import PackLint.Yaml.Graph

/-!
# What is written of a node

The place of a scalar node starts with its anchor or its tag, if it has one, so what is written
there starts with `&` or `!` then. Else it is what is written of the token.

Results:
* `Event.spelt_stream`: the scalars of a text are spelt where they stand.
-/

namespace PackLint.Yaml

variable {text : List Char}

/-! ## Scalars -/

namespace Piece

variable {i j k l : Nat} {raw raw' : List Char}

/-- Between two pieces stands another one. -/
theorem join (h : Piece text i raw j) (h' : Piece text k raw' l) (hjk : j ≤ k) :
    ∃ gap, Piece text i (raw ++ (gap ++ raw')) l := by
  obtain ⟨front, behind, htext, rfl, rfl⟩ := h
  obtain ⟨front', behind', htext', rfl, rfl⟩ := h'
  have hfirst : front ++ raw <+: text := ⟨behind, by rw [htext, List.append_assoc]⟩
  have hprefix : front ++ raw <+: front' := by
    refine List.prefix_of_prefix_length_le hfirst ⟨_, htext'.symm⟩ ?_
    rw [List.length_append]
    exact hjk
  obtain ⟨gap, rfl⟩ := hprefix
  refine ⟨gap, front, behind', ?_, rfl, ?_⟩
  · simp [htext']
  · simp only [List.length_append]
    omega

end Piece

namespace ScalarStyle

/-- Whether what is written starts with an anchor or a tag. -/
def StartsMarked (raw : List Char) : Prop := raw.head? = some '&' ∨ raw.head? = some '!'

/-- The text of a scalar is written between two indices. Nothing is told of scalars with line
breaks. -/
inductive Written (text : List Char) : ScalarStyle → Nat → Nat → List Char → Prop
  | literal {i j : Nat} {s : List Char} : Written text literal i j s
  | folded {i j : Nat} {s : List Char} : Written text folded i j s
  | lines {style : ScalarStyle} {i j : Nat} {raw s : List Char} (h : Piece text i raw j)
      (hbroken : Broken raw) : Written text style i j s
  | line {style : ScalarStyle} {i j : Nat} {raw s : List Char} (h : Piece text i raw j)
      (htells : style.Tells raw s) : Written text style i j s

variable {style : ScalarStyle} {raw raw' s : List Char} {i j k l : Nat}

theorem StartsMarked.append (h : StartsMarked raw) (raw' : List Char) :
    StartsMarked (raw ++ raw') := by
  unfold StartsMarked at h ⊢
  rw [List.head?_append]
  rcases h with h | h <;> rw [h]
  · exact .inl rfl
  · exact .inr rfl

/-- What starts with an anchor or a tag is longer than the text, and not verbatim. -/
theorem tells_marked (h : StartsMarked raw) (hlength : s.length + 2 * style.quotes < raw.length) :
    style.Tells raw s where
  length_le := Nat.le_of_lt hlength
  inside_eq_iff := by
    refine iff_of_false (fun heq => ?_) fun hverbatim => ?_
    · have := congrArg List.length heq
      rw [length_inside] at this
      omega
    · exact h.elim hverbatim.anchor hverbatim.tag

theorem length_pos_of_startsMarked (h : StartsMarked raw) : 0 < raw.length := by
  refine List.length_pos_iff.mpr ?_
  rintro rfl
  exact h.elim nofun nofun

/-- A scalar whose place starts with an anchor or a tag. -/
theorem Written.marked (h : Written text style k l s) (hmark : StartsMarked raw)
    (hraw : Piece text i raw j) (hjk : j ≤ k) : Written text style i l s := by
  cases h with
  | literal => exact .literal
  | folded => exact .folded
  | lines h hbroken =>
    obtain ⟨gap, hall⟩ := hraw.join h hjk
    exact .lines hall ((hbroken.append_right _).append_right _)
  | line h htells =>
    obtain ⟨gap, hall⟩ := hraw.join h hjk
    refine .line hall (tells_marked (hmark.append _) ?_)
    have hpos := length_pos_of_startsMarked hmark
    have hle := htells.length_le
    simp only [List.length_append]
    omega

end ScalarStyle

namespace Token

variable {t : Token} {s : List Char} {style : ScalarStyle}

theorem Spelt.written (h : t.Spelt text) (hkind : t.kind = .scalar s style) :
    style.Written text t.start.index t.stop.index s := by
  unfold Spelt at h
  rw [hkind] at h
  have hflow : ∀ {P}, (TokenKind.scalar s style).spelling? = some P →
      P = (fun raw => Broken raw ∨ style.Tells raw s) →
      style.Written text t.start.index t.stop.index s := by
    rintro P hP rfl
    obtain ⟨raw, hraw, hbroken | htells⟩ := h _ hP
    · exact .lines hraw hbroken
    · exact .line hraw htells
  cases style with
  | literal => exact .literal
  | folded => exact .folded
  | plain => exact hflow rfl rfl
  | singleQuoted => exact hflow rfl rfl
  | doubleQuoted => exact hflow rfl rfl

end Token

/-! ## Events -/

/-- A scalar is written between two indices, or is nothing at all. -/
def ScalarStyle.Spelt (text : List Char) (style : ScalarStyle) (i j : Nat) (s : List Char) : Prop :=
  (style = .plain ∧ s = [] ∧ i = j) ∨ style.Written text i j s

/-- The event is a scalar that is written between two indices, or no scalar. -/
def EventKind.Spelt (text : List Char) (i j : Nat) : EventKind → Prop
  | scalar _ _ _ s style => style.Spelt text i j s
  | _ => True

/-- The event is written in the text where it stands. -/
def Event.Spelt (text : List Char) (e : Event) : Prop :=
  e.kind.Spelt text e.start.index e.stop.index

/-- Tokens that stand in the text in order. -/
structure Token.Stand (text : List Char) (ts : List Token) : Prop where
  inOrder : Token.From 0 ts
  spelt : ∀ t ∈ ts, t.Spelt text

theorem Token.Stand.sublist {ts us : List Token} (h : Stand text ts) (hs : us.Sublist ts) :
    Stand text us :=
  ⟨h.inOrder.sublist hs, fun u hu => h.spelt u (hs.subset hu)⟩

namespace Parser

variable {p : Parser}

/-- An event that is written in the text, and the tokens behind it. -/
structure Spells (text : List Char) (r : Event × Parser) : Prop where
  event : r.1.Spelt text
  tokens : Token.Stand text r.2.tokens

theorem stand_finish (h : Token.Stand text p.tokens) : Token.Stand text p.finish.tokens :=
  (tokens_finish p).symm ▸ h

theorem stand_advance (h : Token.Stand text p.tokens) : Token.Stand text p.advance.tokens :=
  h.sublist (List.drop_sublist 1 _)

theorem spells_emitEmpty (h : Token.Stand text p.tokens) (mark : Mark) (e : Expectation) :
    Spells text (p.emitEmpty mark e) :=
  ⟨.inl ⟨rfl, rfl, rfl⟩, h⟩

/-- The properties of a node start with an anchor or a tag, and the tokens are those behind them. -/
def Properties.Stand (text : List Char) (props : Properties) (ts : List Token) : Prop :=
  ∀ span ∈ props.span, (∃ raw, Piece text span.1.index raw span.2.index ∧
    ScalarStyle.StartsMarked raw) ∧ ∀ t ∈ ts, span.2.index ≤ t.start.index

/-- An anchor or a tag is written where it stands. -/
theorem startsMarked_of_spelt {t : Token} {first : Char} (h : t.Spelt text)
    (hkind : t.kind.spelling? = some fun raw => raw.head? = some first)
    (hfirst : first = '&' ∨ first = '!') :
    ∃ raw, Piece text t.start.index raw t.stop.index ∧ ScalarStyle.StartsMarked raw := by
  obtain ⟨raw, hraw, hhead⟩ := h _ hkind
  refine ⟨raw, hraw, ?_⟩
  rcases hfirst with rfl | rfl
  · exact .inl hhead
  · exact .inr hhead

theorem ensures_readProperties_stand (h : Token.Stand text p.tokens) :
    Ensures p.readProperties fun r =>
      r.1.Stand text r.2.tokens ∧ Token.Stand text r.2.tokens := by
  unfold Parser.readProperties
  refine ensures_peek.bind fun t ht => ?_
  have hnext := stand_advance h
  obtain ⟨-, hbehind⟩ := h.inOrder.behind ht
  have hspelt := h.spelt t (List.mem_of_mem_head? ht)
  split
  · rename_i name hkind
    have hanchor := startsMarked_of_spelt hspelt (hkind ▸ rfl) (.inl rfl)
    refine ensures_peek.bind fun u hu => ?_
    split
    · rename_i handle suffix hkind'
      refine (Ensures.anyhow _).bind fun _ _ => .pure ⟨?_, stand_advance hnext⟩
      rintro _ ⟨⟩
      have hmem := List.mem_of_mem_head? hu
      obtain ⟨raw, hraw, hmark⟩ := hanchor
      obtain ⟨raw', hraw', -⟩ :=
        startsMarked_of_spelt (hnext.spelt u hmem) (hkind' ▸ rfl) (.inr rfl)
      obtain ⟨gap, hall⟩ := hraw.join hraw' (hbehind.start u hmem)
      exact ⟨⟨_, hall, hmark.append _⟩, (hnext.inOrder.behind hu).2.start⟩
    · refine .pure ⟨?_, hnext⟩
      rintro _ ⟨⟩
      exact ⟨hanchor, hbehind.start⟩
  · rename_i handle suffix hkind
    have htag := startsMarked_of_spelt hspelt (hkind ▸ rfl) (.inr rfl)
    refine ensures_peek.bind fun u hu => ?_
    split
    · rename_i name hkind'
      refine (Ensures.anyhow _).bind fun _ _ => .pure ⟨?_, stand_advance hnext⟩
      rintro _ ⟨⟩
      have hmem := List.mem_of_mem_head? hu
      exact ⟨startsMarked_of_spelt (hnext.spelt u hmem) (hkind' ▸ rfl) (.inl rfl),
        (hnext.inOrder.behind hu).2.start⟩
    · refine (Ensures.anyhow _).bind fun _ _ => .pure ⟨?_, hnext⟩
      rintro _ ⟨⟩
      exact ⟨htag, hbehind.start⟩
  · exact .pure ⟨nofun, h⟩

theorem spells_readContent {props : Properties} (hprops : props.Stand text p.tokens)
    (h : Token.Stand text p.tokens) (inBlock indentless : Bool) :
    Ensures (p.readContent inBlock indentless props) (Spells text) := by
  unfold Parser.readContent
  refine ensures_peek.bind fun t ht => ?_
  have hmem := List.mem_of_mem_head? ht
  extract_lets start bare next opened empty
  have hempty : Ensures (empty ()) (Spells text) := by
    unfold empty
    split
    · rename_i first last hspan
      obtain ⟨⟨raw, hraw, hmark⟩, -⟩ := hprops _ hspan
      refine .pure ⟨.inr (.line hraw (ScalarStyle.tells_marked hmark ?_)), stand_finish h⟩
      exact ScalarStyle.length_pos_of_startsMarked hmark
    · exact .throw _
  have hnext : Token.Stand text next.tokens := stand_advance h
  split
  · exact .ite (.pure ⟨trivial, h⟩) fun _ => hempty
  · rename_i s style hkind
    refine .pure ⟨.inr ?_, stand_finish hnext⟩
    have hwritten := (h.spelt t hmem).written hkind
    change style.Written text start.index t.stop.index s
    unfold start
    cases hspan : props.span with
    | none => exact hwritten
    | some span =>
      obtain ⟨⟨raw, hraw, hmark⟩, hbehind⟩ := hprops _ hspan
      exact hwritten.marked hmark hraw (hbehind t hmem)
  · exact .pure ⟨trivial, hnext⟩
  · exact .pure ⟨trivial, hnext⟩
  · exact .ite (.pure ⟨trivial, hnext⟩) fun _ => hempty
  · exact .ite (.pure ⟨trivial, hnext⟩) fun _ => hempty
  · exact hempty

theorem spells_readNode (h : Token.Stand text p.tokens) (inBlock indentless : Bool) :
    Ensures (p.readNode inBlock indentless) (Spells text) := by
  unfold Parser.readNode
  refine ensures_peek.bind fun t ht => ?_
  split
  · exact .pure ⟨trivial, stand_finish (stand_advance h)⟩
  · exact (ensures_readProperties_stand h).bind fun r hr => spells_readContent hr.1 hr.2 _ _

theorem spells_readNodeThen (h : Token.Stand text p.tokens) (inBlock indentless : Bool)
    (e : Expectation) : Ensures (p.readNodeThen inBlock indentless e) (Spells text) :=
  spells_readNode (p := { p with pending := e :: p.pending }) h inBlock indentless

/-! ## Documents -/

theorem stand_readDirectives (fuel : Nat) (version : Option Version)
    (h : Token.Stand text p.tokens) :
    Ensures (readDirectives fuel version p) fun p' => Token.Stand text p'.tokens := by
  induction fuel generalizing version p with
  | zero => exact .pure h
  | succ fuel ih =>
    unfold readDirectives
    refine (Ensures.anyhow _).bind fun t _ => ?_
    have hnext := stand_advance h
    split
    · exact .guard (.guard (ih _ hnext))
    · exact .guard (ih _ hnext)
    · exact ih _ hnext
    · exact .pure h

section Reading

variable (h : Token.Stand text p.tokens)

include h

theorem spells_readExplicitStart : Ensures p.readExplicitStart (Spells text) := by
  have hends : Token.Stand text p.skipDocumentEnds.tokens := h.sublist (List.dropWhile_sublist _)
  unfold readExplicitStart
  refine (Ensures.anyhow _).bind fun t _ => .ite (.pure ⟨trivial, stand_advance hends⟩) fun _ => ?_
  refine (stand_readDirectives (p := { p.skipDocumentEnds with handles := [] }) _ _ hends).bind
    fun q hq => (Ensures.anyhow _).bind fun u _ => .guard (.pure ⟨trivial, ?_⟩)
  exact stand_advance (p := { q with handles := q.handles ++ defaultHandles }) hq

theorem spells_readStart : Ensures p.readStart (Spells text) := by
  unfold readStart
  exact (Ensures.anyhow _).bind fun t _ => .ite (spells_readExplicitStart h) fun _ =>
    .pure ⟨trivial, h⟩

theorem spells_readEnd : Ensures p.readEnd (Spells text) := by
  unfold readEnd
  exact (Ensures.anyhow _).bind fun t _ => .ite (.pure ⟨trivial, stand_advance h⟩) fun _ =>
    .pure ⟨trivial, h⟩

theorem spells_readDocumentContent : Ensures p.readDocumentContent (Spells text) := by
  unfold readDocumentContent
  exact (Ensures.anyhow _).bind fun t _ => .ite (.pure ⟨.inl ⟨rfl, rfl, rfl⟩, stand_finish h⟩)
    fun _ => spells_readNode h _ _

/-! ## Collections -/

/-- Behind an indicator stands a node or nothing. -/
theorem spells_indicator (kinds : List TokenKind) (mark : Mark) (inBlock indentless : Bool)
    (e : Expectation) : Ensures (do
      if ← p.advance.nextIs kinds then return p.advance.emitEmpty mark e
      else p.advance.readNodeThen inBlock indentless e) (Spells text) :=
  (Ensures.anyhow _).bind fun _ _ => .ite (.pure (spells_emitEmpty (stand_advance h) _ _))
    fun _ => spells_readNodeThen (stand_advance h) _ _ _

/-- The end of a collection. -/
theorem spells_end (kind : EventKind) (hkind : ∀ i j, kind.Spelt text i j) (start stop : Mark) :
    Spells text (p.advance.finish.emit kind start stop) :=
  ⟨hkind _ _, stand_finish (stand_advance h)⟩

theorem spells_readBlockSequenceEntry : Ensures p.readBlockSequenceEntry (Spells text) := by
  unfold readBlockSequenceEntry
  exact (Ensures.anyhow _).bind fun t _ => .ite (spells_indicator h _ _ _ _ _) fun _ =>
    .ite (.pure (spells_end h .sequenceEnd (fun _ _ => trivial) _ _)) fun _ => .throw _

theorem spells_readIndentlessEntry : Ensures p.readIndentlessEntry (Spells text) := by
  unfold readIndentlessEntry
  exact (Ensures.anyhow _).bind fun t _ => .ite (spells_indicator h _ _ _ _ _) fun _ =>
    .pure ⟨trivial, stand_finish h⟩

theorem spells_readBlockMappingKey : Ensures p.readBlockMappingKey (Spells text) := by
  unfold readBlockMappingKey
  exact (Ensures.anyhow _).bind fun t _ => .ite (spells_indicator h _ _ _ _ _) fun _ =>
    .ite (.pure (spells_emitEmpty h _ _)) fun _ =>
      .ite (.pure (spells_end h .mappingEnd (fun _ _ => trivial) _ _)) fun _ => .throw _

theorem spells_readBlockMappingValue : Ensures p.readBlockMappingValue (Spells text) := by
  unfold readBlockMappingValue
  exact (Ensures.anyhow _).bind fun t _ => .ite (spells_indicator h _ _ _ _ _) fun _ =>
    .pure (spells_emitEmpty h _ _)

theorem stand_afterComma (first : Bool) (closing : String) :
    Ensures (p.afterComma first closing) fun q => Token.Stand text q.tokens := by
  unfold afterComma
  exact .ite (.pure h) fun _ => (Ensures.anyhow _).bind fun t _ => .guard (.pure (stand_advance h))

theorem stand_atEntry (first : Bool) (ending : TokenKind) (closing : String) :
    Ensures (p.atEntry first ending closing) fun q => Token.Stand text q.tokens := by
  unfold atEntry
  exact (Ensures.anyhow _).bind fun _ _ => .ite (.pure h) fun _ => stand_afterComma h _ _

theorem spells_flowSequenceEntryHere : Ensures p.flowSequenceEntryHere (Spells text) := by
  unfold flowSequenceEntryHere
  exact (Ensures.anyhow _).bind fun t _ =>
    .ite (.pure (spells_end h .sequenceEnd (fun _ _ => trivial) _ _)) fun _ =>
      .ite (.pure ⟨trivial, h⟩) fun _ => spells_readNodeThen h _ _ _

theorem spells_readFlowSequenceEntry (first : Bool) :
    Ensures (p.readFlowSequenceEntry first) (Spells text) := by
  rw [readFlowSequenceEntry_eq]
  exact (stand_atEntry h _ _ _).bind fun _ hq => spells_flowSequenceEntryHere hq

theorem spells_readFlowPairKey : Ensures p.readFlowPairKey (Spells text) := by
  unfold readFlowPairKey
  exact (Ensures.anyhow _).bind fun t _ => spells_indicator h _ _ _ _ _

theorem spells_readFlowPairValue : Ensures p.readFlowPairValue (Spells text) := by
  unfold readFlowPairValue
  exact (Ensures.anyhow _).bind fun t _ => .ite (spells_indicator h _ _ _ _ _) fun _ =>
    .pure (spells_emitEmpty h _ _)

theorem spells_readFlowPairEnd : Ensures p.readFlowPairEnd (Spells text) := by
  unfold readFlowPairEnd
  exact (Ensures.anyhow _).bind fun t _ => .pure ⟨trivial, h⟩

theorem spells_flowMappingKeyHere : Ensures p.flowMappingKeyHere (Spells text) := by
  unfold flowMappingKeyHere
  exact (Ensures.anyhow _).bind fun t _ =>
    .ite (.pure (spells_end h .mappingEnd (fun _ _ => trivial) _ _)) fun _ =>
      .ite (spells_indicator h _ _ _ _ _) fun _ => .ite (.pure (spells_emitEmpty h _ _))
        fun _ => spells_readNodeThen h _ _ _

theorem spells_readFlowMappingKey (first : Bool) :
    Ensures (p.readFlowMappingKey first) (Spells text) := by
  rw [readFlowMappingKey_eq]
  exact (stand_atEntry h _ _ _).bind fun _ hq => spells_flowMappingKeyHere hq

theorem spells_readFlowMappingValue : Ensures p.readFlowMappingValue (Spells text) := by
  unfold readFlowMappingValue
  exact (Ensures.anyhow _).bind fun t _ => .ite (spells_indicator h _ _ _ _ _) fun _ =>
    .pure (spells_emitEmpty h _ _)

/-! ## Runs -/

/-- **The next event is written in the text.** -/
theorem spells_step : Ensures p.step (Spells text) := by
  unfold step
  cases p.expected with
  | documentStart explicitly =>
    cases explicitly with
    | false => exact spells_readStart h
    | true => exact spells_readExplicitStart h
  | documentContent => exact spells_readDocumentContent h
  | documentEnd => exact spells_readEnd h
  | node => exact spells_readNode h _ _
  | blockSequenceEntry => exact spells_readBlockSequenceEntry h
  | indentlessSequenceEntry => exact spells_readIndentlessEntry h
  | blockMappingKey => exact spells_readBlockMappingKey h
  | blockMappingValue => exact spells_readBlockMappingValue h
  | flowSequenceEntry first => exact spells_readFlowSequenceEntry h first
  | flowPairKey => exact spells_readFlowPairKey h
  | flowPairValue => exact spells_readFlowPairValue h
  | flowPairEnd => exact spells_readFlowPairEnd h
  | flowMappingKey first => exact spells_readFlowMappingKey h first
  | flowMappingValue => exact spells_readFlowMappingValue h
  | flowMappingNoValue =>
    exact (Ensures.anyhow _).bind fun t _ => .pure (spells_emitEmpty h _ _)
  | nothing => exact .throw _

end Reading

/-- However far a parser runs, its events are written in the text. -/
theorem spelt_run (fuel : Nat) {before : List Event} (hbefore : ∀ e ∈ before, e.Spelt text)
    (h : Token.Stand text p.tokens) : ∀ e ∈ (run fuel before p).events, e.Spelt text := by
  have hdone : ∀ e ∈ before.reverse, e.Spelt text := fun e he =>
    hbefore e (List.mem_reverse.mp he)
  induction fuel generalizing before p with
  | zero => exact hdone
  | succ fuel ih =>
    unfold run
    split
    · exact hdone
    · split
      · exact hdone
      · rename_i e q hstep
        have hq := spells_step h _ hstep
        have hcons := List.forall_mem_cons.mpr ⟨hq.event, hbefore⟩
        exact ih hcons hq.tokens fun e he => hcons e (List.mem_reverse.mp he)

end Parser

/-- **The scalars of a text are written where their events stand.** -/
theorem Event.spelt_stream (text : List Char) : ∀ e ∈ (stream text).events, e.Spelt text := by
  refine Parser.spelt_run _ (List.forall_mem_nil _) ⟨⟨fun _ _ => Nat.zero_le _, ?_⟩, ?_⟩
  · exact Token.inOrder_stream text
  · exact Token.spelt_stream text

/-! ## Graphs -/

/-- The node is a scalar that is written where it stands, or no scalar. -/
def PlacedNode.Spelt (text : List Char) (x : PlacedNode) : Prop :=
  match x.node with
  | .scalar _ s style => style.Spelt text x.start.index x.stop.index s
  | _ => True

namespace Composer

variable {c : Composer}

/-- All scalars of a composer are written in the text. -/
def Spelt (text : List Char) (c : Composer) : Prop := ∀ x ∈ c.nodes, x.Spelt text

theorem nodes_attach (number : Nat) : (c.attach number).nodes = c.nodes := by
  unfold attach
  split <;> rfl

theorem Spelt.push (h : c.Spelt text) {x : PlacedNode} (hx : x.Spelt text) :
    ∀ y ∈ c.nodes.push x, y.Spelt text := by
  intro y hy
  rcases Array.mem_push.mp hy with hy | rfl
  · exact h y hy
  · exact hx

theorem Spelt.closeNode (h : c.Spelt text) (stop : Mark) : (c.closeNode stop).Spelt text := by
  unfold Composer.closeNode
  split
  · exact h
  · rename_i o outer hc
    intro x hx
    rw [nodes_attach] at hx
    obtain ⟨i, hi⟩ := Array.mem_iff_getElem?.mp hx
    rw [Array.getElem?_modify] at hi
    split at hi
    · -- The collection that is over is no scalar.
      obtain ⟨y, -, rfl⟩ := Option.map_eq_some_iff.mp hi
      unfold PlacedNode.Spelt
      cases o.isMapping <;> trivial
    · exact h x (Array.mem_of_getElem? hi)

/-- What an event adds is written in the text. -/
theorem Spelt.step {e : Event} (h : c.Spelt text) (he : e.Spelt text) :
    Ensures (c.step e) (Spelt text) := by
  unfold Composer.step
  unfold Event.Spelt at he
  cases hkind : e.kind with
  | documentStart => exact .guard (.pure h)
  | documentEnd => exact .pure h
  | streamEnd => exact .pure h
  | aliasOf name =>
    simp only
    split
    · refine .pure fun x hx => h x ?_
      rwa [nodes_attach] at hx
    · exact .throw _
  | scalar anchor tag decided s style =>
    rw [hkind] at he
    refine (Ensures.anyhow _).bind fun t _ => .pure fun x hx => ?_
    rw [nodes_attach] at hx
    exact h.push (x := ⟨.scalar t s style, e.start, e.stop⟩) he x hx
  | sequenceStart anchor => exact .pure (h.push trivial)
  | mappingStart anchor => exact .pure (h.push trivial)
  | sequenceEnd => exact .pure (h.closeNode _)
  | mappingEnd => exact .pure (h.closeNode _)

theorem Spelt.foldlM {events : List Event} (h : c.Spelt text)
    (hevents : ∀ e ∈ events, e.Spelt text) :
    Ensures (events.foldlM (fun (c : Composer) e => c.step e) c) (Spelt text) := by
  induction events generalizing c with
  | nil => exact .pure h
  | cons e events ih =>
    obtain ⟨he, hevents⟩ := List.forall_mem_cons.mp hevents
    rw [List.foldlM_cons]
    exact (h.step he).bind fun c' h' => ih h' hevents

end Composer

/-- **The scalars of a graph are written in the text where they stand.** -/
theorem Graph.spelt_of_ofText? {g : Graph} (h : ofText? text = .ok (some g)) :
    ∀ x ∈ g.nodes, x.Spelt text := by
  have hall : Ensures (ofText? text) fun g? => ∀ g ∈ g?, ∀ x ∈ g.nodes, x.Spelt text := by
    unfold ofText?
    have hfirst : Composer.Spelt text {} := fun x hx => absurd hx (Array.not_mem_empty x)
    refine (hfirst.foldlM (Event.spelt_stream text)).bind fun c hc => ?_
    split
    · exact .throw _
    · refine .pure fun g hg => ?_
      obtain ⟨root, -, rfl⟩ := Option.map_eq_some_iff.mp hg
      exact hc
  exact hall _ h g rfl

end PackLint.Yaml
