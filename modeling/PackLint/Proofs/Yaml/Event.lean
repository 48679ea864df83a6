import PackLint.Proofs.Yaml.Lexer
import PackLint.Yaml.Event

/-!
# Events stand in the order of the text

A parser goes from token to token, so its events stand in the order of the text as well. The value
of a pair even starts behind what came before, since a colon stands between them, unless it is
written as nothing at all. Which events are values the collections around them tell: their `Frame`s
can be read off what the parser expects and counted along with the events.

Results:
* `Parser.advances_step`: the next event stands behind the last one, and its frames are what the
  parser expects next.
* `Event.inOrder_stream`: the events of a text are in order.
-/

namespace PackLint.Yaml

/-! ## Frames -/

/-- What an open collection takes next. -/
inductive Frame where
  | item
  | key
  | value
deriving DecidableEq

namespace Frame

/-- What the collection takes after that. -/
def next : Frame → Frame
  | item => item
  | key => value
  | value => key

@[simp] theorem next_next (f : Frame) : f.next.next = f := by
  cases f <;> rfl

/-- The frames when the innermost collection has taken a node. -/
def taken (frames : List Frame) : List Frame := frames.modifyHead next

@[simp] theorem taken_nil : taken [] = [] := rfl

@[simp] theorem taken_cons (f : Frame) (frames : List Frame) :
    taken (f :: frames) = f.next :: frames := rfl

theorem taken_taken_append {inner : List Frame} (h : inner ≠ []) (outer : List Frame) :
    taken (taken inner ++ outer) = inner ++ outer := by
  obtain ⟨f, fs, rfl⟩ := List.exists_cons_of_ne_nil h
  simp

end Frame

/-- The collections that an expectation is inside of, as far as no other one tells. -/
def Expectation.frames : Expectation → List Frame
  | blockSequenceEntry | indentlessSequenceEntry | flowSequenceEntry _ => [.item]
  | blockMappingKey | flowMappingKey _ => [.key]
  | blockMappingValue | flowMappingValue | flowMappingNoValue => [.value]
  | flowPairKey | flowPairEnd => [.key, .item]
  | flowPairValue => [.value, .item]
  | documentStart _ | documentContent | documentEnd | node | nothing => []

/-- The frames of a node after which the parser goes on with the pending expectations. -/
def awaiting (pending : List Expectation) : List Frame :=
  pending.flatMap fun e => Frame.taken e.frames

/-- The frames of the next event. -/
def Parser.frames (p : Parser) : List Frame := p.expected.frames ++ awaiting p.pending

/-- The frames behind an event. -/
def EventKind.framesBehind (frames : List Frame) : EventKind → List Frame
  | aliasOf _ | scalar _ _ _ _ _ => Frame.taken frames
  | sequenceStart _ => .item :: frames
  | mappingStart _ => .key :: frames
  | sequenceEnd | mappingEnd => Frame.taken frames.tail
  | streamEnd | documentStart | documentEnd => frames

namespace Event

/-- Where the text goes on behind an event. What stands in a collection may start where the
collection does. -/
def reach (e : Event) : Nat :=
  match e.kind with
  | .sequenceStart _ | .mappingStart _ => e.start.index
  | _ => e.stop.index

/-- A scalar that is written as nothing at all. -/
def IsNothing (e : Event) : Prop := e.kind = .scalar none none true [] .plain

/-- The event stands between two indices, and a value behind the first of them. A key or a value
that is nothing may stand anywhere. -/
def Between (i j : Nat) (frames : List Frame) (e : Event) : Prop :=
  (frames.head? = some .key ∨ frames.head? = some .value) ∧ e.IsNothing ∨
    i ≤ e.start.index ∧ e.start.index ≤ e.reach ∧ e.reach ≤ j ∧
      (frames.head? = some .value → i < e.start.index)

section Between

variable {i j : Nat} {frames : List Frame} {e : Event} (h : e.Between i j frames)

include h

theorem Between.of_start {anchor : Option String}
    (hkind : e.kind = .sequenceStart anchor ∨ e.kind = .mappingStart anchor) :
    i ≤ e.start.index ∧ e.start.index ≤ j ∧
      (frames.head? = some .value → i < e.start.index) := by
  rcases h with ⟨-, hnothing⟩ | ⟨hi, hle, hj, hvalue⟩
  · unfold IsNothing at hnothing
    rw [hnothing] at hkind
    exact hkind.elim nofun nofun
  · exact ⟨hi, Nat.le_trans hle hj, hvalue⟩

theorem Between.of_end (hkind : e.kind = .sequenceEnd ∨ e.kind = .mappingEnd) :
    i ≤ e.stop.index ∧ e.stop.index ≤ j := by
  rcases h with ⟨-, hnothing⟩ | ⟨hi, hle, hj, -⟩
  · unfold IsNothing at hnothing
    rw [hnothing] at hkind
    exact hkind.elim nofun nofun
  · have hreach : e.reach = e.stop.index := by
      unfold reach
      rcases hkind with hkind | hkind <;> rw [hkind]
    rw [hreach] at hle hj
    exact ⟨Nat.le_trans hi hle, hj⟩

end Between

/-- The events stand in order from an index on, the first inside of the given frames. -/
def InOrder : Nat → List Frame → List Event → Prop
  | _, _, [] => True
  | i, frames, e :: events => ∃ j, i ≤ j ∧ e.Between i j frames ∧
      InOrder j (e.kind.framesBehind frames) events

end Event

/-! ## Parsers -/

/-- Tokens in order, none of which starts before the index. -/
structure Token.From (i : Nat) (ts : List Token) : Prop where
  start : ∀ t ∈ ts, i ≤ t.start.index
  inOrder : Token.InOrder ts

namespace Token.From

variable {i : Nat} {ts : List Token} {t : Token}

theorem here (h : From i ts) (ht : ts.head? = some t) : i ≤ t.start.index ∧
    From t.start.index ts := by
  obtain ⟨us, rfl⟩ : ∃ us, ts = t :: us := List.head?_eq_some_iff.mp ht
  refine ⟨h.start t List.mem_cons_self, ?_, h.inOrder⟩
  obtain ⟨hapart, -⟩ := List.pairwise_cons.mp h.inOrder.apart
  have hwide := (h.inOrder.wide t List.mem_cons_self).le
  exact List.forall_mem_cons.mpr ⟨Nat.le_refl _, fun u hu => Nat.le_trans hwide (hapart u hu)⟩

theorem behind (h : From i ts) (ht : ts.head? = some t) : t.Wide ∧
    From t.stop.index (ts.drop 1) := by
  obtain ⟨us, rfl⟩ : ∃ us, ts = t :: us := List.head?_eq_some_iff.mp ht
  refine ⟨h.inOrder.wide t List.mem_cons_self, ?_, h.inOrder.sublist (List.drop_sublist 1 _)⟩
  exact (List.pairwise_cons.mp h.inOrder.apart).1

theorem of_le {j : Nat} (h : From j ts) (hle : i ≤ j) : From i ts :=
  ⟨fun t ht => Nat.le_trans hle (h.start t ht), h.inOrder⟩

theorem sublist {us : List Token} (h : From i ts) (hs : us.Sublist ts) : From i us :=
  ⟨fun u hu => h.start u (hs.subset hu), h.inOrder.sublist hs⟩

end Token.From

/-- Outside of a collection there are no collections. -/
def Nested (expectations : List Expectation) : Prop :=
  expectations.Pairwise fun e e' => e.frames = [] → e'.frames = []

theorem nested_of_forall {expectations : List Expectation}
    (h : ∀ e ∈ expectations, e.frames = []) : Nested expectations :=
  List.pairwise_of_forall_mem_list fun _ _ e' he' _ => h e' he'

theorem awaiting_eq_nil {pending : List Expectation} (h : ∀ e ∈ pending, e.frames = []) :
    awaiting pending = [] := by
  refine List.flatMap_eq_nil_iff.mpr fun e he => ?_
  rw [h e he]
  rfl

namespace Parser

variable {i : Nat} {p : Parser} {frames : List Frame}

/-- A parser all of whose expectations are nested. -/
structure Orderly (i : Nat) (p : Parser) : Prop where
  tokens : Token.From i p.tokens
  nested : Nested (p.expected :: p.pending)

/-- An event that stands behind an index, and the parser behind the event. -/
structure Follows (i : Nat) (around : List Frame) (r : Event × Parser) : Prop where
  start : i ≤ r.1.start.index
  stop : r.1.start.index ≤ r.1.stop.index
  frames : r.2.frames = r.1.kind.framesBehind around
  orderly : r.2.Orderly r.1.reach

/-- An event behind an index, with the parser at a later index. -/
structure Advances (i : Nat) (around : List Frame) (r : Event × Parser) : Prop where
  frames : r.2.frames = r.1.kind.framesBehind around
  between : ∃ j, i ≤ j ∧ r.1.Between i j around ∧ r.2.Orderly j

theorem Follows.start_le_reach {r : Event × Parser} (h : Follows i frames r) :
    r.1.start.index ≤ r.1.reach := by
  unfold Event.reach
  split
  · exact Nat.le_refl _
  · exact Nat.le_refl _
  · exact h.stop

theorem Follows.advances {r : Event × Parser} (h : Follows i frames r)
    (hbehind : frames.head? = some .value → i < r.1.start.index) : Advances i frames r :=
  ⟨h.frames, r.1.reach, Nat.le_trans h.start h.start_le_reach,
    .inr ⟨h.start, h.start_le_reach, Nat.le_refl _, hbehind⟩, h.orderly⟩

theorem Follows.of_le {j : Nat} {r : Event × Parser} (h : Follows j frames r) (hle : i ≤ j) :
    Follows i frames r :=
  { h with start := Nat.le_trans hle h.start }

theorem ensures_peek : Ensures p.peek fun t => p.tokens.head? = some t := by
  intro t ht
  unfold peek at ht
  split at ht
  · rename_i hts
    cases ht
    rw [hts]
    rfl
  · cases ht

theorem nested_cons {e : Expectation} {pending : List Expectation} (he : e.frames ≠ [])
    (h : Nested pending) : Nested (e :: pending) :=
  List.pairwise_cons.mpr ⟨fun _ _ hnil => absurd hnil he, h⟩

/-! ## Nodes -/

/-- When a node is over the collection around it has taken it. -/
theorem frames_finish (h : Nested p.pending) :
    p.finish.frames = Frame.taken (awaiting p.pending) := by
  unfold finish
  cases hp : p.pending with
  | nil => rfl
  | cons e pending =>
    rw [hp] at h
    change e.frames ++ awaiting pending = Frame.taken (Frame.taken e.frames ++ awaiting pending)
    by_cases he : e.frames = []
    · rw [he, awaiting_eq_nil fun e' he' => (List.pairwise_cons.mp h).1 e' he' he]
      rfl
    · exact (Frame.taken_taken_append he _).symm

theorem nested_finish (h : Nested p.pending) : Nested (p.finish.expected :: p.finish.pending) := by
  unfold finish
  cases hp : p.pending with
  | nil => exact List.pairwise_singleton _ _
  | cons e pending => exact hp ▸ h

theorem tokens_finish (p : Parser) : p.finish.tokens = p.tokens := by
  unfold finish
  split <;> rfl

/-- A node that is nothing. -/
theorem follows_emitEmpty {mark : Mark} {e : Expectation} (htokens : Token.From mark.index p.tokens)
    (hnested : Nested p.pending) (hi : i ≤ mark.index) (he : e.frames ≠ [])
    (hframes : e.frames ++ awaiting p.pending = Frame.taken frames) :
    Follows i frames (p.emitEmpty mark e) :=
  ⟨hi, Nat.le_refl _, hframes, htokens, nested_cons he hnested⟩

/-- The end of a node. -/
theorem follows_finish {kind : EventKind} {start stop : Mark}
    (htokens : Token.From stop.index p.tokens) (hnested : Nested p.pending)
    (hstart : i ≤ start.index) (hstop : start.index ≤ stop.index)
    (hframes : Frame.taken (awaiting p.pending) = kind.framesBehind frames)
    (hreach : ∀ version, Event.reach ⟨kind, start, stop, version⟩ = stop.index) :
    Follows i frames (p.finish.emit kind start stop) := by
  refine ⟨hstart, hstop, (frames_finish hnested).trans hframes, ?_, nested_finish hnested⟩
  change Token.From (Event.reach ⟨kind, start, stop, p.finish.version⟩) p.finish.tokens
  rw [tokens_finish, hreach]
  exact htokens

/-- Where the properties of a node stand, and that the tokens are those behind them. -/
def Properties.Before (i : Nat) (ts : List Token) (props : Properties) : Prop :=
  match props.span with
  | none => Token.From i ts
  | some (first, last) =>
    i ≤ first.index ∧ first.index ≤ last.index ∧ Token.From last.index ts

theorem ensures_readProperties (h : Token.From i p.tokens) : Ensures p.readProperties fun r =>
    r.1.Before i r.2.tokens ∧ r.2.pending = p.pending := by
  unfold Parser.readProperties
  refine ensures_peek.bind fun t ht => ?_
  obtain ⟨hi, -⟩ := h.here ht
  obtain ⟨hwide, hnext⟩ := h.behind ht
  split
  · refine ensures_peek.bind fun u hu => ?_
    obtain ⟨hle, -⟩ := hnext.here hu
    obtain ⟨hwide', hnext'⟩ := hnext.behind hu
    split
    · refine (Ensures.anyhow _).bind fun _ _ => .pure ⟨⟨hi, ?_, hnext'⟩, rfl⟩
      exact Nat.le_trans hwide.le (Nat.le_trans hle hwide'.le)
    · exact .pure ⟨⟨hi, hwide.le, hnext⟩, rfl⟩
  · refine ensures_peek.bind fun u hu => ?_
    obtain ⟨hle, -⟩ := hnext.here hu
    obtain ⟨hwide', hnext'⟩ := hnext.behind hu
    split
    · refine (Ensures.anyhow _).bind fun _ _ => .pure ⟨⟨?_, hwide'.le, hnext'⟩, rfl⟩
      exact Nat.le_trans hi (Nat.le_trans hwide.le hle)
    · exact (Ensures.anyhow _).bind fun _ _ => .pure ⟨⟨hi, hwide.le, hnext⟩, rfl⟩
  · exact .pure ⟨h, rfl⟩

theorem follows_readContent {props : Properties} (h : props.Before i p.tokens)
    (hnested : Nested p.pending) (inBlock indentless : Bool) :
    Ensures (p.readContent inBlock indentless props) (Follows i (awaiting p.pending)) := by
  unfold Parser.readContent
  refine ensures_peek.bind fun t ht => ?_
  extract_lets start bare next opened empty
  have hempty : Ensures (empty ()) (Follows i (awaiting p.pending)) := by
    unfold empty
    split
    · rename_i first last hspan
      unfold Properties.Before at h
      rw [hspan] at h
      exact .pure (follows_finish h.2.2 hnested h.1 h.2.1 rfl fun _ => rfl)
    · exact .throw _
  obtain ⟨hi, hle, hhere, hwide, hnext⟩ : i ≤ start.index ∧ start.index ≤ t.start.index ∧
      Token.From t.start.index p.tokens ∧ t.Wide ∧ Token.From t.stop.index next.tokens := by
    unfold start
    unfold Properties.Before at h
    split at h
    · rename_i hspan
      rw [hspan]
      exact ⟨(h.here ht).1, Nat.le_refl _, (h.here ht).2, h.behind ht⟩
    · rename_i first last hspan
      rw [hspan]
      have := h.2.2.here ht
      exact ⟨h.1, Nat.le_trans h.2.1 this.1, this.2, h.2.2.behind ht⟩
  have hle' : start.index ≤ t.stop.index := Nat.le_trans hle hwide.le
  split
  · refine .ite (.pure ?_) fun _ => hempty
    exact ⟨hi, hle', rfl, hhere.of_le hle, nested_cons nofun hnested⟩
  · exact .pure (follows_finish hnext hnested hi hle' rfl fun _ => rfl)
  · exact .pure ⟨hi, hle', rfl, hnext.of_le hle', nested_cons nofun hnested⟩
  · exact .pure ⟨hi, hle', rfl, hnext.of_le hle', nested_cons nofun hnested⟩
  · refine .ite (.pure ?_) fun _ => hempty
    exact ⟨hi, hle', rfl, hnext.of_le hle', nested_cons nofun hnested⟩
  · refine .ite (.pure ?_) fun _ => hempty
    exact ⟨hi, hle', rfl, hnext.of_le hle', nested_cons nofun hnested⟩
  · exact hempty

theorem follows_readNode (h : Token.From i p.tokens) (hnested : Nested p.pending)
    (inBlock indentless : Bool) :
    Ensures (p.readNode inBlock indentless) (Follows i (awaiting p.pending)) := by
  unfold Parser.readNode
  refine ensures_peek.bind fun t ht => ?_
  obtain ⟨hi, -⟩ := h.here ht
  obtain ⟨hwide, hnext⟩ := h.behind ht
  split
  · exact .pure (follows_finish hnext hnested hi hwide.le rfl fun _ => rfl)
  · refine (ensures_readProperties h).bind fun r hr => ?_
    have := follows_readContent hr.1 (hr.2 ▸ hnested) inBlock indentless
    rw [hr.2] at this
    exact this

theorem follows_readNodeThen (h : Token.From i p.tokens) (hnested : Nested p.pending)
    (inBlock indentless : Bool) {e : Expectation} (he : e.frames ≠ []) :
    Ensures (p.readNodeThen inBlock indentless e)
      (Follows i (Frame.taken e.frames ++ awaiting p.pending)) := by
  have hnested : Nested (e :: p.pending) := nested_cons he hnested
  exact follows_readNode (p := { p with pending := e :: p.pending }) h hnested inBlock indentless

/-! ## Documents -/

theorem ensures_readDirectives (fuel : Nat) (version : Option Version)
    (h : Token.From i p.tokens) : Ensures (readDirectives fuel version p) fun p' =>
      Token.From i p'.tokens ∧ p'.pending = p.pending := by
  induction fuel generalizing version p with
  | zero => exact .pure ⟨h, rfl⟩
  | succ fuel ih =>
    unfold readDirectives
    refine ensures_peek.bind fun t ht => ?_
    have hnext : Token.From i p.advance.tokens := h.sublist (List.drop_sublist 1 _)
    split
    · exact .guard (.guard (ih _ hnext))
    · exact .guard (ih _ hnext)
    · exact ih _ hnext
    · exact .pure ⟨h, rfl⟩

section Outside

variable (h : Token.From i p.tokens) (hout : ∀ e ∈ p.pending, e.frames = [])

include h hout

theorem follows_readExplicitStart :
    Ensures p.readExplicitStart (Follows i (awaiting p.pending)) := by
  have hends : Token.From i p.skipDocumentEnds.tokens := h.sublist (List.dropWhile_sublist _)
  unfold readExplicitStart
  refine ensures_peek.bind fun t ht => ?_
  obtain ⟨hi, -⟩ := hends.here ht
  obtain ⟨hwide, hnext⟩ := hends.behind ht
  refine .ite (.pure ?_) fun _ => ?_
  · exact ⟨hi, hwide.le, rfl, hnext, nested_of_forall (List.forall_mem_cons.mpr ⟨rfl, hout⟩)⟩
  · refine (ensures_readDirectives (p := { p.skipDocumentEnds with handles := [] }) _ _ hends).bind
      fun q hq => ensures_peek.bind fun u hu => .guard (.pure ?_)
    obtain ⟨hi, -⟩ := hq.1.here hu
    obtain ⟨hwide, hnext⟩ := hq.1.behind hu
    have hpending : q.pending = p.pending := hq.2
    rw [← hpending] at hout ⊢
    refine ⟨hi, hwide.le, rfl, hnext, nested_of_forall ?_⟩
    exact List.forall_mem_cons.mpr ⟨rfl, List.forall_mem_cons.mpr ⟨rfl, hout⟩⟩

theorem follows_readStart : Ensures p.readStart (Follows i (awaiting p.pending)) := by
  unfold readStart
  refine ensures_peek.bind fun t ht => ?_
  obtain ⟨hi, hhere⟩ := h.here ht
  refine .ite (follows_readExplicitStart h hout) fun _ => .pure ?_
  refine ⟨hi, Nat.le_refl _, rfl, hhere, nested_of_forall ?_⟩
  exact List.forall_mem_cons.mpr ⟨rfl, List.forall_mem_cons.mpr ⟨rfl, hout⟩⟩

theorem follows_readEnd : Ensures p.readEnd (Follows i (awaiting p.pending)) := by
  unfold readEnd
  refine ensures_peek.bind fun t ht => ?_
  obtain ⟨hi, hhere⟩ := h.here ht
  obtain ⟨hwide, hnext⟩ := h.behind ht
  have hnested : ∀ b, Nested (.documentStart b :: p.pending) := fun b =>
    nested_of_forall (List.forall_mem_cons.mpr ⟨rfl, hout⟩)
  refine .ite (.pure ?_) fun _ => .pure ?_
  · exact ⟨hi, hwide.le, rfl, hnext, hnested _⟩
  · exact ⟨hi, Nat.le_refl _, rfl, hhere, hnested _⟩

theorem follows_readDocumentContent :
    Ensures p.readDocumentContent (Follows i (awaiting p.pending)) := by
  unfold readDocumentContent
  refine ensures_peek.bind fun t ht => ?_
  obtain ⟨hi, hhere⟩ := h.here ht
  have hnested := nested_of_forall hout
  refine .ite (.pure ?_) fun _ => follows_readNode h hnested _ _
  exact follows_finish hhere hnested hi (Nat.le_refl _) rfl fun _ => rfl

end Outside

/-! ## Entries of flow collections -/

/-- The parser at an entry of a flow collection: behind the comma, unless the collection ends. -/
def atEntry (p : Parser) (first : Bool) (ending : TokenKind) (closing : String) :
    Except Error Parser := do
  if (← p.peek).kind = ending then return p
  p.afterComma first closing

/-- Reads an entry of a flow sequence where the parser stands, or the end. -/
def flowSequenceEntryHere (p : Parser) : Step := do
  let t ← p.peek
  if t.kind = .flowSequenceEnd then return p.advance.finish.emit .sequenceEnd t.start t.stop
  else if t.kind = .key then
    return { p with expected := .flowPairKey }.emit (.mappingStart none) t.start t.stop
  else p.readNodeThen false false (.flowSequenceEntry false)

/-- Reads a key of a flow mapping where the parser stands, or the end. -/
def flowMappingKeyHere (p : Parser) : Step := do
  let t ← p.peek
  if t.kind = .flowMappingEnd then return p.advance.finish.emit .mappingEnd t.start t.stop
  else if t.kind = .key then
    let p := p.advance
    if ← p.nextIs [.value, .flowEntry, .flowMappingEnd] then
      return p.emitEmpty t.stop .flowMappingValue
    else p.readNodeThen false false .flowMappingValue
  else if t.kind = .value && p.version.after1_1 then return p.emitEmpty t.stop .flowMappingValue
  else p.readNodeThen false false .flowMappingNoValue

theorem atEntry_bind (p : Parser) (first : Bool) (ending : TokenKind) (closing : String)
    (rest : Parser → Step) :
    p.atEntry first ending closing >>= rest =
      p.peek >>= fun t =>
        if t.kind = ending then rest p else p.afterComma first closing >>= rest := by
  unfold atEntry
  rw [bind_assoc]
  refine bind_congr fun t => ?_
  by_cases ht : t.kind = ending
  · rw [if_pos ht, if_pos ht]
    rfl
  · rw [if_neg ht, if_neg ht]

theorem readFlowSequenceEntry_eq (p : Parser) (first : Bool) :
    p.readFlowSequenceEntry first =
      p.atEntry first .flowSequenceEnd "]" >>= flowSequenceEntryHere := by
  rw [atEntry_bind]
  rfl

theorem readFlowMappingKey_eq (p : Parser) (first : Bool) :
    p.readFlowMappingKey first =
      p.atEntry first .flowMappingEnd "\x7d" >>= flowMappingKeyHere := by
  rw [atEntry_bind]
  rfl

/-! ## Collections -/

section Inside

variable (h : Token.From i p.tokens) (hnested : Nested p.pending)

include h hnested

/-- Behind an indicator stands a node or nothing. -/
theorem follows_indicator {t : Token} (ht : p.tokens.head? = some t) (kinds : List TokenKind)
    (inBlock indentless : Bool) {e : Expectation} (he : e.frames ≠ []) :
    Ensures (do
      if ← p.advance.nextIs kinds then return p.advance.emitEmpty t.stop e
      else p.advance.readNodeThen inBlock indentless e)
      (Follows t.stop.index (Frame.taken e.frames ++ awaiting p.pending)) := by
  obtain ⟨-, hnext⟩ := h.behind ht
  refine (Ensures.anyhow _).bind fun _ _ => .ite (.pure ?_) fun _ =>
    follows_readNodeThen (p := p.advance) hnext hnested _ _ he
  exact follows_emitEmpty (p := p.advance) hnext hnested (Nat.le_refl _) he
    (Frame.taken_taken_append he _).symm

theorem follows_readBlockSequenceEntry :
    Ensures p.readBlockSequenceEntry (Follows i (.item :: awaiting p.pending)) := by
  unfold readBlockSequenceEntry
  refine ensures_peek.bind fun t ht => ?_
  obtain ⟨hi, -⟩ := h.here ht
  obtain ⟨hwide, hnext⟩ := h.behind ht
  refine .ite ?_ fun _ => .ite (.pure ?_) fun _ => .throw _
  · exact (follows_indicator (e := .blockSequenceEntry) h hnested ht _ _ _ nofun).imp fun _ h =>
      h.of_le (Nat.le_trans hi hwide.le)
  · exact follows_finish (p := p.advance) hnext hnested hi hwide.le rfl fun _ => rfl

theorem follows_readIndentlessEntry :
    Ensures p.readIndentlessEntry (Follows i (.item :: awaiting p.pending)) := by
  unfold readIndentlessEntry
  refine ensures_peek.bind fun t ht => ?_
  obtain ⟨hi, hhere⟩ := h.here ht
  obtain ⟨hwide, -⟩ := h.behind ht
  refine .ite ?_ fun _ => .pure ?_
  · exact (follows_indicator (e := .indentlessSequenceEntry) h hnested ht _ _ _ nofun).imp
      fun _ h => h.of_le (Nat.le_trans hi hwide.le)
  · exact follows_finish hhere hnested hi (Nat.le_refl _) rfl fun _ => rfl

theorem follows_readBlockMappingKey :
    Ensures p.readBlockMappingKey (Follows i (.key :: awaiting p.pending)) := by
  unfold readBlockMappingKey
  refine ensures_peek.bind fun t ht => ?_
  obtain ⟨hi, hhere⟩ := h.here ht
  obtain ⟨hwide, hnext⟩ := h.behind ht
  refine .ite ?_ fun _ => .ite (.pure ?_) fun _ => .ite (.pure ?_) fun _ => .throw _
  · exact (follows_indicator (e := .blockMappingValue) h hnested ht _ _ _ nofun).imp
      fun _ h => h.of_le (Nat.le_trans hi hwide.le)
  · exact follows_emitEmpty hhere hnested hi nofun rfl
  · exact follows_finish (p := p.advance) hnext hnested hi hwide.le rfl fun _ => rfl

omit hnested in
theorem ensures_afterComma (first : Bool) (closing : String) :
    Ensures (p.afterComma first closing) fun q =>
      Token.From i q.tokens ∧ q.pending = p.pending := by
  unfold afterComma
  refine .ite (.pure ⟨h, rfl⟩) fun _ => ensures_peek.bind fun t ht => .guard (.pure ⟨?_, rfl⟩)
  exact h.sublist (List.drop_sublist 1 _)

omit hnested in
theorem ensures_atEntry (first : Bool) (ending : TokenKind) (closing : String) :
    Ensures (p.atEntry first ending closing) fun q =>
      Token.From i q.tokens ∧ q.pending = p.pending := by
  unfold atEntry
  exact ensures_peek.bind fun t _ => .ite (.pure ⟨h, rfl⟩) fun _ => ensures_afterComma h _ _

theorem follows_flowSequenceEntryHere :
    Ensures p.flowSequenceEntryHere (Follows i (.item :: awaiting p.pending)) := by
  unfold flowSequenceEntryHere
  refine ensures_peek.bind fun t ht => ?_
  obtain ⟨hi, hhere⟩ := h.here ht
  obtain ⟨hwide, hnext⟩ := h.behind ht
  refine .ite (.pure ?_) fun _ => .ite (.pure ?_) fun _ => ?_
  · exact follows_finish (p := p.advance) hnext hnested hi hwide.le rfl fun _ => rfl
  · exact ⟨hi, hwide.le, rfl, hhere, nested_cons nofun hnested⟩
  · exact follows_readNodeThen (e := .flowSequenceEntry false) h hnested _ _ nofun

theorem follows_readFlowSequenceEntry (first : Bool) :
    Ensures (p.readFlowSequenceEntry first) (Follows i (.item :: awaiting p.pending)) := by
  rw [readFlowSequenceEntry_eq]
  refine (ensures_atEntry h _ _ _).bind fun q ⟨hq, hpending⟩ => ?_
  rw [← hpending] at hnested ⊢
  exact follows_flowSequenceEntryHere hq hnested

theorem follows_readFlowPairKey :
    Ensures p.readFlowPairKey (Follows i (.key :: .item :: awaiting p.pending)) := by
  unfold readFlowPairKey
  refine ensures_peek.bind fun t ht => ?_
  obtain ⟨hi, -⟩ := h.here ht
  obtain ⟨hwide, -⟩ := h.behind ht
  exact (follows_indicator (e := .flowPairValue) h hnested ht _ _ _ nofun).imp
    fun _ h => h.of_le (Nat.le_trans hi hwide.le)

theorem follows_readFlowPairEnd :
    Ensures p.readFlowPairEnd (Follows i (.key :: .item :: awaiting p.pending)) := by
  unfold readFlowPairEnd
  refine ensures_peek.bind fun t ht => .pure ?_
  obtain ⟨hi, hhere⟩ := h.here ht
  exact ⟨hi, Nat.le_refl _, rfl, hhere, nested_cons nofun hnested⟩

theorem advances_flowMappingKeyHere :
    Ensures p.flowMappingKeyHere (Advances i (.key :: awaiting p.pending)) := by
  unfold flowMappingKeyHere
  refine ensures_peek.bind fun t ht => ?_
  obtain ⟨hi, hhere⟩ := h.here ht
  obtain ⟨hwide, hnext⟩ := h.behind ht
  have hle := Nat.le_trans hi hwide.le
  refine .ite (.pure ?_) fun _ => .ite ?_ fun _ => .ite (.pure ?_) fun _ => ?_
  · exact (follows_finish (p := p.advance) hnext hnested hi hwide.le rfl fun _ => rfl).advances
      nofun
  · exact (follows_indicator (e := .flowMappingValue) h hnested ht _ _ _ nofun).imp
      fun _ h => (h.of_le hle).advances nofun
  · -- The key is said to stand behind the colon, but the parser still stands before it.
    exact ⟨rfl, t.start.index, hi, .inl ⟨.inl rfl, rfl⟩, hhere, nested_cons nofun hnested⟩
  · exact (follows_readNodeThen (e := .flowMappingNoValue) h hnested _ _ nofun).imp
      fun _ h => h.advances nofun

theorem advances_readFlowMappingKey (first : Bool) :
    Ensures (p.readFlowMappingKey first) (Advances i (.key :: awaiting p.pending)) := by
  rw [readFlowMappingKey_eq]
  refine (ensures_atEntry h _ _ _).bind fun q ⟨hq, hpending⟩ => ?_
  rw [← hpending] at hnested ⊢
  exact advances_flowMappingKeyHere hq hnested

/-! ## Values -/

theorem advances_colon {t : Token} (ht : p.tokens.head? = some t) (hkind : t.kind = .value)
    (kinds : List TokenKind) (inBlock indentless : Bool) {e : Expectation} (he : e.frames ≠ []) :
    Ensures (do
      if ← p.advance.nextIs kinds then return p.advance.emitEmpty t.stop e
      else p.advance.readNodeThen inBlock indentless e)
      (Advances i (Frame.taken e.frames ++ awaiting p.pending)) := by
  obtain ⟨hi, -⟩ := h.here ht
  obtain ⟨hwide, -⟩ := h.behind ht
  have hlt := Nat.lt_of_le_of_lt hi (hwide.lt hkind)
  exact (follows_indicator h hnested ht kinds inBlock indentless he).imp fun r hr =>
    (hr.of_le (Nat.le_of_lt hlt)).advances fun _ => Nat.lt_of_lt_of_le hlt hr.start

/-- Without a colon a value is nothing. -/
theorem advances_noColon {t : Token} (ht : p.tokens.head? = some t) {e : Expectation}
    (he : (Frame.taken e.frames).head? = some .value) :
    Advances i (Frame.taken e.frames ++ awaiting p.pending) (p.emitEmpty t.start e) := by
  obtain ⟨hi, hhere⟩ := h.here ht
  have hne : e.frames ≠ [] := fun hnil => by simp [hnil] at he
  refine ⟨(Frame.taken_taken_append hne _).symm, t.start.index, hi, .inl ⟨.inr ?_, rfl⟩, hhere,
    nested_cons hne hnested⟩
  rw [List.head?_append, he]
  rfl

theorem advances_readBlockMappingValue :
    Ensures p.readBlockMappingValue (Advances i (.value :: awaiting p.pending)) := by
  unfold readBlockMappingValue
  refine ensures_peek.bind fun t ht => ?_
  split
  · exact advances_colon (e := .blockMappingKey) h hnested ht ‹_› _ _ _ nofun
  · exact .pure (advances_noColon (e := .blockMappingKey) h hnested ht rfl)

theorem advances_readFlowPairValue :
    Ensures p.readFlowPairValue (Advances i (.value :: .item :: awaiting p.pending)) := by
  unfold readFlowPairValue
  refine ensures_peek.bind fun t ht => ?_
  split
  · exact advances_colon (e := .flowPairEnd) h hnested ht ‹_› _ _ _ nofun
  · exact .pure (advances_noColon (e := .flowPairEnd) h hnested ht rfl)

theorem advances_readFlowMappingValue :
    Ensures p.readFlowMappingValue (Advances i (.value :: awaiting p.pending)) := by
  unfold readFlowMappingValue
  refine ensures_peek.bind fun t ht => ?_
  split
  · exact advances_colon (e := .flowMappingKey false) h hnested ht ‹_› _ _ _ nofun
  · exact .pure (advances_noColon (e := .flowMappingKey false) h hnested ht rfl)

end Inside

/-! ## Runs -/

/-- Outside of all collections no event is a value. -/
theorem advances_outside {x : Step} (hout : ∀ e ∈ p.pending, e.frames = [])
    (h : Ensures x (Follows i (awaiting p.pending))) :
    Ensures x (Advances i (awaiting p.pending)) := by
  rw [awaiting_eq_nil hout] at h ⊢
  exact h.imp fun _ h => h.advances nofun

/-- **The next event stands behind the last one**, and its frames are what the parser expects
next. -/
theorem advances_step (h : p.Orderly i) : Ensures p.step (Advances i p.frames) := by
  obtain ⟨htokens, hall⟩ := h
  obtain ⟨hbelow, hnested⟩ := List.pairwise_cons.mp hall
  have hout (hnil : p.expected.frames = []) : ∀ e ∈ p.pending, e.frames = [] :=
    fun e he => hbelow e he hnil
  unfold step Parser.frames
  cases hexpected : p.expected with
  | documentStart explicitly =>
    have hout := hout (congrArg Expectation.frames hexpected)
    cases explicitly with
    | false => exact advances_outside hout (follows_readStart htokens hout)
    | true => exact advances_outside hout (follows_readExplicitStart htokens hout)
  | documentContent =>
    have hout := hout (congrArg Expectation.frames hexpected)
    exact advances_outside hout (follows_readDocumentContent htokens hout)
  | documentEnd =>
    have hout := hout (congrArg Expectation.frames hexpected)
    exact advances_outside hout (follows_readEnd htokens hout)
  | node =>
    have hout := hout (congrArg Expectation.frames hexpected)
    exact advances_outside hout (follows_readNode htokens hnested _ _)
  | blockSequenceEntry =>
    exact (follows_readBlockSequenceEntry htokens hnested).imp fun _ h => h.advances nofun
  | indentlessSequenceEntry =>
    exact (follows_readIndentlessEntry htokens hnested).imp fun _ h => h.advances nofun
  | blockMappingKey =>
    exact (follows_readBlockMappingKey htokens hnested).imp fun _ h => h.advances nofun
  | blockMappingValue => exact advances_readBlockMappingValue htokens hnested
  | flowSequenceEntry first =>
    exact (follows_readFlowSequenceEntry htokens hnested first).imp fun _ h => h.advances nofun
  | flowPairKey =>
    exact (follows_readFlowPairKey htokens hnested).imp fun _ h => h.advances nofun
  | flowPairValue => exact advances_readFlowPairValue htokens hnested
  | flowPairEnd =>
    exact (follows_readFlowPairEnd htokens hnested).imp fun _ h => h.advances nofun
  | flowMappingKey first => exact advances_readFlowMappingKey htokens hnested first
  | flowMappingValue => exact advances_readFlowMappingValue htokens hnested
  | flowMappingNoValue =>
    refine ensures_peek.bind fun t ht => .pure ?_
    exact advances_noColon (e := .flowMappingKey false) htokens hnested ht rfl
  | nothing => exact .throw _

/-- The events of a run are in order from the parser on. -/
theorem inOrder_run (h : p.Orderly i) (fuel : Nat) (before : List Event) :
    ∃ events, (run fuel before p).events = before.reverse ++ events ∧
      Event.InOrder i p.frames events := by
  induction fuel generalizing i p before with
  | zero => exact ⟨[], (List.append_nil _).symm, trivial⟩
  | succ fuel ih =>
    unfold run
    split
    · exact ⟨[], (List.append_nil _).symm, trivial⟩
    · split
      · exact ⟨[], (List.append_nil _).symm, trivial⟩
      · rename_i e q hstep
        obtain ⟨hframes, j, hij, hbetween, hq⟩ := advances_step h _ hstep
        obtain ⟨events, hevents, horder⟩ := ih hq (e :: before)
        refine ⟨e :: events, by simpa using hevents, j, hij, hbetween, ?_⟩
        rw [← hframes]
        exact horder

end Parser

/-- **The events of a text are in order.** -/
theorem Event.inOrder_stream (text : List Char) : InOrder 0 [] (stream text).events := by
  have hparser : Parser.Orderly 0
      { tokens := (Token.stream text).tokens, fault := (Token.stream text).fault } :=
    ⟨⟨fun _ _ => Nat.zero_le _, Token.inOrder_stream text⟩, List.pairwise_singleton _ _⟩
  obtain ⟨events, hevents, horder⟩ := Parser.inOrder_run hparser
    (4 * (Token.stream text).tokens.length + 8) []
  unfold stream
  rw [hevents]
  exact horder

end PackLint.Yaml
