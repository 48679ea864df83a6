import PackLint.Proofs.SkillLine.Config
import PackLint.Proofs.SkillLine.Escape
import PackLint.SkillLine.Mechanic

/-!
# The tokens of a skill line

A skill line that spells no sentinel is escaped, cut at its spaces, and read part by part, each part
from an offset of its own. All offsets agree with the document: wherever the line stands in it,
every token that is read from the line stands in the document.

Results:
* `Targeter.stands_parse`, `Trigger.stands_parse`, `Condition.stands_parse`: the tokens of the
  clauses stand in the document.
* `Mechanic.tokens_stand`: so do all tokens of a skill line, also those of the targeters, triggers
  and numbers that are one too many.
-/

namespace PackLint

open SkillLine

variable {src : Source} {text : List Char} {offset : Int}

theorem LineConfig.Stands.withHighlights {c : LineConfig} (h : c.Stands src) :
    (c.withHighlights src).Stands src :=
  ⟨h.main, h.openBrace, h.closeBrace, h.entries⟩

/-- The mark that a clause starts with. -/
theorem stands_first (hs : Shows src text offset) {x : Char} (hx : Outer x)
    (hhead : text.head? = some x) {value : String} (hvalue : value.toList = [x]) :
    (⟨value, offset, sourceOffset text offset 1⟩ : LineToken).Stands src := by
  have hstart : sourceOffset text offset 0 = offset := by
    rw [sourceOffset, sourceCount_eq (.zero text)]
    exact Int.zero_add offset
  have hmark := hs.stands_mark hx (i := 0) (by rwa [← List.head?_eq_getElem?]) hvalue
  rwa [hstart] at hmark

/-! ## Targeters -/

/-- The tokens of a targeter stand in the document. -/
structure Targeter.Stands (src : Source) (t : Targeter) : Prop where
  mark : t.mark.Stands src
  config : t.config.Stands src

theorem Targeter.Stands.withHighlights {t : Targeter} (h : t.Stands src) :
    (t.withHighlights src).Stands src :=
  ⟨h.mark, ⟨h.config.main, h.config.openBrace, h.config.closeBrace, h.config.entries⟩⟩

/-- The tokens of a targeter stand in the document. -/
theorem Targeter.stands_parse (hs : Shows src text offset) (hhead : text.head? = some '@') :
    (Targeter.parse src text offset).Stands src := by
  have hb := (boundary_of_outer (by decide : Outer '@')
    (by rwa [← List.head?_eq_getElem?])).2
  exact ⟨stands_first hs (by decide) hhead rfl, LineConfig.stands_parse (hs.drop hb)⟩

/-! ## Triggers -/

/-- The tokens of a trigger stand in the document. -/
structure Trigger.Stands (src : Source) (t : Trigger) : Prop where
  tilde : t.tilde.Stands src
  name : t.name.Stands src
  colon : ∀ c ∈ t.colon, c.Stands src
  argument : ∀ a ∈ t.argument, a.Stands src

theorem Trigger.Stands.withHighlights {t : Trigger} (h : t.Stands src) :
    (t.withHighlights src).Stands src :=
  ⟨h.tilde, h.name, h.colon, h.argument⟩

/-- The tokens of a trigger stand in the document. -/
theorem Trigger.stands_parse (hs : Shows src text offset) (hhead : text.head? = some '~') :
    (Trigger.parse text offset).Stands src := by
  have hfirst : text[0]? = some '~' := by rwa [← List.head?_eq_getElem?]
  have hb := (boundary_of_outer (by decide : Outer '~') hfirst).2
  have htilde := hs.stands_covering (.zero text) hb (Nat.zero_le 1)
  unfold Trigger.parse
  simp only
  cases hcolon : text.findIdx? (· = ':') with
  | none =>
    exact ⟨htilde, hs.stands_covering hb (boundary_length text) hb.le_length,
      (fun _ h => nomatch h), (fun _ h => nomatch h)⟩
  | some i =>
    have hi := LineConfig.getElem?_of_findIdx? hcolon
    obtain ⟨hbefore, hbehind⟩ := boundary_of_outer (by decide : Outer ':') hi
    have hpos : 1 ≤ i := LineConfig.findIdx?_pos hcolon hhead (by decide)
    refine ⟨htilde, hs.stands_covering hb hbefore hpos, ?_, ?_⟩
    · rintro t ht
      cases ht
      exact hs.stands_covering hbefore hbehind (Nat.le_succ i)
    · rintro t ht
      cases ht
      exact hs.stands_covering hbehind (boundary_length text) hbehind.le_length

/-! ## Conditions -/

/-- The tokens of a condition stand in the document. -/
structure Condition.Stands (src : Source) (c : Condition) : Prop where
  question : c.question.Stands src
  tilde : ∀ t ∈ c.tilde, t.Stands src
  negation : ∀ t ∈ c.negation, t.Stands src
  config : c.config.Stands src

theorem Condition.Stands.withHighlights {c : Condition} (h : c.Stands src) :
    (c.withHighlights src).Stands src :=
  ⟨h.question, h.tilde, h.negation,
    ⟨h.config.main, h.config.openBrace, h.config.closeBrace, h.config.entries⟩⟩

/-- A mark that is there stands in the document, and the text goes on behind it. -/
theorem Condition.stands_markAt? (hs : Shows src text offset) {x : Char} (hx : Outer x) {i : Nat}
    (hb : Boundary text i) :
    (∀ t ∈ Condition.markAt? text offset i x, t.Stands src) ∧
      Boundary text (if (Condition.markAt? text offset i x).isSome then i + 1 else i) := by
  unfold Condition.markAt?
  split
  · rename_i hi
    refine ⟨?_, (boundary_of_outer hx hi).2⟩
    rintro t ht
    cases ht
    exact hs.stands_mark hx hi (String.toList_singleton x)
  · exact ⟨(fun _ h => nomatch h), hb⟩

/-- The tokens of a condition stand in the document. -/
theorem Condition.stands_parse (hs : Shows src text offset) (hhead : text.head? = some '?') :
    (Condition.parse src text offset).Stands src := by
  have hb := (boundary_of_outer (by decide : Outer '?')
    (by rwa [← List.head?_eq_getElem?])).2
  obtain ⟨htilde, hb⟩ := Condition.stands_markAt? hs (by decide : Outer '~') hb
  obtain ⟨hnegation, hb⟩ := Condition.stands_markAt? hs (by decide : Outer '!') hb
  exact ⟨stands_first hs (by decide) hhead rfl, htilde, hnegation,
    LineConfig.stands_parse (hs.drop hb)⟩

namespace Mechanic

/-! ## Parts -/

/-- A part of an escaped line lies between boundaries. -/
structure Part.Fits (escaped : List Char) (p : Part) : Prop where
  start : Boundary escaped p.start
  stop : Boundary escaped (p.start + p.text.length)
  text_eq : (escaped.take (p.start + p.text.length)).drop p.start = p.text

theorem Part.fits_of_append {before middle after : List Char}
    (hstart : Boundary (before ++ middle ++ after) before.length)
    (hstop : Boundary (before ++ middle ++ after) (before.length + middle.length)) :
    Part.Fits (before ++ middle ++ after) ⟨before.length, middle⟩ where
  start := hstart
  stop := hstop
  text_eq := by
    simp only
    rw [← List.length_append, List.take_left, List.drop_left]

/-- The current run starts behind `before`. -/
theorem fits_partsFrom (before run cs : List Char)
    (hb : Boundary (before ++ run.reverse ++ cs) before.length) :
    ∀ p ∈ partsFrom (before.length + run.length) run cs,
      p.Fits (before ++ run.reverse ++ cs) := by
  induction cs generalizing before run with
  | nil =>
    intro p hp
    unfold partsFrom at hp
    split at hp
    · cases hp
    · rw [List.mem_singleton.mp hp, Nat.add_sub_cancel]
      refine Part.fits_of_append hb ?_
      have hend := boundary_length (before ++ run.reverse ++ [])
      rwa [List.append_nil, List.length_append, ← List.append_nil (before ++ run.reverse)] at hend
  | cons c cs ih =>
    intro p hp
    unfold partsFrom at hp
    split at hp
    · rename_i hc
      have hspace : (before ++ run.reverse ++ c :: cs)[before.length + run.length]? = some ' ' := by
        rw [hc, ← @List.length_reverse _ run, ← List.length_append,
          List.getElem?_append_right (Nat.le_refl _), Nat.sub_self]
        rfl
      obtain ⟨hstop, hnext⟩ := boundary_of_outer (by decide : Outer ' ') hspace
      have hbehind := ih (before ++ run.reverse ++ [c]) []
      rw [List.reverse_nil, List.append_nil, List.append_assoc _ [c] cs, List.singleton_append,
        List.length_append, List.length_append, List.length_reverse] at hbehind
      split at hp
      · rename_i hrun
        rw [List.isEmpty_iff.mp hrun] at hbehind hnext hp ⊢
        exact hbehind hnext p hp
      · rcases List.mem_cons.mp hp with rfl | hp
        · rw [Nat.add_sub_cancel]
          refine Part.fits_of_append hb ?_
          rwa [List.length_reverse]
        · exact hbehind hnext p hp
    · have hih := ih before (c :: run)
      rw [List.reverse_cons, List.append_assoc before, List.append_assoc run.reverse,
        ← List.append_assoc before] at hih
      exact hih hb p hp

theorem fits_parts (escaped : List Char) : ∀ p ∈ parts escaped, p.Fits escaped :=
  fits_partsFrom [] [] escaped (.zero _)

/-- All tokens that `addPart` reads from a part stand in the document, whether or not the mechanic
keeps what is read. -/
structure Part.Stands (src : Source) (escaped : List Char) (offset : Int) (p : Part) : Prop where
  targeter : p.text.head? = some '@' →
    (Targeter.parse src p.text (sourceOffset escaped offset p.start)).Stands src
  trigger : p.text.head? = some '~' →
    (Trigger.parse p.text (sourceOffset escaped offset p.start)).Stands src
  condition : p.text.head? = some '?' →
    (Condition.parse src p.text (sourceOffset escaped offset p.start)).Stands src
  whole : LineToken.Stands src
    ⟨String.ofList (unescape p.text), sourceOffset escaped offset p.start,
      sourceOffset escaped offset (p.start + p.text.length)⟩

theorem Part.Fits.stands {escaped : List Char} {p : Part} (hp : p.Fits escaped)
    (hs : Shows src escaped offset) : p.Stands src escaped offset := by
  have hle : p.start ≤ p.start + p.text.length := Nat.le_add_right _ _
  have hshows := hs.slice hp.start hp.stop hle
  rw [hp.text_eq] at hshows
  have hwhole := hs.stands_covering hp.start hp.stop hle
  rw [LineToken.covering, hp.text_eq] at hwhole
  exact ⟨Targeter.stands_parse hshows, Trigger.stands_parse hshows, Condition.stands_parse hshows,
    hwhole⟩

/-! ## Reading the parts -/

/-- The tokens that a mechanic keeps stand in the document. -/
structure Stands (src : Source) (m : Mechanic) : Prop where
  config : m.config.Stands src
  targeter : ∀ t ∈ m.targeter, t.Stands src
  trigger : ∀ t ∈ m.trigger, t.Stands src
  conditions : ∀ c ∈ m.conditions, c.Stands src
  chance : ∀ t ∈ m.chance, t.Stands src
  argument : ∀ t ∈ m.argument, t.Stands src

variable {m : Mechanic}

theorem Stands.adding (h : m.Stands src) (r : Report) : (m.adding r).Stands src :=
  ⟨h.config, h.targeter, h.trigger, h.conditions, h.chance, h.argument⟩

theorem Stands.problem (h : m.Stands src) (start stop : Int) (message : String)
    (code : DiagnosticCode) (severity : Severity) :
    (m.problem src start stop message code severity).Stands src :=
  ⟨h.config, h.targeter, h.trigger, h.conditions, h.chance, h.argument⟩

theorem Stands.addTargeter (h : m.Stands src)
    (hread : (Targeter.parse src text offset).Stands src) (stop : Int) :
    (m.addTargeter src text offset stop).Stands src := by
  unfold Mechanic.addTargeter
  simp only
  split
  · exact (h.adding _).problem _ _ _ _ _
  · refine { h with targeter := ?_ }
    rintro t ht
    cases ht
    exact hread.withHighlights

theorem Stands.addTrigger (h : m.Stands src) (hread : (Trigger.parse text offset).Stands src)
    (stop : Int) (supportsTriggers : Bool) :
    (m.addTrigger src text offset stop supportsTriggers).Stands src := by
  unfold Mechanic.addTrigger
  simp only
  generalize hbase : (if supportsTriggers then _ else _ : Mechanic) = base
  have hm : base.Stands src := by
    rw [← hbase]
    split
    · exact h.adding _
    · exact (h.adding _).problem _ _ _ _ _
  split
  · exact hm.problem _ _ _ _ _
  · refine { hm with trigger := ?_ }
    rintro t ht
    cases ht
    exact hread.withHighlights

theorem Stands.addCondition (h : m.Stands src)
    (hread : (Condition.parse src text offset).Stands src) :
    (m.addCondition src text offset).Stands src := by
  refine { h with conditions := ?_ }
  exact List.forall_mem_append.mpr
    ⟨h.conditions, List.forall_mem_singleton.mpr hread.withHighlights⟩

theorem Stands.addNumber (h : m.Stands src) {token : LineToken} (ht : token.Stands src) :
    (m.addNumber src token).Stands src := by
  have hsome : ∀ t ∈ some token, t.Stands src := by
    rintro t ht
    cases ht
    exact ht
  unfold Mechanic.addNumber
  simp only
  split
  · exact { h with argument := hsome }
  · split
    · exact (h.adding _).problem _ _ _ _ _
    · have hchance : Stands src
          { m.adding (token.highlight src .number) with chance := some token } :=
        { h with chance := hsome }
      split
      · exact hchance
      · exact hchance.problem _ _ _ _ _

theorem Stands.addPart (h : m.Stands src) {escaped : List Char} {p : Part}
    (hp : p.Stands src escaped offset) (supportsTriggers : Bool) :
    (m.addPart src p.text (sourceOffset escaped offset p.start)
      (sourceOffset escaped offset (p.start + p.text.length)) supportsTriggers).Stands src := by
  unfold Mechanic.addPart
  split
  · rename_i hhead
    exact h.addTargeter (hp.targeter hhead) _
  · rename_i hhead
    exact h.addTrigger (hp.trigger hhead) _ _
  · rename_i hhead
    exact h.addCondition (hp.condition hhead)
  · simp only
    split
    · exact h.addNumber hp.whole
    · exact h.problem _ _ _ _ _

theorem Stands.addParts (h : m.Stands src) {escaped : List Char} {ps : List Part}
    (hps : ∀ p ∈ ps, p.Stands src escaped offset) (supportsTriggers : Bool) :
    (ps.foldl (fun m p => m.addPart src p.text (sourceOffset escaped offset p.start)
      (sourceOffset escaped offset (p.start + p.text.length)) supportsTriggers) m).Stands src := by
  induction ps generalizing m with
  | nil => exact h
  | cons p ps ih =>
    obtain ⟨hp, hps⟩ := List.forall_mem_cons.mp hps
    exact ih (h.addPart hp supportsTriggers) hps

theorem stands_of_config {config : LineConfig} (h : config.Stands src) (report : Report) :
    Stands src { config, report } where
  config := h
  targeter _ h := nomatch h
  trigger _ h := nomatch h
  conditions _ h := nomatch h
  chance _ h := nomatch h
  argument _ h := nomatch h

theorem stands_parse_escaped {line : List Char} (hs : Shows src (escape line) offset)
    (supportsTriggers : Bool) : (parse src line offset supportsTriggers).Stands src := by
  have hfits := fits_parts (escape line)
  unfold parse
  simp only
  split
  · exact stands_of_config (LineConfig.stands_unread _ _ _) _
  · rename_i first others hparts
    rw [hparts] at hfits
    obtain ⟨hfirst, hothers⟩ := List.forall_mem_cons.mp hfits
    refine Stands.addParts ?_ (fun p hp => (hothers p hp).stands hs) supportsTriggers
    have hshows := hs.slice hfirst.start hfirst.stop (Nat.le_add_right _ _)
    rw [hfirst.text_eq] at hshows
    exact stands_of_config (LineConfig.stands_parse hshows).withHighlights _

/-- **Wherever a plain skill line stands in a document, all of its tokens stand in the
document**: those that the mechanic keeps, and those of every part behind the first, of which a
surplus targeter, trigger or number is read and not kept. -/
theorem tokens_stand {line : List Char} (hplain : Plain line) {start : Nat}
    (hline : src.slice start (start + line.length) = line) (supportsTriggers : Bool) :
    (parse src line start supportsTriggers).Stands src ∧
      ∀ p ∈ (parts (escape line)).drop 1, p.Stands src (escape line) start := by
  by_cases hempty : line = []
  · rw [hempty]
    exact ⟨stands_of_config (LineConfig.stands_unread _ _ _) _, fun _ hp => nomatch hp⟩
  · have hread := unescape_escape hplain
    have hs : Shows src (escape line) start := by
      refine shows_of_slice ?_ ?_
      · rwa [hread]
      · rwa [hread]
    exact ⟨stands_parse_escaped hs supportsTriggers,
      fun p hp => (fits_parts _ p (List.mem_of_mem_drop hp)).stands hs⟩

/-- A line with a space in its block and a second targeter, behind the dash of a list. -/
theorem tokens_stand_in_list :
    Plain ['a', '{', ' ', '}', ' ', '@', 'x', ' ', '@', 'y'] ∧
      (Source.ofList
          ['-', ' ', 'a', '{', ' ', '}', ' ', '@', 'x', ' ', '@', 'y']).slice 2 (2 + 10) =
        ['a', '{', ' ', '}', ' ', '@', 'x', ' ', '@', 'y'] ∧
      (parse (.ofList ['-', ' ', 'a', '{', ' ', '}', ' ', '@', 'x', ' ', '@', 'y'])
        ['a', '{', ' ', '}', ' ', '@', 'x', ' ', '@', 'y'] (2 : Nat) true).Stands
        (.ofList ['-', ' ', 'a', '{', ' ', '}', ' ', '@', 'x', ' ', '@', 'y']) ∧
      ∀ p ∈ (parts (escape ['a', '{', ' ', '}', ' ', '@', 'x', ' ', '@', 'y'])).drop 1,
        p.Stands (.ofList ['-', ' ', 'a', '{', ' ', '}', ' ', '@', 'x', ' ', '@', 'y'])
          (escape ['a', '{', ' ', '}', ' ', '@', 'x', ' ', '@', 'y']) (2 : Nat) := by
  have hplain : Plain ['a', '{', ' ', '}', ' ', '@', 'x', ' ', '@', 'y'] := by
    unfold Plain
    decide
  have hline : (Source.ofList
        ['-', ' ', 'a', '{', ' ', '}', ' ', '@', 'x', ' ', '@', 'y']).slice 2 (2 + 10) =
      ['a', '{', ' ', '}', ' ', '@', 'x', ' ', '@', 'y'] := by
    rw [Source.slice_eq]
    rfl
  exact ⟨hplain, hline, tokens_stand hplain hline true⟩

end Mechanic

end PackLint
