import PackLint.Proofs.SkillLine.Alike

/-!
# What skill lines say

What a skill line says is all that is read of it but the places: its mechanic and its clauses with
their names and options, its chance and its argument. It depends on the text of the line alone.

Results:
* `Mechanic.content_parse`: wherever a line stands, and in whatever document, it says the same.
-/

namespace PackLint

variable {src src' : Source}

/-! ## Contents -/

/-- What is configured: a name and its options. -/
structure LineConfig.Content where
  main : Option String
  entries : List (String × String)
deriving DecidableEq

/-- What a trigger says: its name and its argument. -/
structure Trigger.Content where
  name : String
  argument : Option String
deriving DecidableEq

/-- What a condition says. -/
structure Condition.Content where
  onTrigger : Bool
  negated : Bool
  config : LineConfig.Content
deriving DecidableEq

/-- What a skill line says. -/
structure Mechanic.Content where
  config : LineConfig.Content
  targeter : Option LineConfig.Content
  trigger : Option Trigger.Content
  conditions : List Condition.Content
  chance : Option String
  argument : Option String
deriving DecidableEq

/-- The name and the options of a configuration. -/
def LineConfig.content (c : LineConfig) : Content where
  main := c.main.map (·.value)
  entries := c.entries.map fun e => (e.key.value, e.value.value)

/-- The name and the argument of a trigger. -/
def Trigger.content (t : Trigger) : Content where
  name := t.name.value
  argument := t.argument.map (·.value)

/-- What a condition says. -/
def Condition.content (c : Condition) : Content where
  onTrigger := c.onTrigger
  negated := c.negated
  config := c.config.content

/-- What a skill line says. -/
def Mechanic.content (m : Mechanic) : Content where
  config := m.config.content
  targeter := m.targeter.map (·.config.content)
  trigger := m.trigger.map (·.content)
  conditions := m.conditions.map (·.content)
  chance := m.chance.map (·.value)
  argument := m.argument.map (·.value)

/-! ## Configurations and clauses -/

namespace LineConfig

theorem options_eq {entries entries' : List ConfigEntry}
    (h : List.Forall₂ ConfigEntry.Same entries entries') :
    entries.map (fun e => (e.key.value, e.value.value)) =
      entries'.map fun e => (e.key.value, e.value.value) := by
  induction h with
  | nil => rfl
  | cons he _ ih => rw [List.map_cons, List.map_cons, ih, he.1, he.2]

theorem Alike.content_eq {c c' : LineConfig} (h : c.Alike src src' c') :
    c.content = c'.content := by
  unfold content
  rw [h.main, options_eq h.entries]

theorem content_parse (text : List Char) (offset offset' : Int) :
    (parse src text offset).content = (parse src' text offset').content :=
  (alike_parse text offset offset').content_eq

end LineConfig

/-! What a clause says is read of it without its highlights. -/

theorem Targeter.content_withHighlights (t : Targeter) (src : Source) :
    (t.withHighlights src).config.content = t.config.content :=
  rfl

theorem Trigger.content_withHighlights (t : Trigger) (src : Source) :
    (t.withHighlights src).content = t.content :=
  rfl

theorem Condition.content_withHighlights (c : Condition) (src : Source) :
    (c.withHighlights src).content = c.content :=
  rfl

theorem Targeter.content_parse (text : List Char) (offset offset' : Int) :
    (parse src text offset).config.content = (parse src' text offset').config.content :=
  LineConfig.content_parse _ _ _

theorem Trigger.content_parse (text : List Char) (offset offset' : Int) :
    (parse text offset).content = (parse text offset').content := by
  unfold parse
  simp only
  split <;> rfl

theorem Condition.content_parse (text : List Char) (offset offset' : Int) :
    (parse src text offset).content = (parse src' text offset').content := by
  unfold content onTrigger negated parse
  simp only [isSome_markAt?]
  rw [LineConfig.content_parse]

/-! ## Lines -/

namespace Mechanic

variable {m m' : Mechanic}

theorem isSome_targeter (h : m.content = m'.content) :
    m.targeter.isSome = m'.targeter.isSome := by
  have h := congrArg (·.targeter.isSome) h
  simpa only [content, Option.isSome_map] using h

theorem isSome_trigger (h : m.content = m'.content) : m.trigger.isSome = m'.trigger.isSome := by
  have h := congrArg (·.trigger.isSome) h
  simpa only [content, Option.isSome_map] using h

theorem isSome_chance (h : m.content = m'.content) : m.chance.isSome = m'.chance.isSome := by
  have h := congrArg (·.chance.isSome) h
  simpa only [content, Option.isSome_map] using h

theorem isSome_argument (h : m.content = m'.content) :
    m.argument.isSome = m'.argument.isSome := by
  have h := congrArg (·.argument.isSome) h
  simpa only [content, Option.isSome_map] using h

theorem leadingNumericArgument_eq (h : m.content = m'.content) :
    m.leadingNumericArgument = m'.leadingNumericArgument := by
  have h := congrArg (·.config.main.map lowerText) h
  simp only [content, LineConfig.content, Option.map_map] at h
  unfold leadingNumericArgument name?
  exact congrArg (fun name => leadingNumberNames.contains (name.getD "")) h

/-- What is reported adds nothing to what a line says. -/
theorem content_adding (m : Mechanic) (r : Report) : (m.adding r).content = m.content :=
  rfl

theorem content_problem (m : Mechanic) (src : Source) (start stop : Int) (message : String)
    (code : DiagnosticCode) (severity : Severity) :
    (m.problem src start stop message code severity).content = m.content :=
  rfl

/-- What a line says depends on which of two lines it is only by what these say. -/
theorem content_ite {b b' : Bool} {l l' : Mechanic} (hb : b = b') (hm : m.content = m'.content)
    (hl : l.content = l'.content) :
    (if b then m else l).content = (if b' then m' else l').content := by
  subst hb
  cases b
  · exact hl
  · exact hm

theorem content_addTargeter (h : m.content = m'.content) (text : List Char)
    (start stop start' stop' : Int) :
    (m.addTargeter src text start stop).content =
      (m'.addTargeter src' text start' stop').content := by
  have htargeter : ((Targeter.parse src text start).withHighlights src).config.content =
      ((Targeter.parse src' text start').withHighlights src').config.content := by
    rw [Targeter.content_withHighlights, Targeter.content_withHighlights, Targeter.content_parse]
  have hadded := congrArg₂ (fun (c : Content) t => { c with targeter := some t }) h htargeter
  unfold addTargeter
  refine content_ite (isSome_targeter h) ?_ hadded
  simp only [content_problem, content_adding, h]

theorem content_addTrigger (h : m.content = m'.content) (text : List Char)
    (start stop start' stop' : Int) (supportsTriggers : Bool) :
    (m.addTrigger src text start stop supportsTriggers).content =
      (m'.addTrigger src' text start' stop' supportsTriggers).content := by
  have htrigger : ((Trigger.parse text start).withHighlights src).content =
      ((Trigger.parse text start').withHighlights src').content := by
    rw [Trigger.content_withHighlights, Trigger.content_withHighlights, Trigger.content_parse]
  have hadded := congrArg₂ (fun (c : Content) t => { c with trigger := some t }) h htrigger
  unfold addTrigger
  -- Where triggers are allowed a line is the one given, and elsewhere that line and a problem.
  cases supportsTriggers
  all_goals
    refine content_ite (isSome_trigger h) ?_ hadded
    simp only [content_problem, content_adding, h, if_true, if_false, Bool.false_eq_true]

theorem content_addCondition (h : m.content = m'.content) (text : List Char)
    (start start' : Int) :
    (m.addCondition src text start).content = (m'.addCondition src' text start').content := by
  have hcondition : ((Condition.parse src text start).withHighlights src).content =
      ((Condition.parse src' text start').withHighlights src').content := by
    rw [Condition.content_withHighlights, Condition.content_withHighlights,
      Condition.content_parse]
  refine Eq.trans ?_ ((congrArg₂ (fun (c : Content) t =>
    { c with conditions := c.conditions ++ [t] }) h hcondition).trans ?_)
  all_goals simp only [addCondition, content, List.map_append, List.map_cons, List.map_nil]; rfl

theorem content_addNumber (h : m.content = m'.content) (value : String)
    (start stop start' stop' : Int) :
    (m.addNumber src ⟨value, start, stop⟩).content =
      (m'.addNumber src' ⟨value, start', stop'⟩).content := by
  unfold addNumber
  -- The two lines with the number highlighted say the same as before, and no more is read of them.
  have hadding : (m.adding (LineToken.highlight src .number ⟨value, start, stop⟩)).content =
      (m'.adding (LineToken.highlight src' .number ⟨value, start', stop'⟩)).content := h
  generalize m.adding _ = n, m'.adding _ = n' at hadding ⊢
  have hargument : n.argument.isNone = n'.argument.isNone := by
    rw [← Option.not_isSome, ← Option.not_isSome, isSome_argument hadding]
  have hchance : n.chance.isNone = n'.chance.isNone := by
    rw [← Option.not_isSome, ← Option.not_isSome, isSome_chance hadding]
  refine content_ite ?_ ?_ (content_ite ?_ ?_ ?_)
  · rw [leadingNumericArgument_eq hadding, hargument, hchance]
  · exact congrArg (fun c : Content => { c with argument := some value }) hadding
  · rw [isSome_chance hadding, isSome_argument hadding]
  · simp only [content_problem, hadding]
  · have hkept := congrArg (fun c : Content => { c with chance := some value }) hadding
    dsimp only
    split
    · exact hkept
    · exact hkept

/-- A part adds the same to two lines that say the same. -/
theorem content_addPart (h : m.content = m'.content) (text : List Char)
    (start stop start' stop' : Int) (supportsTriggers : Bool) :
    (m.addPart src text start stop supportsTriggers).content =
      (m'.addPart src' text start' stop' supportsTriggers).content := by
  unfold addPart
  split
  · exact content_addTargeter h _ _ _ _ _
  · exact content_addTrigger h _ _ _ _ _ _
  · exact content_addCondition h _ _ _
  · exact content_ite rfl (content_addNumber h _ _ _ _ _) h

theorem content_foldl_addPart (h : m.content = m'.content) (ps : List Part)
    (start stop start' stop' : Part → Int) (supportsTriggers : Bool) :
    (ps.foldl (fun m p => m.addPart src p.text (start p) (stop p) supportsTriggers) m).content =
      (ps.foldl (fun m p => m.addPart src' p.text (start' p) (stop' p) supportsTriggers)
        m').content := by
  induction ps generalizing m m' with
  | nil => exact h
  | cons p ps ih => exact ih (content_addPart h _ _ _ _ _ _)

theorem content_ofFirst (text : List Char) (start start' : Int) :
    (ofFirst src text start).content = (ofFirst src' text start').content :=
  congrArg (fun c : LineConfig.Content => (⟨c, none, none, [], none, none⟩ : Content))
    (LineConfig.content_parse text start start')

/-- **A skill line says the same wherever it stands.** -/
theorem content_parse (line : List Char) (offset offset' : Int) (supportsTriggers : Bool) :
    (parse src line offset supportsTriggers).content =
      (parse src' line offset' supportsTriggers).content := by
  unfold parse
  simp only
  split
  · rfl
  · exact content_foldl_addPart (content_ofFirst _ _ _) _ _ _ _ _ _

end Mechanic

end PackLint
