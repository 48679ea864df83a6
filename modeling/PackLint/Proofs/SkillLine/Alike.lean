import PackLint.Proofs.Report.Alike
import PackLint.SkillLine.Mechanic
import Mathlib.Tactic.SplitIfs

/-!
# Skill lines at other places

What is said of a skill line depends on its text alone: wherever it stands, the same problems are
found and the same skill is referred to (`Mechanic.alike_parse`, `Mechanic.skillReference?_eq`).
-/

namespace PackLint

variable {src src' : Source}

/-! ## Highlights -/

namespace LineToken

theorem mute_highlight (color : TextClass) (t : LineToken) : (t.highlight src color).Mute := by
  unfold highlight
  split_ifs
  · exact Report.mute_ofHighlight _
  · exact Report.mute_empty

theorem mute_highlight? (color : TextClass) (t : Option LineToken) :
    (LineToken.highlight? src color t).Mute := by
  cases t with
  | none => exact Report.mute_empty
  | some t => exact t.mute_highlight color

theorem alike_highlight (color color' : TextClass) (t t' : LineToken) :
    Report.Alike src src' (t.highlight src color) (t'.highlight src' color') :=
  .of_mute (t.mute_highlight color) (t'.mute_highlight color')

theorem alike_highlight? (color color' : TextClass) (t t' : Option LineToken) :
    Report.Alike src src' (LineToken.highlight? src color t)
      (LineToken.highlight? src' color' t') :=
  .of_mute (mute_highlight? color t) (mute_highlight? color' t')

end LineToken

/-- A report that says the same as one at another place, with one more diagnostic. -/
theorem Report.Alike.merge_ofDiagnostic {r r' : Report} (h : Alike src src' r r')
    (range range' : Range) (message : String) (code : DiagnosticCode) (severity : Severity) :
    Alike src src' (r.merge (.ofDiagnostic { range, message, code, severity }))
      (r'.merge (.ofDiagnostic { range := range', message, code, severity })) :=
  h.merge ⟨.cons ⟨rfl, rfl, Or.inl rfl⟩ .nil, .nil, .nil⟩

/-! ## Configurations -/

/-- Two entries have the same key and value. -/
def ConfigEntry.Same (e e' : ConfigEntry) : Prop :=
  e.key.value = e'.key.value ∧ e.value.value = e'.value.value

namespace LineConfig

/-- Two configurations have been read from the same text and say the same. -/
structure Alike (src src' : Source) (c c' : LineConfig) : Prop where
  source : c.source = c'.source
  main : c.main.map (·.value) = c'.main.map (·.value)
  entries : List.Forall₂ ConfigEntry.Same c.entries c'.entries
  report : Report.Alike src src' c.report c'.report

variable {c c' : LineConfig}

theorem Alike.problem (h : Alike src src' c c') (start stop start' stop' : Nat) (message : String)
    (code : DiagnosticCode) :
    Alike src src' (c.problem src start stop message code)
      (c'.problem src' start' stop' message code) :=
  ⟨h.source, h.main, h.entries, h.report.merge_ofDiagnostic _ _ _ _ _⟩

theorem any_key_eq {entries entries' : List ConfigEntry}
    (h : List.Forall₂ ConfigEntry.Same entries entries') (key : String) :
    (entries.any (·.key.value = key)) = entries'.any (·.key.value = key) := by
  induction h with
  | nil => rfl
  | cons he _ ih => rw [List.any_cons, List.any_cons, ih, he.1]

theorem alike_ite {b b' : Bool} {d d' : LineConfig} (hb : b = b') (hc : Alike src src' c c')
    (hd : Alike src src' d d') : Alike src src' (if b then c else d) (if b' then c' else d') := by
  subst hb
  cases b
  · exact hd
  · exact hc

theorem Alike.append (h : Alike src src' c c') {e e' : ConfigEntry} (he : e.Same e') :
    Alike src src' { c with entries := c.entries ++ [e] }
      { c' with entries := c'.entries ++ [e'] } :=
  ⟨h.source, h.main, List.rel_append h.entries (.cons he .nil), h.report⟩

theorem Alike.addPiece (h : Alike src src' c c') (p : Piece) :
    Alike src src' (c.addPiece src p) (c'.addPiece src' p) := by
  obtain ⟨source, offset, main, openBrace, closeBrace, entries, report⟩ := c
  obtain ⟨source', offset', main', openBrace', closeBrace', entries', report'⟩ := c'
  obtain rfl : source = source' := h.source
  unfold LineConfig.addPiece
  simp only [token, LineToken.covering]
  split
  · exact h
  · split
    · exact h.problem _ _ _ _ _ _
    · refine alike_ite (any_key_eq h.entries _) ?_ ?_
      · refine (h.append ?_).problem _ _ _ _ _ _
        exact ⟨rfl, rfl⟩
      · refine h.append ?_
        exact ⟨rfl, rfl⟩

theorem Alike.foldl_addPiece (h : Alike src src' c c') (ps : List Piece) :
    Alike src src' (ps.foldl (LineConfig.addPiece src) c)
      (ps.foldl (LineConfig.addPiece src') c') := by
  induction ps generalizing c c' with
  | nil => exact h
  | cons p ps ih => exact ih (h.addPiece p)

theorem Alike.withMain (h : Alike src src' c c') (stop : Nat)
    (openBrace openBrace' closeBrace closeBrace' : Option LineToken) :
    Alike src src'
      { c with main := some (c.token 0 stop), openBrace, closeBrace }
      { c' with
        main := some (c'.token 0 stop), openBrace := openBrace', closeBrace := closeBrace' } := by
  refine ⟨h.source, ?_, h.entries, h.report⟩
  simp only [Option.map_some, token, LineToken.covering, h.source]

theorem Alike.readBlock (h : Alike src src' c c') :
    Alike src src' (c.readBlock src) (c'.readBlock src') := by
  have hbraces : ∀ start stop start' stop', Alike src src'
      (if c'.source.count '{' = c'.source.count '}' then c
        else c.problem src start stop "Mismatched braces!" .mismatchedBraces)
      (if c'.source.count '{' = c'.source.count '}' then c'
        else c'.problem src' start' stop' "Mismatched braces!" .mismatchedBraces) := by
    intro start stop start' stop'
    split
    · exact h
    · exact h.problem _ _ _ _ _ _
  unfold LineConfig.readBlock
  simp only [h.source]
  split
  · exact (hbraces _ _ _ _).withMain _ _ _ _ _
  · exact ((hbraces _ _ _ _).withMain _ _ _ _ _).foldl_addPiece _

theorem Alike.readBracket (h : Alike src src' c c') :
    Alike src src' (c.readBracket src) (c'.readBracket src') := by
  obtain ⟨source, offset, main, openBrace, closeBrace, entries, report⟩ := c
  obtain ⟨source', offset', main', openBrace', closeBrace', entries', report'⟩ := c'
  obtain rfl : source = source' := h.source
  unfold LineConfig.readBracket
  simp only
  split
  · split
    · exact h.withMain _ _ _ _ _
    · exact h.problem _ _ _ _ _ _
  · exact h.problem _ _ _ _ _ _

theorem alike_parse (text : List Char) (offset offset' : Int) :
    Alike src src' (parse src text offset) (parse src' text offset') := by
  have h : Alike src src' { source := text, offset } { source := text, offset := offset' } :=
    ⟨rfl, rfl, .nil, .empty⟩
  unfold parse read
  simp only
  split
  · exact h.readBlock
  · split
    · exact h.readBracket
    · exact h.withMain _ _ _ _ _

theorem mute_highlights (c : LineConfig) : (c.highlights src).Mute := by
  refine Report.mute_mergeAll fun r hr => ?_
  rcases List.mem_cons.mp hr with rfl | hr
  · exact LineToken.mute_highlight? _ _
  · rcases List.mem_cons.mp hr with rfl | hr
    · exact LineToken.mute_highlight? _ _
    · obtain ⟨e, -, rfl⟩ := List.mem_map.mp hr
      refine Report.mute_mergeAll fun r hr => ?_
      simp only [List.mem_cons, List.not_mem_nil, or_false] at hr
      rcases hr with rfl | rfl | rfl | rfl
      · exact LineToken.mute_highlight _ _
      · exact LineToken.mute_highlight _ _
      · exact LineToken.mute_highlight _ _
      · exact LineToken.mute_highlight? _ _

theorem Alike.withHighlights (h : Alike src src' c c') :
    Alike src src' (c.withHighlights src) (c'.withHighlights src') :=
  ⟨h.source, h.main, h.entries, h.report.merge (.of_mute c.mute_highlights c'.mute_highlights)⟩

theorem Alike.get?_value (h : Alike src src' c c') (keys : List String) :
    (c.get? keys).map (·.value.value) = (c'.get? keys).map (·.value.value) := by
  obtain ⟨source, offset, main, openBrace, closeBrace, entries, report⟩ := c
  obtain ⟨source', offset', main', openBrace', closeBrace', entries', report'⟩ := c'
  have hentries : List.Forall₂ ConfigEntry.Same entries entries' := h.entries
  unfold get?
  simp only
  clear h
  induction hentries with
  | nil => rfl
  | cons he _ ih =>
    rw [List.find?_cons, List.find?_cons, he.1]
    split
    · exact congrArg some he.2
    · exact ih

end LineConfig

/-! ## Clauses -/

theorem Targeter.alike_read (text : List Char) (offset offset' : Int) :
    Report.Alike src src' ((Targeter.parse src text offset).withHighlights src).report
      ((Targeter.parse src' text offset').withHighlights src').report := by
  refine (LineConfig.alike_parse _ _ _).withHighlights.report.merge (.mergeAll ?_)
  exact .cons (LineToken.alike_highlight _ _ _ _) (.cons (LineToken.alike_highlight? _ _ _ _) .nil)

theorem Condition.isSome_markAt? (text : List Char) (offset : Int) (idx : Nat) (c : Char) :
    (markAt? text offset idx c).isSome = decide (text[idx]? = some c) := by
  unfold markAt?
  split_ifs with h <;> simp [h]

theorem Condition.alike_read (text : List Char) (offset offset' : Int) :
    Report.Alike src src' ((Condition.parse src text offset).withHighlights src).report
      ((Condition.parse src' text offset').withHighlights src').report := by
  refine Report.Alike.merge ?_ (.mergeAll ?_)
  · unfold Condition.parse
    simp only [Condition.isSome_markAt?]
    exact (LineConfig.alike_parse _ _ _).withHighlights.report
  · exact .cons (LineToken.alike_highlight _ _ _ _)
      (.cons (LineToken.alike_highlight? _ _ _ _) (.cons (LineToken.alike_highlight? _ _ _ _)
        (.cons (LineToken.alike_highlight? _ _ _ _) .nil)))

theorem Trigger.alike_read (text : List Char) (offset offset' : Int) :
    Report.Alike src src' ((Trigger.parse text offset).withHighlights src).report
      ((Trigger.parse text offset').withHighlights src').report := by
  have h : Report.Alike src src' (Trigger.parse text offset).report
      (Trigger.parse text offset').report := by
    unfold Trigger.parse
    simp only
    split <;> exact .empty
  refine h.merge (.mergeAll ?_)
  exact .cons (LineToken.alike_highlight _ _ _ _) (.cons (LineToken.alike_highlight _ _ _ _)
    (.cons (LineToken.alike_highlight? _ _ _ _) (.cons (LineToken.alike_highlight? _ _ _ _) .nil)))

/-! ## Lines -/

namespace Mechanic

/-- Two skill lines have the same parts and are said the same of. -/
structure Alike (src src' : Source) (m m' : Mechanic) : Prop where
  config : LineConfig.Alike src src' m.config m'.config
  targeter : m.targeter.isSome = m'.targeter.isSome
  trigger : m.trigger.isSome = m'.trigger.isSome
  chance : m.chance.isSome = m'.chance.isSome
  argument : m.argument.isSome = m'.argument.isSome
  report : Report.Alike src src' m.report m'.report

variable {m m' : Mechanic}

theorem Alike.problem (h : Alike src src' m m') (start stop start' stop' : Int) (message : String)
    (code : DiagnosticCode) (severity : Severity) :
    Alike src src' (m.problem src start stop message code severity)
      (m'.problem src' start' stop' message code severity) :=
  { h with report := h.report.merge_ofDiagnostic _ _ _ _ _ }

theorem Alike.adding (h : Alike src src' m m') {r r' : Report} (hr : Report.Alike src src' r r') :
    Alike src src' (m.adding r) (m'.adding r') :=
  { h with report := h.report.merge hr }

theorem alike_ite {b b' : Bool} {l l' : Mechanic} (hb : b = b') (hm : Alike src src' m m')
    (hl : Alike src src' l l') : Alike src src' (if b then m else l) (if b' then m' else l') := by
  subst hb
  cases b
  · exact hl
  · exact hm

theorem Alike.name?_eq (h : Alike src src' m m') : m.name? = m'.name? := by
  have hmain := congrArg (Option.map lowerText) h.config.main
  rw [Option.map_map, Option.map_map] at hmain
  exact hmain

theorem Alike.addTargeter (h : Alike src src' m m') (text : List Char)
    (start stop start' stop' : Int) :
    Alike src src' (m.addTargeter src text start stop) (m'.addTargeter src' text start' stop') := by
  have ha := h.adding (Targeter.alike_read text start start')
  exact alike_ite h.targeter (ha.problem _ _ _ _ _ _ _) { ha with targeter := rfl }

theorem Alike.addTrigger (h : Alike src src' m m') (text : List Char)
    (start stop start' stop' : Int) (supportsTriggers : Bool) :
    Alike src src' (m.addTrigger src text start stop supportsTriggers)
      (m'.addTrigger src' text start' stop' supportsTriggers) := by
  have ha := h.adding (Trigger.alike_read text start start')
  have hs := alike_ite (b := supportsTriggers) rfl ha (ha.problem start stop start' stop'
    "Triggers are not supported in this environment! (e.g. metaskills)" .triggersNotAllowed .error)
  exact alike_ite hs.trigger (hs.problem _ _ _ _ _ _ _) { hs with trigger := rfl }

theorem Alike.addNumber (h : Alike src src' m m') (value : String) (start stop start' stop' : Int) :
    Alike src src' (m.addNumber src ⟨value, start, stop⟩)
      (m'.addNumber src' ⟨value, start', stop'⟩) := by
  have ha := h.adding (LineToken.alike_highlight .number .number ⟨value, start, stop⟩
    ⟨value, start', stop'⟩)
  have hleading : m.leadingNumericArgument = m'.leadingNumericArgument := by
    unfold leadingNumericArgument
    rw [h.name?_eq]
  have hargument : m.argument.isNone = m'.argument.isNone := by
    rw [← Option.not_isSome, ← Option.not_isSome, h.argument]
  have hchance : m.chance.isNone = m'.chance.isNone := by
    rw [← Option.not_isSome, ← Option.not_isSome, h.chance]
  refine alike_ite ?_ { ha with argument := rfl } (alike_ite ?_ ?_ ?_)
  · exact congrArg₂ and (congrArg₂ and hleading hargument) hchance
  · exact congrArg₂ or h.chance h.argument
  · exact ha.problem _ _ _ _ _ _ _
  · have hkept : Alike src src'
        { m.adding (LineToken.highlight src .number ⟨value, start, stop⟩) with
          chance := some ⟨value, start, stop⟩ }
        { m'.adding (LineToken.highlight src' .number ⟨value, start', stop'⟩) with
          chance := some ⟨value, start', stop'⟩ } := { ha with chance := rfl }
    exact alike_ite rfl hkept (hkept.problem _ _ _ _ _ _ _)

theorem Alike.addPart (h : Alike src src' m m') (text : List Char) (start stop start' stop' : Int)
    (supportsTriggers : Bool) :
    Alike src src' (m.addPart src text start stop supportsTriggers)
      (m'.addPart src' text start' stop' supportsTriggers) := by
  unfold Mechanic.addPart
  split
  · exact h.addTargeter _ _ _ _ _
  · exact h.addTrigger _ _ _ _ _ _
  · have ha := h.adding (Condition.alike_read text start start')
    exact ⟨ha.config, ha.targeter, ha.trigger, ha.chance, ha.argument, ha.report⟩
  · exact alike_ite rfl (h.addNumber _ _ _ _ _) (h.problem _ _ _ _ _ _ _)

theorem Alike.foldl_addPart (h : Alike src src' m m') (ps : List Part)
    (start stop start' stop' : Part → Int) (supportsTriggers : Bool) :
    Alike src src'
      (ps.foldl (fun m p => m.addPart src p.text (start p) (stop p) supportsTriggers) m)
      (ps.foldl (fun m p => m.addPart src' p.text (start' p) (stop' p) supportsTriggers) m') := by
  induction ps generalizing m m' with
  | nil => exact h
  | cons p ps ih => exact ih (h.addPart _ _ _ _ _ _)

theorem alike_ofFirst (text : List Char) (start start' : Int) :
    Alike src src' (ofFirst src text start) (ofFirst src' text start') := by
  have hconfig : LineConfig.Alike src src' _ _ :=
    (LineConfig.alike_parse text start start').withHighlights
  exact ⟨hconfig, rfl, rfl, rfl, rfl, hconfig.report.merge (LineToken.alike_highlight? _ _ _ _)⟩

/-- **The same is said of a skill line wherever it stands.** -/
theorem alike_parse (line : List Char) (offset offset' : Int) (supportsTriggers : Bool) :
    Alike src src' (parse src line offset supportsTriggers)
      (parse src' line offset' supportsTriggers) := by
  unfold parse
  simp only
  split
  · exact ⟨⟨rfl, rfl, .nil, .empty⟩, rfl, rfl, rfl, rfl, .empty⟩
  · exact (alike_ofFirst _ _ _).foldl_addPart _ _ _ _ _ _

/-- **A skill line refers to the same skill wherever it stands.** -/
theorem Alike.skillReference?_value (h : Alike src src' m m') :
    m.skillReference?.map (·.value) = m'.skillReference?.map (·.value) := by
  unfold skillReference?
  rw [h.name?_eq]
  split
  · split
    · rw [Option.map_map, Option.map_map]
      exact h.config.get?_value _
    · rfl
  · rfl

end Mechanic

end PackLint
