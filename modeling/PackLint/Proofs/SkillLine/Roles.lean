import PackLint.Proofs.SkillLine.Clause
import PackLint.Proofs.Number.Bare

/-!
# The roles of the parts of a skill line

Each part behind the name of the mechanic has a role, which its first characters tell
(`_parse_component`). What is read of the parts and what is reported about them can be said part by
part: the first targeter, trigger and number are kept, all conditions are, and every problem is one
of a part and depends on the roles of the parts in front of it only.

Results:
* `Mechanic.readsRoles_addPart`: reading one more part.
* `Mechanic.readsRoles_parse`: what is read of a line, and what is reported about its parts.
-/

namespace PackLint

open SkillLine

namespace Mechanic

/-! ## Roles -/

/-- What a part of a skill line is. -/
inductive Role where
  | targeter
  | trigger
  | condition
  | number
  | unknown
deriving DecidableEq

/-- What the part is by its first characters. -/
def Part.role (p : Part) : Role :=
  match p.text.head? with
  | some '@' => .targeter
  | some '~' => .trigger
  | some '?' => .condition
  | _ => if isBareNumber p.text then .number else .unknown

/-- Whether a text is read as a floating point number outside of the numbers from zero to one. -/
def isOutsideUnit (text : List Char) : Bool :=
  match readFloat? text with
  | some x => !(Number.le (.int 0) (.float x) && Number.le (.float x) (.int 1))
  | none => false

theorem isProbability_bareNumber {text : List Char} (h : isBareNumber text) :
    isProbability text = !isOutsideUnit text := by
  obtain ⟨x, hx⟩ := Option.isSome_iff_exists.mp (isSome_readFloat? h)
  unfold isProbability isOutsideUnit
  rw [hx, Bool.not_not]

/-! ## Problems of the parts -/

/-- The codes of what is reported about the parts of a line. -/
def roleCodes : List DiagnosticCode :=
  [.tooManyTargeters, .triggersNotAllowed, .tooManyTriggers, .unknownComponent, .tooManyChances,
    .invalidChance]

section

variable (src : Source) (escaped : List Char) (offset : Int)

/-- The part of the escaped line, which starts at `offset`, as a token. -/
def Part.token (p : Part) : LineToken where
  value := String.ofList (unescape p.text)
  start := sourceOffset escaped offset p.start
  stop := sourceOffset escaped offset (p.start + p.text.length)

/-- A problem of the part as a whole. -/
def Part.problem (p : Part) (message : String) (code : DiagnosticCode)
    (severity : Severity := .error) : Diagnostic where
  range := src.range (p.token escaped offset).start (p.token escaped offset).stop
  message := message
  code := code
  severity := severity

/-- The problems of a part behind the parts `before`. A mechanic with a leading number takes the
first number as its argument, and any number for that. -/
def Part.problems (leading supportsTriggers : Bool) (before : List Part) (p : Part) :
    List Diagnostic :=
  match p.role with
  | .targeter =>
    if before.any (·.role = .targeter) then
      [p.problem src escaped offset "Only one targeter allowed per skill!" .tooManyTargeters]
    else []
  | .trigger =>
    (if supportsTriggers then []
      else [p.problem src escaped offset
        "Triggers are not supported in this environment! (e.g. metaskills)" .triggersNotAllowed]) ++
      if before.any (·.role = .trigger) then
        [p.problem src escaped offset "Only one trigger allowed per skill!" .tooManyTriggers]
      else []
  | .condition => []
  | .number =>
    if before.any (·.role = .number) then
      [p.problem src escaped offset "Only one chance allowed per skill!" .tooManyChances]
    else if leading then []
    else if isOutsideUnit p.text then
      [p.problem src escaped offset ("Chance must be between 0 and 1, but got " ++
        (p.token escaped offset).value ++ ".") .invalidChance]
    else []
  | .unknown =>
    [p.problem src escaped offset ("Unknown skill component `" ++ (p.token escaped offset).value ++
      "`.") .unknownComponent .warning]

/-- The problems of the parts `ps` behind the parts `before`, in order. -/
def problemsFrom (leading supportsTriggers : Bool) (before : List Part) :
    List Part → List Diagnostic
  | [] => []
  | p :: ps => p.problems src escaped offset leading supportsTriggers before ++
      problemsFrom leading supportsTriggers (before ++ [p]) ps

theorem problemsFrom_append (leading supportsTriggers : Bool) (before ps : List Part) (p : Part) :
    problemsFrom src escaped offset leading supportsTriggers before (ps ++ [p]) =
      problemsFrom src escaped offset leading supportsTriggers before ps ++
        p.problems src escaped offset leading supportsTriggers (before ++ ps) := by
  induction ps generalizing before with
  | nil => rw [List.nil_append, problemsFrom, problemsFrom, problemsFrom, List.append_nil,
      List.append_nil, List.nil_append]
  | cons q ps ih =>
    rw [List.cons_append, problemsFrom, problemsFrom, ih, List.append_assoc, List.append_assoc,
      List.singleton_append]

/-- What is read of the parts `ps` behind the name of a mechanic, and what is reported about
them. -/
structure ReadsRoles (supportsTriggers : Bool) (ps : List Part) (m : Mechanic) : Prop where
  /-- The first targeter is kept. -/
  targeter : m.targeter = (ps.find? (·.role = .targeter)).map fun p =>
    (Targeter.parse src p.text (p.token escaped offset).start).withHighlights src
  /-- The first trigger is kept. -/
  trigger : m.trigger = (ps.find? (·.role = .trigger)).map fun p =>
    (Trigger.parse p.text (p.token escaped offset).start).withHighlights src
  /-- All conditions are kept, in order. -/
  conditions : m.conditions = (ps.filter (·.role = .condition)).map fun p =>
    (Condition.parse src p.text (p.token escaped offset).start).withHighlights src
  /-- The first number is the argument of a mechanic with a leading number. -/
  argument : m.argument =
    if m.leadingNumericArgument then (ps.find? (·.role = .number)).map (·.token escaped offset)
    else none
  /-- The first number is the chance of any other mechanic. -/
  chance : m.chance =
    if m.leadingNumericArgument then none
    else (ps.find? (·.role = .number)).map (·.token escaped offset)
  /-- Just the problems of the parts are reported with codes of their own. -/
  problems : m.report.diagnostics.filter (·.code ∈ roleCodes) =
    problemsFrom src escaped offset m.leadingNumericArgument supportsTriggers [] ps

end

variable {src : Source} {escaped : List Char} {offset : Int} {supportsTriggers : Bool}
  {ps : List Part} {m m' : Mechanic}

/-! ## Reading one more part -/

theorem merge_ofDiagnostics_nil (r : Report) : r.merge (.ofDiagnostics []) = r := r.merge_empty

/-- A targeter is kept if it is the first one. -/
theorem addTargeter_eq (text : List Char) (start stop : Int) :
    m.addTargeter src text start stop =
      { m with
        targeter := m.targeter.or (some ((Targeter.parse src text start).withHighlights src))
        report := (m.report.merge ((Targeter.parse src text start).withHighlights src).report).merge
          (.ofDiagnostics (if m.targeter.isSome then
            [{ range := src.range start stop, message := "Only one targeter allowed per skill!",
               code := .tooManyTargeters }] else [])) } := by
  obtain ⟨config, targeter, trigger, conditions, chance, argument, report⟩ := m
  cases targeter with
  | none =>
    simp only [Option.isSome_none, Bool.false_eq_true, if_false, merge_ofDiagnostics_nil]
    rfl
  | some t => rfl

/-- A trigger is kept if it is the first one. -/
theorem addTrigger_eq (text : List Char) (start stop : Int) (supportsTriggers : Bool) :
    m.addTrigger src text start stop supportsTriggers =
      { m with
        trigger := m.trigger.or (some ((Trigger.parse text start).withHighlights src))
        report := (m.report.merge ((Trigger.parse text start).withHighlights src).report).merge
          (.ofDiagnostics ((if supportsTriggers then [] else
            [{ range := src.range start stop, message :=
                 "Triggers are not supported in this environment! (e.g. metaskills)",
               code := .triggersNotAllowed }]) ++ if m.trigger.isSome then
            [{ range := src.range start stop, message := "Only one trigger allowed per skill!",
               code := .tooManyTriggers }] else [])) } := by
  obtain ⟨config, targeter, trigger, conditions, chance, argument, report⟩ := m
  rw [Report.ofDiagnostics_append, ← Report.merge_assoc]
  cases supportsTriggers with
  | false =>
    cases trigger with
    | none =>
      simp only [Option.isSome_none, Bool.false_eq_true, if_false, merge_ofDiagnostics_nil]
      rfl
    | some t => rfl
  | true =>
    cases trigger with
    | none =>
      simp only [Option.isSome_none, Bool.false_eq_true, if_false, if_true,
        merge_ofDiagnostics_nil]
      rfl
    | some t =>
      simp only [Option.isSome_some, if_true, merge_ofDiagnostics_nil]
      rfl

/-- A number is the argument, the chance, or one too many. -/
theorem addNumber_eq (token : LineToken) :
    m.addNumber src token =
      { m with
        argument := if m.argument.isNone ∧ m.chance.isNone ∧ m.leadingNumericArgument then
          some token else m.argument
        chance := if m.argument.isNone ∧ m.chance.isNone ∧ ¬ m.leadingNumericArgument then
          some token else m.chance
        report := (m.report.merge (token.highlight src .number)).merge
          (.ofDiagnostics (if m.argument.isSome ∨ m.chance.isSome then
            [{ range := src.range token.start token.stop,
               message := "Only one chance allowed per skill!", code := .tooManyChances }]
          else if m.leadingNumericArgument then []
          else if isProbability token.value.toList then []
          else [{ range := src.range token.start token.stop, message :=
                    "Chance must be between 0 and 1, but got " ++ token.value ++ ".",
                  code := .invalidChance }])) } := by
  have hleading : (m.adding (token.highlight src .number)).leadingNumericArgument =
      m.leadingNumericArgument := rfl
  unfold addNumber
  simp only [hleading]
  obtain ⟨config, targeter, trigger, conditions, chance, argument, report⟩ := m
  simp only [adding, Mechanic.problem, Bool.and_eq_true]
  generalize leadingNumericArgument _ = leading
  cases argument with
  | some t =>
    simp only [Option.isNone_some, Option.isSome_some, Bool.false_eq_true, and_false, false_and,
      if_false, true_or, Bool.or_true, if_true]
    rfl
  | none =>
    cases chance with
    | some t =>
      simp only [Option.isNone_some, Option.isSome_some, Bool.false_eq_true, and_false, false_and,
        if_false, or_true, Bool.true_or, if_true]
      rfl
    | none =>
      cases leading with
      | true =>
        simp only [Option.isNone_none, Option.isSome_none, Bool.false_eq_true, if_true, if_false,
          and_self, or_self, not_true, and_false, merge_ofDiagnostics_nil]
      | false =>
        simp only [Option.isNone_none, Option.isSome_none, Bool.false_eq_true, if_true, if_false,
          and_true, and_false, or_self, not_false_eq_true, Bool.or_self]
        split
        · rw [merge_ofDiagnostics_nil]
        · rfl

theorem leadingNumericArgument_congr (h : m'.config = m.config) :
    m'.leadingNumericArgument = m.leadingNumericArgument := by
  unfold leadingNumericArgument name?
  rw [h]

theorem map_find?_append {α : Type} (f : Part → α) (role : Role) (ps : List Part) (p : Part) :
    ((ps ++ [p]).find? (·.role = role)).map f =
      ((ps.find? (·.role = role)).map f).or (if p.role = role then some (f p) else none) := by
  rw [List.find?_append, Option.map_or, List.find?_singleton]
  by_cases h : p.role = role
  · rw [if_pos (by simpa using h), if_pos h, Option.map_some]
  · rw [if_neg (by simpa using h), if_neg h, Option.map_none]

/-- The problems of a part have codes of their own. -/
theorem filter_problems (p : Part) (leading : Bool) :
    (p.problems src escaped offset leading supportsTriggers ps).filter (·.code ∈ roleCodes) =
      p.problems src escaped offset leading supportsTriggers ps := by
  have hone : ∀ {message : String} {code : DiagnosticCode} {severity : Severity},
      code ∈ roleCodes → ∀ d ∈ [p.problem src escaped offset message code severity],
        d.code ∈ roleCodes :=
    fun hcode => List.forall_mem_singleton.mpr hcode
  rw [List.filter_eq_self]
  intro d hd
  refine decide_eq_true ?_
  unfold Part.problems at hd
  split at hd
  · split at hd
    · exact hone (by decide) d hd
    · cases hd
  · rcases List.mem_append.mp hd with hd | hd
    · split at hd
      · cases hd
      · exact hone (by decide) d hd
    · split at hd
      · exact hone (by decide) d hd
      · cases hd
  · cases hd
  · split at hd
    · exact hone (by decide) d hd
    · split at hd
      · cases hd
      · split at hd
        · exact hone (by decide) d hd
        · cases hd
  · exact hone (by decide) d hd

/-- What one more part adds to each field. -/
theorem ReadsRoles.append (h : ReadsRoles src escaped offset supportsTriggers ps m) {p : Part}
    (rest : List Diagnostic) (hconfig : m'.config = m.config)
    (htargeter : m'.targeter = m.targeter.or (if p.role = .targeter then
      some ((Targeter.parse src p.text (p.token escaped offset).start).withHighlights src)
      else none))
    (htrigger : m'.trigger = m.trigger.or (if p.role = .trigger then
      some ((Trigger.parse p.text (p.token escaped offset).start).withHighlights src) else none))
    (hconditions : m'.conditions = m.conditions ++ if p.role = .condition then
      [(Condition.parse src p.text (p.token escaped offset).start).withHighlights src] else [])
    (hargument : m'.argument = m.argument.or (if p.role = .number ∧ m.leadingNumericArgument then
      some (p.token escaped offset) else none))
    (hchance : m'.chance = m.chance.or (if p.role = .number ∧ ¬ m.leadingNumericArgument then
      some (p.token escaped offset) else none))
    (hreport : m'.report.diagnostics = m.report.diagnostics ++ rest ++
      p.problems src escaped offset m.leadingNumericArgument supportsTriggers ps)
    (hrest : rest.filter (·.code ∈ roleCodes) = []) :
    ReadsRoles src escaped offset supportsTriggers (ps ++ [p]) m' where
  targeter := by rw [htargeter, h.targeter, map_find?_append]
  trigger := by rw [htrigger, h.trigger, map_find?_append]
  conditions := by
    rw [hconditions, h.conditions, List.filter_append, List.map_append]
    by_cases hrole : p.role = .condition
    · rw [if_pos hrole, List.filter_cons_of_pos (by simpa using hrole)]
      rfl
    · rw [if_neg hrole, List.filter_cons_of_neg (by simpa using hrole)]
      rfl
  argument := by
    rw [hargument, h.argument, leadingNumericArgument_congr hconfig, map_find?_append]
    by_cases hleading : m.leadingNumericArgument
    · simp only [hleading, if_true, and_true]
    · simp only [hleading, Bool.false_eq_true, if_false, and_false, Option.or_none]
  chance := by
    rw [hchance, h.chance, leadingNumericArgument_congr hconfig, map_find?_append]
    by_cases hleading : m.leadingNumericArgument
    · simp only [hleading, if_true, not_true, and_false, if_false, Option.or_none]
    · simp only [hleading, Bool.false_eq_true, if_false, not_false_eq_true, and_true]
  problems := by
    rw [hreport, List.filter_append, List.filter_append, hrest, List.append_nil, h.problems,
      filter_problems, leadingNumericArgument_congr hconfig, problemsFrom_append, List.nil_append]

/-- What a configuration reports has none of the codes of parts. -/
theorem filter_configuration {text : List Char} {start : Int} :
    ((LineConfig.parse src text start).report.diagnostics).filter (·.code ∈ roleCodes) = [] := by
  have hapart : ∀ code ∈ LineConfig.problemCodes, code ∉ roleCodes := by decide
  rw [List.filter_eq_nil_iff]
  intro d hd hcode
  have hproblem := ((LineConfig.neat_parse text start).problems d hd).code
  exact hapart d.code hproblem (of_decide_eq_true hcode)

theorem ReadsRoles.addTargeter (h : ReadsRoles src escaped offset supportsTriggers ps m) {p : Part}
    (hrole : p.role = .targeter) :
    ReadsRoles src escaped offset supportsTriggers (ps ++ [p])
      (m.addTargeter src p.text (p.token escaped offset).start (p.token escaped offset).stop) := by
  have hany : m.targeter.isSome = ps.any (·.role = .targeter) := by
    rw [h.targeter, Option.isSome_map, List.isSome_find?]
  rw [addTargeter_eq]
  refine h.append ((Targeter.parse src p.text (p.token escaped offset).start).withHighlights
    src).report.diagnostics rfl ?_ ?_ ?_ ?_ ?_ ?_ ?_
  · rw [if_pos hrole]
  · simp only [hrole, reduceCtorEq, if_false, Option.or_none]
  · simp only [hrole, reduceCtorEq, if_false, List.append_nil]
  · simp only [hrole, reduceCtorEq, false_and, if_false, Option.or_none]
  · simp only [hrole, reduceCtorEq, false_and, if_false, Option.or_none]
  · rw [hany, Part.problems, hrole]
    rfl
  · rw [Targeter.diagnostics_read]
    exact filter_configuration

theorem ReadsRoles.addTrigger (h : ReadsRoles src escaped offset supportsTriggers ps m) {p : Part}
    (hrole : p.role = .trigger) :
    ReadsRoles src escaped offset supportsTriggers (ps ++ [p])
      (m.addTrigger src p.text (p.token escaped offset).start (p.token escaped offset).stop
        supportsTriggers) := by
  have hany : m.trigger.isSome = ps.any (·.role = .trigger) := by
    rw [h.trigger, Option.isSome_map, List.isSome_find?]
  rw [addTrigger_eq]
  refine h.append ((Trigger.parse p.text (p.token escaped offset).start).withHighlights
    src).report.diagnostics rfl ?_ ?_ ?_ ?_ ?_ ?_ ?_
  · simp only [hrole, reduceCtorEq, if_false, Option.or_none]
  · rw [if_pos hrole]
  · simp only [hrole, reduceCtorEq, if_false, List.append_nil]
  · simp only [hrole, reduceCtorEq, false_and, if_false, Option.or_none]
  · simp only [hrole, reduceCtorEq, false_and, if_false, Option.or_none]
  · rw [hany, Part.problems, hrole]
    rfl
  · rw [Trigger.diagnostics_read, List.filter_nil]

theorem ReadsRoles.addCondition (h : ReadsRoles src escaped offset supportsTriggers ps m) {p : Part}
    (hrole : p.role = .condition) :
    ReadsRoles src escaped offset supportsTriggers (ps ++ [p])
      (m.addCondition src p.text (p.token escaped offset).start) := by
  refine h.append ((Condition.parse src p.text (p.token escaped offset).start).withHighlights
    src).report.diagnostics rfl ?_ ?_ ?_ ?_ ?_ ?_ ?_
  · simp only [hrole, reduceCtorEq, if_false, Option.or_none]
    rfl
  · simp only [hrole, reduceCtorEq, if_false, Option.or_none]
    rfl
  · rw [if_pos hrole]
    rfl
  · simp only [hrole, reduceCtorEq, false_and, if_false, Option.or_none]
    rfl
  · simp only [hrole, reduceCtorEq, false_and, if_false, Option.or_none]
    rfl
  · rw [Part.problems, hrole, List.append_nil]
    rfl
  · rw [Condition.diagnostics_read]
    exact filter_configuration

/-- A mechanic has a number as its argument or chance just if a number was read. -/
theorem ReadsRoles.isSome_number (h : ReadsRoles src escaped offset supportsTriggers ps m) :
    (m.argument.isSome ∨ m.chance.isSome) ↔ ps.any (·.role = .number) := by
  rw [h.argument, h.chance, ← List.isSome_find?]
  cases m.leadingNumericArgument with
  | true => simp only [if_true, Option.isSome_map, Option.isSome_none, Bool.false_eq_true, or_false]
  | false =>
    simp only [Bool.false_eq_true, if_false, Option.isSome_map, Option.isSome_none, false_or]

/-- The first number is the argument of a mechanic that takes one. -/
theorem ReadsRoles.argument_or (h : ReadsRoles src escaped offset supportsTriggers ps m)
    (token : LineToken) :
    (if m.argument.isNone ∧ m.chance.isNone ∧ m.leadingNumericArgument then some token
      else m.argument) = m.argument.or (if m.leadingNumericArgument then some token else none) := by
  cases hleading : m.leadingNumericArgument with
  | true =>
    have hchance : m.chance = none := by rw [h.chance, if_pos hleading]
    rw [hchance]
    cases m.argument with
    | none => rw [if_pos ⟨rfl, rfl, rfl⟩, if_pos rfl, Option.none_or]
    | some t => rw [if_neg (fun h => nomatch h.1), Option.some_or]
  | false => rw [if_neg (fun h => nomatch h.2.2), if_neg Bool.false_ne_true, Option.or_none]

/-- The first number is the chance of any other mechanic. -/
theorem ReadsRoles.chance_or (h : ReadsRoles src escaped offset supportsTriggers ps m)
    (token : LineToken) :
    (if m.argument.isNone ∧ m.chance.isNone ∧ ¬ m.leadingNumericArgument then some token
      else m.chance) = m.chance.or (if ¬ m.leadingNumericArgument then some token else none) := by
  cases hleading : m.leadingNumericArgument with
  | true => rw [if_neg (fun h => h.2.2 rfl), if_neg (fun h => h rfl), Option.or_none]
  | false =>
    have hargument : m.argument = none := by
      rw [h.argument, if_neg (by rw [hleading]; exact Bool.false_ne_true)]
    rw [hargument]
    cases m.chance with
    | none =>
      rw [if_pos ⟨rfl, rfl, Bool.false_ne_true⟩, if_pos Bool.false_ne_true, Option.none_or]
    | some t => rw [if_neg (fun h => nomatch h.2.1), Option.some_or]

theorem ReadsRoles.addNumber (h : ReadsRoles src escaped offset supportsTriggers ps m) {p : Part}
    (hrole : p.role = .number) (hbare : isBareNumber p.text) :
    ReadsRoles src escaped offset supportsTriggers (ps ++ [p])
      (m.addNumber src (p.token escaped offset)) := by
  have hany := h.isSome_number
  have hvalue : (p.token escaped offset).value.toList = p.text := by
    rw [Part.token, String.toList_ofList, unescape_bareNumber hbare]
  rw [addNumber_eq, hvalue, isProbability_bareNumber hbare, h.argument_or, h.chance_or]
  refine h.append [] rfl ?_ ?_ ?_ ?_ ?_ ?_ List.filter_nil
  · simp only [hrole, reduceCtorEq, if_false, Option.or_none]
  · simp only [hrole, reduceCtorEq, if_false, Option.or_none]
  · simp only [hrole, reduceCtorEq, if_false, List.append_nil]
  · simp only [hrole, true_and]
  · simp only [hrole, true_and]
  · have hhighlight := LineToken.diagnostics_highlight src .number (p.token escaped offset)
    rw [Part.problems, hrole]
    simp only [Report.merge, Report.ofDiagnostics, hhighlight, hany]
    congr 1
    cases isOutsideUnit p.text with
    | true => rfl
    | false => rfl

theorem ReadsRoles.addUnknown (h : ReadsRoles src escaped offset supportsTriggers ps m) {p : Part}
    (hrole : p.role = .unknown) :
    ReadsRoles src escaped offset supportsTriggers (ps ++ [p])
      (m.problem src (p.token escaped offset).start (p.token escaped offset).stop
        ("Unknown skill component `" ++ (p.token escaped offset).value ++ "`.")
        .unknownComponent .warning) := by
  refine h.append [] rfl ?_ ?_ ?_ ?_ ?_ ?_ List.filter_nil
  · simp only [hrole, reduceCtorEq, if_false, Option.or_none]
    rfl
  · simp only [hrole, reduceCtorEq, if_false, Option.or_none]
    rfl
  · simp only [hrole, reduceCtorEq, if_false, List.append_nil]
    rfl
  · simp only [hrole, reduceCtorEq, false_and, if_false, Option.or_none]
    rfl
  · simp only [hrole, reduceCtorEq, false_and, if_false, Option.or_none]
    rfl
  · rw [Part.problems, hrole, List.append_nil]
    rfl

/-- **Reading one more part.** -/
theorem ReadsRoles.addPart (h : ReadsRoles src escaped offset supportsTriggers ps m) (p : Part) :
    ReadsRoles src escaped offset supportsTriggers (ps ++ [p])
      (m.addPart src p.text (p.token escaped offset).start (p.token escaped offset).stop
        supportsTriggers) := by
  unfold Mechanic.addPart
  split
  · rename_i hhead
    exact h.addTargeter (by rw [Part.role, hhead]; rfl)
  · rename_i hhead
    exact h.addTrigger (by rw [Part.role, hhead]; rfl)
  · rename_i hhead
    exact h.addCondition (by rw [Part.role, hhead]; rfl)
  · rename_i htargeter htrigger hcondition
    have hrole : p.role = if isBareNumber p.text then .number else .unknown := by
      unfold Part.role
      split
      · rename_i hhead
        exact absurd hhead htargeter
      · rename_i hhead
        exact absurd hhead htrigger
      · rename_i hhead
        exact absurd hhead hcondition
      · rfl
    by_cases hbare : isBareNumber p.text
    · rw [if_pos hbare] at hrole ⊢
      exact h.addNumber hrole hbare
    · rw [if_neg hbare] at hrole ⊢
      exact h.addUnknown hrole

theorem ReadsRoles.addParts (h : ReadsRoles src escaped offset supportsTriggers ps m)
    (qs : List Part) :
    ReadsRoles src escaped offset supportsTriggers (ps ++ qs)
      (qs.foldl (fun m p => m.addPart src p.text (sourceOffset escaped offset p.start)
        (sourceOffset escaped offset (p.start + p.text.length)) supportsTriggers) m) := by
  induction qs generalizing ps m with
  | nil => rwa [List.append_nil]
  | cons q qs ih =>
    have hnext := ih (h.addPart q)
    rwa [List.append_assoc] at hnext

/-- A mechanic of which just the name was read has no parts yet. -/
theorem readsRoles_nil (supportsTriggers : Bool) {config : LineConfig} {report : Report}
    (hreport : report.diagnostics.filter (·.code ∈ roleCodes) = []) :
    ReadsRoles src escaped offset supportsTriggers [] { config, report } where
  targeter := rfl
  trigger := rfl
  conditions := rfl
  argument := (ite_self none).symm
  chance := (ite_self none).symm
  problems := hreport

/-- **What is read of a skill line, and what is reported about its parts**, follows from the roles
of the parts behind the first. -/
theorem readsRoles_parse (src : Source) (line : List Char) (offset : Int)
    (supportsTriggers : Bool) :
    ReadsRoles src (escape line) offset supportsTriggers (parts (escape line)).tail
      (parse src line offset supportsTriggers) := by
  unfold parse
  simp only
  cases parts (escape line) with
  | nil => exact readsRoles_nil supportsTriggers rfl
  | cons first others =>
    have hfirst : (ofFirst src first.text (sourceOffset (escape line) offset
        first.start)).report.diagnostics.filter (·.code ∈ roleCodes) = [] := by
      rw [ofFirst, LineConfig.diagnostics_withHighlights _
        (LineToken.diagnostics_highlight? src .function _)]
      exact filter_configuration
    exact (readsRoles_nil supportsTriggers hfirst).addParts others

end Mechanic

end PackLint
