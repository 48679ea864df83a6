import PackLint.Proofs.SkillLine.Apart
import PackLint.Proofs.SkillLine.Told

/-!
# Covered characters of a skill line

The parts of a line follow one another with nothing but spaces between them, and reading one more
part without a problem adds its account to that of the line. So every visible character of a line
without brackets, on which nothing is reported, is in the span of just one token, unless it stands
behind the brace that closes its configuration. Such a character is silently dropped.

Results:
* `Mechanic.tiles_parts`: the parts of a text leave nothing but spaces out.
* `Mechanic.told_addPart`: reading one more part extends the account of the line.
* `Mechanic.covers_parse`: a visible character is in one token, or behind a closing brace.
-/

namespace PackLint

open SkillLine

variable {src : Source} {offset : Int}

namespace Mechanic

variable {m : Mechanic}

/-! ## Gaps between the parts -/

/-- The parts of a text, with nothing but spaces in front of them, between them and behind them. -/
def Tiles (text : List Char) (k : Nat) : List Part → Prop
  | [] => ∀ i, k ≤ i → i < text.length → text[i]? = some ' '
  | p :: ps => k ≤ p.start ∧ (∀ i, k ≤ i → i < p.start → text[i]? = some ' ') ∧
      Tiles text (p.start + p.text.length) ps

theorem tiles_partsFrom {text cs run : List Char} {i k : Nat} (hcs : text.drop i = cs)
    (hle : k + run.length ≤ i) (hgap : ∀ j, k ≤ j → j < i - run.length → text[j]? = some ' ') :
    Tiles text k (partsFrom i run cs) := by
  induction cs generalizing i k run with
  | nil =>
    have hend : text.length ≤ i := List.drop_eq_nil_iff.mp hcs
    rw [partsFrom]
    cases run with
    | nil => exact fun j hj hlt => hgap j hj (Nat.lt_of_lt_of_le hlt hend)
    | cons x run =>
      refine ⟨?_, hgap, fun j hj hlt => ?_⟩
      · simp only
        omega
      · simp only [List.length_reverse] at hj
        omega
  | cons c cs ih =>
    obtain ⟨hc, hcs'⟩ : text[i]? = some c ∧ text.drop (i + 1) = cs := by
      rw [← List.head?_drop, ← List.tail_drop, hcs]
      exact ⟨rfl, rfl⟩
    rw [partsFrom]
    split
    · rename_i hspace
      rw [hspace] at hc
      have hnone : ∀ {k}, (∀ j, k ≤ j → j < i → text[j]? = some ' ') →
          ∀ j, k ≤ j → j < i + 1 - ([] : List Char).length → text[j]? = some ' ' := by
        intro k hgap j hj hlt
        rcases Nat.lt_or_eq_of_le (Nat.le_of_lt_succ hlt) with hlt | rfl
        · exact hgap j hj hlt
        · exact hc
      cases run with
      | nil => exact ih hcs' (Nat.le_succ_of_le hle) (hnone hgap)
      | cons x run =>
        have hbehind : i - (x :: run).length + (x :: run).reverse.length = i := by
          rw [List.length_reverse]
          omega
        refine ⟨?_, hgap, ih hcs' ?_ (hnone fun j hj hlt => ?_)⟩
        · simp only
          omega
        · simp only [hbehind, List.length_nil]
          omega
        · simp only [hbehind] at hj
          omega
    · refine ih hcs' ?_ fun j hj hlt => hgap j hj ?_
      · rw [List.length_cons]
        omega
      · rw [List.length_cons] at hlt
        omega

/-- The parts of a text leave nothing but spaces out. -/
theorem tiles_parts (text : List Char) : Tiles text 0 (parts text) :=
  tiles_partsFrom List.drop_zero (Nat.le_refl 0) fun _ _ hlt => nomatch hlt

/-- Nothing that is visible stands among spaces. -/
theorem lt_of_spaces {text : List Char} {i k stop : Nat}
    (hspaces : ∀ i, k ≤ i → i < stop → text[i]? = some ' ') (h : Visible text i) (hlt : i < stop) :
    i < k := by
  refine Nat.lt_of_not_le fun hle => ?_
  exact absurd (h.of_getElem? (by decide) (hspaces i hle hlt)).1 (by decide)

/-! ## Reading the parts -/

/-- The tokens of a skill line, by what they belong to. -/
def tokens (m : Mechanic) : List LineToken :=
  m.config.tokens ++ m.targeter.toList.flatMap Targeter.tokens ++
    m.trigger.toList.flatMap Trigger.tokens ++ m.conditions.flatMap Condition.tokens ++
    m.chance.toList ++ m.argument.toList

/-- The rests of the configurations of a skill line. -/
def rests (m : Mechanic) : List (Int × Int) :=
  m.config.rest?.toList ++ m.targeter.toList.flatMap (·.config.rest?.toList) ++
    m.conditions.flatMap (·.config.rest?.toList)

variable {escaped : List Char} {lo hi : Nat}

/-- An account of the text of a part is one of the line there. -/
theorem Part.Fits.told {p : Part} (hp : p.Fits escaped) {ts : List LineToken}
    {rs : List (Int × Int)}
    (h : Told p.text (sourceOffset escaped offset p.start) 0 p.text.length ts rs) :
    Told escaped offset p.start (p.start + p.text.length) ts rs := by
  refine .slice hp.start hp.stop (Nat.le_add_right _ _) ?_
  rwa [hp.text_eq, Nat.add_sub_cancel_left]

theorem Part.Fits.not_mem {p : Part} (hp : p.Fits escaped)
    (hbrackets : '[' ∉ escaped ∧ ']' ∉ escaped) : '[' ∉ p.text ∧ ']' ∉ p.text := by
  rw [← hp.text_eq]
  exact hbrackets.imp (mt fun h => List.mem_of_mem_take (List.mem_of_mem_drop h))
    (mt fun h => List.mem_of_mem_take (List.mem_of_mem_drop h))

/-- A mechanic that has one more part extends the account of the line. -/
theorem told_of_part {p : Part} (hp : p.Fits escaped) (hlo : lo ≤ p.start)
    (h : Told escaped offset lo p.start m.tokens m.rests) {ts : List LineToken}
    {rs : List (Int × Int)}
    (hpart : Told p.text (sourceOffset escaped offset p.start) 0 p.text.length ts rs)
    {m' : Mechanic} (hts : ∀ t, m'.tokens.count t = m.tokens.count t + ts.count t)
    (hrs : ∀ r, r ∈ m'.rests ↔ r ∈ m.rests ∨ r ∈ rs) :
    Told escaped offset lo (p.start + p.text.length) m'.tokens m'.rests := by
  refine (h.append (hp.told hpart) hlo (Nat.le_add_right _ _)).perm ?_ fun r => ?_
  · rw [List.perm_iff_count]
    intro t
    rw [List.count_append, hts]
  · rw [List.mem_append, hrs]

section

variable {p : Part} (hp : p.Fits escaped) (hlo : lo ≤ p.start)
  (h : Told escaped offset lo p.start m.tokens m.rests)
include hp hlo h

theorem told_addTargeter {start stop : Int} (hstart : sourceOffset escaped offset p.start = start)
    (hhead : p.text.head? = some '@') (hbrackets : '[' ∉ p.text ∧ ']' ∉ p.text)
    (hsilent : (m.addTargeter src p.text start stop).report.diagnostics = []) :
    Told escaped offset lo (p.start + p.text.length) (m.addTargeter src p.text start stop).tokens
      (m.addTargeter src p.text start stop).rests := by
  subst hstart
  rw [addTargeter_eq] at hsilent ⊢
  obtain ⟨hread, hlast⟩ := List.append_eq_nil_iff.mp hsilent
  have hnone : m.targeter = none := by
    cases htargeter : m.targeter with
    | none => rfl
    | some t =>
      rw [htargeter] at hlast
      cases hlast
  have hpart := Targeter.told_read hhead hbrackets (List.append_eq_nil_iff.mp hread).2
  refine told_of_part hp hlo h hpart (fun t => ?_) fun r => ?_
  · simp only [tokens, hnone, Option.none_or, Option.toList_none, Option.toList_some,
      List.flatMap_nil, List.flatMap_singleton, List.count_append, List.count_nil]
    omega
  · simp only [rests, hnone, Option.none_or, Option.toList_none, Option.toList_some,
      List.flatMap_nil, List.flatMap_singleton, List.mem_append, List.not_mem_nil, or_false]
    exact or_right_comm

theorem told_addTrigger {start stop : Int} (hstart : sourceOffset escaped offset p.start = start)
    (hhead : p.text.head? = some '~') {supportsTriggers : Bool}
    (hsilent : (m.addTrigger src p.text start stop supportsTriggers).report.diagnostics = []) :
    Told escaped offset lo (p.start + p.text.length)
      (m.addTrigger src p.text start stop supportsTriggers).tokens
      (m.addTrigger src p.text start stop supportsTriggers).rests := by
  subst hstart
  rw [addTrigger_eq] at hsilent ⊢
  have hlast := (List.append_eq_nil_iff.mp (List.append_eq_nil_iff.mp hsilent).2).2
  have hnone : m.trigger = none := by
    cases htrigger : m.trigger with
    | none => rfl
    | some t =>
      rw [htrigger] at hlast
      cases hlast
  refine told_of_part hp hlo h (Trigger.told_read src hhead) (fun t => ?_) fun r => ?_
  · simp only [tokens, hnone, Option.none_or, Option.toList_none, Option.toList_some,
      List.flatMap_nil, List.flatMap_singleton, List.count_append, List.count_nil]
    omega
  · simp only [List.not_mem_nil, or_false]
    rfl

theorem told_addCondition {start : Int} (hstart : sourceOffset escaped offset p.start = start)
    (hhead : p.text.head? = some '?') (hbrackets : '[' ∉ p.text ∧ ']' ∉ p.text)
    (hsilent : (m.addCondition src p.text start).report.diagnostics = []) :
    Told escaped offset lo (p.start + p.text.length) (m.addCondition src p.text start).tokens
      (m.addCondition src p.text start).rests := by
  subst hstart
  have hread := (List.append_eq_nil_iff.mp hsilent).2
  refine told_of_part hp hlo h (Condition.told_read hhead hbrackets hread) (fun t => ?_) fun r => ?_
  · simp only [tokens, addCondition, adding, List.flatMap_append, List.flatMap_singleton,
      List.count_append]
    omega
  · simp only [rests, addCondition, adding, List.flatMap_append, List.flatMap_singleton,
      List.mem_append, or_assoc]

theorem told_addNumber {t : LineToken} (hstart : t.start = sourceOffset escaped offset p.start)
    (hstop : t.stop = sourceOffset escaped offset (p.start + p.text.length))
    (hsilent : (m.addNumber src t).report.diagnostics = []) :
    Told escaped offset lo (p.start + p.text.length) (m.addNumber src t).tokens
      (m.addNumber src t).rests := by
  rw [addNumber_eq] at hsilent ⊢
  have hlast := (List.append_eq_nil_iff.mp hsilent).2
  have hnone : m.argument = none ∧ m.chance = none := by
    by_contra hsome
    rw [← Option.not_isSome_iff_eq_none, ← Option.not_isSome_iff_eq_none, ← not_or,
      not_not] at hsome
    rw [if_pos hsome] at hlast
    cases hlast
  have hpart : Told p.text (sourceOffset escaped offset p.start) 0 p.text.length [t] [] :=
    .token (hstart.trans (sourceOffset_zero _ _).symm)
      (hstop.trans (hp.sourceOffset_stop offset).symm)
  refine told_of_part hp hlo h hpart (fun u => ?_) fun r => ?_
  · simp only [tokens, hnone.1, hnone.2, Option.isNone_none, true_and, List.count_append,
      Option.toList_none, List.count_nil]
    cases m.leadingNumericArgument with
    | true => simp
    | false => simp
  · simp only [List.not_mem_nil, or_false]
    rfl

/-- **Reading one more part extends the account of the line**, if nothing is reported. -/
theorem told_addPart (hbrackets : '[' ∉ escaped ∧ ']' ∉ escaped) {supportsTriggers : Bool}
    (hsilent : (m.addPart src p.text (sourceOffset escaped offset p.start)
      (sourceOffset escaped offset (p.start + p.text.length))
      supportsTriggers).report.diagnostics = []) :
    Told escaped offset lo (p.start + p.text.length)
      (m.addPart src p.text (sourceOffset escaped offset p.start)
        (sourceOffset escaped offset (p.start + p.text.length)) supportsTriggers).tokens
      (m.addPart src p.text (sourceOffset escaped offset p.start)
        (sourceOffset escaped offset (p.start + p.text.length)) supportsTriggers).rests := by
  have hbrackets' := hp.not_mem hbrackets
  generalize hread : m.addPart src p.text _ _ supportsTriggers = m' at hsilent ⊢
  unfold addPart at hread
  split at hread
  · rename_i hhead
    subst hread
    exact told_addTargeter hp hlo h rfl hhead hbrackets' hsilent
  · rename_i hhead
    subst hread
    exact told_addTrigger hp hlo h rfl hhead hsilent
  · rename_i hhead
    subst hread
    exact told_addCondition hp hlo h rfl hhead hbrackets' hsilent
  · simp only at hread
    split at hread
    · subst hread
      exact told_addNumber hp hlo h rfl rfl hsilent
    · subst hread
      exact absurd (List.append_eq_nil_iff.mp hsilent).2 (List.cons_ne_nil _ _)

end

/-- What was reported stays reported. -/
theorem silent_of_addPart {text : List Char} {start stop : Int} {supportsTriggers : Bool}
    (hsilent : (m.addPart src text start stop supportsTriggers).report.diagnostics = []) :
    m.report.diagnostics = [] := by
  have hfront : ∀ {r s : Report}, (r.merge s).diagnostics = [] → r.diagnostics = [] :=
    fun h => (List.append_eq_nil_iff.mp h).1
  unfold addPart at hsilent
  split at hsilent
  · rw [addTargeter_eq] at hsilent
    exact hfront (hfront hsilent)
  · rw [addTrigger_eq] at hsilent
    exact hfront (hfront hsilent)
  · exact hfront hsilent
  · simp only at hsilent
    split at hsilent
    · rw [addNumber_eq] at hsilent
      exact hfront (hfront hsilent)
    · exact hfront hsilent

/-- The mechanic `m` after reading the parts `ps` of the escaped line. -/
abbrev addParts (src : Source) (escaped : List Char) (offset : Int) (supportsTriggers : Bool)
    (m : Mechanic) (ps : List Part) : Mechanic :=
  ps.foldl (fun m p => m.addPart src p.text (sourceOffset escaped offset p.start)
    (sourceOffset escaped offset (p.start + p.text.length)) supportsTriggers) m

theorem silent_of_addParts {supportsTriggers : Bool} {ps : List Part}
    (hsilent : (addParts src escaped offset supportsTriggers m ps).report.diagnostics = []) :
    m.report.diagnostics = [] := by
  induction ps generalizing m with
  | nil => exact hsilent
  | cons p ps ih => exact silent_of_addPart (ih hsilent)

theorem told_addParts (hbrackets : '[' ∉ escaped ∧ ']' ∉ escaped) {supportsTriggers : Bool}
    {ps : List Part} {k : Nat} (hps : ∀ p ∈ ps, p.Fits escaped) (htiles : Tiles escaped k ps)
    (hk : k ≤ escaped.length) (h : Told escaped offset 0 k m.tokens m.rests)
    (hsilent : (addParts src escaped offset supportsTriggers m ps).report.diagnostics = []) :
    Told escaped offset 0 escaped.length (addParts src escaped offset supportsTriggers m ps).tokens
      (addParts src escaped offset supportsTriggers m ps).rests := by
  induction ps generalizing m k with
  | nil => exact h.widen (Nat.le_refl 0) hk fun i hi _ hlt =>
      ⟨Nat.zero_le i, lt_of_spaces htiles hi hlt⟩
  | cons p ps ih =>
    obtain ⟨hp, hps⟩ := List.forall_mem_cons.mp hps
    obtain ⟨hkp, hspaces, htiles⟩ := htiles
    have hfront := h.widen (Nat.le_refl 0) hkp fun i hi _ hlt =>
      ⟨Nat.zero_le i, lt_of_spaces hspaces hi hlt⟩
    have hread := told_addPart hp (Nat.zero_le _) hfront hbrackets (silent_of_addParts hsilent)
    exact ih hps htiles hp.stop.le_length hread hsilent

/-- The part that names the mechanic accounts for its text. -/
theorem told_ofFirst {p : Part} (hp : p.Fits escaped) (hbrackets : '[' ∉ p.text ∧ ']' ∉ p.text)
    (hsilent : (ofFirst src p.text (sourceOffset escaped offset p.start)).report.diagnostics = []) :
    Told escaped offset p.start (p.start + p.text.length)
      (ofFirst src p.text (sourceOffset escaped offset p.start)).tokens
      (ofFirst src p.text (sourceOffset escaped offset p.start)).rests := by
  rw [ofFirst, LineConfig.diagnostics_withHighlights _
    (LineToken.diagnostics_highlight? src .function _)] at hsilent
  have htokens : ∀ (config : LineConfig) (report : Report),
      tokens { config, report } = config.tokens ∧
        rests { config, report } = config.rest?.toList := by
    intro config report
    simp [tokens, rests]
  rw [ofFirst, (htokens _ _).1, (htokens _ _).2]
  exact hp.told (LineConfig.told_parse hbrackets hsilent)

/-- **A line without brackets on which nothing is reported is accounted for as a whole.** -/
theorem told_parse {line : List Char} (hbrackets : '[' ∉ line ∧ ']' ∉ line)
    {supportsTriggers : Bool}
    (hsilent : (parse src line offset supportsTriggers).report.diagnostics = []) :
    Told (escape line) offset 0 (escape line).length
      (parse src line offset supportsTriggers).tokens
      (parse src line offset supportsTriggers).rests := by
  have hescaped : '[' ∉ escape line ∧ ']' ∉ escape line :=
    hbrackets.imp (mt (mem_of_mem_escape (by decide))) (mt (mem_of_mem_escape (by decide)))
  have hfits := fits_parts (escape line)
  have htiles := tiles_parts (escape line)
  unfold parse at hsilent ⊢
  simp only at hsilent ⊢
  cases hparts : parts (escape line) with
  | nil =>
    rw [hparts] at htiles
    exact (Told.nil _ _ 0).widen (Nat.le_refl 0) (Nat.zero_le _) fun i hi _ hlt =>
      ⟨Nat.zero_le i, lt_of_spaces htiles hi hlt⟩
  | cons first others =>
    rw [hparts] at hfits htiles
    simp only [hparts] at hsilent
    obtain ⟨hfirst, hothers⟩ := List.forall_mem_cons.mp hfits
    obtain ⟨-, hspaces, htiles⟩ := htiles
    have hread := told_ofFirst hfirst (hfirst.not_mem hescaped) (silent_of_addParts hsilent)
    have hfront := hread.widen (Nat.zero_le _) (Nat.le_refl _) fun i hi _ hlt =>
      ⟨Nat.le_of_not_lt fun hlt => absurd (lt_of_spaces hspaces hi hlt) (Nat.not_lt_zero i), hlt⟩
    exact told_addParts hescaped hothers htiles hfirst.stop.le_length hfront hsilent

/-- **Every visible character of a plain line without brackets, on which nothing is reported, is in
the span of just one token, unless it stands behind the brace that closes its configuration**; then
it is in none. -/
theorem covers_parse (src : Source) {cs : List Char} (hplain : Plain cs)
    (hbrackets : '[' ∉ cs ∧ ']' ∉ cs) (offset : Int) (supportsTriggers : Bool)
    (hsilent : (parse src cs offset supportsTriggers).report.diagnostics = []) {i : Nat}
    {c : Char} (hi : cs[i]? = some c) (hblank : isBlank c = false) (hsemicolon : c ≠ ';') :
    (parse src cs offset supportsTriggers).tokens.countP
        (fun t => t.start ≤ offset + i ∧ offset + i < t.stop) =
      if ∃ r ∈ (parse src cs offset supportsTriggers).rests,
        r.1 ≤ offset + i ∧ offset + i < r.2 then 0 else 1 := by
  obtain ⟨hvisible, hoffset⟩ := visible_escape hplain hi hblank hsemicolon
  have honce := (told_parse hbrackets hsilent).once _ hvisible (Nat.zero_le _) hvisible.lt_length
  rw [hoffset] at honce
  exact honce

/-- A line with a targeter that is in a token, behind a character that is in none. -/
theorem covers_parse_targeter :
    Plain ['m', '{', 'a', '=', 'b', '}', 'x', ' ', '@', 't'] ∧
      ('[' ∉ ['m', '{', 'a', '=', 'b', '}', 'x', ' ', '@', 't'] ∧
        ']' ∉ ['m', '{', 'a', '=', 'b', '}', 'x', ' ', '@', 't']) ∧
      (parse (.ofList ['m', '{', 'a', '=', 'b', '}', 'x', ' ', '@', 't'])
        ['m', '{', 'a', '=', 'b', '}', 'x', ' ', '@', 't'] 0 true).report.diagnostics = [] ∧
      (parse (.ofList ['m', '{', 'a', '=', 'b', '}', 'x', ' ', '@', 't'])
        ['m', '{', 'a', '=', 'b', '}', 'x', ' ', '@', 't'] 0 true).tokens.countP
          (fun t => t.start ≤ 0 + ((9 : Nat) : Int) ∧ 0 + ((9 : Nat) : Int) < t.stop) = 1 ∧
      (parse (.ofList ['m', '{', 'a', '=', 'b', '}', 'x', ' ', '@', 't'])
        ['m', '{', 'a', '=', 'b', '}', 'x', ' ', '@', 't'] 0 true).tokens.countP
          (fun t => t.start ≤ 0 + ((6 : Nat) : Int) ∧ 0 + ((6 : Nat) : Int) < t.stop) = 0 := by
  have hplain : Plain ['m', '{', 'a', '=', 'b', '}', 'x', ' ', '@', 't'] := by
    unfold Plain
    decide
  have hbrackets : '[' ∉ ['m', '{', 'a', '=', 'b', '}', 'x', ' ', '@', 't'] ∧
      ']' ∉ ['m', '{', 'a', '=', 'b', '}', 'x', ' ', '@', 't'] := by decide
  have hsilent : (parse (.ofList ['m', '{', 'a', '=', 'b', '}', 'x', ' ', '@', 't'])
      ['m', '{', 'a', '=', 'b', '}', 'x', ' ', '@', 't'] 0 true).report.diagnostics = [] := by rfl
  refine ⟨hplain, hbrackets, hsilent, ?_, ?_⟩
  · have htargeter := covers_parse _ hplain hbrackets 0 true hsilent (i := 9) (c := 't') rfl
      (by decide) (by decide)
    exact htargeter.trans (if_neg (by decide))
  · have hrest := covers_parse _ hplain hbrackets 0 true hsilent (i := 6) (c := 'x') rfl
      (by decide) (by decide)
    exact hrest.trans (if_pos (by decide))

/-- Nothing is reported of the text behind the brace that closes a configuration, and no token
covers it. -/
theorem uncovered_rest :
    ¬ ∀ (src : Source) (cs : List Char) (offset : Int) (supportsTriggers : Bool), Plain cs →
      '[' ∉ cs ∧ ']' ∉ cs → (parse src cs offset supportsTriggers).report.diagnostics = [] →
      ∀ (i : Nat) (c : Char), cs[i]? = some c → isBlank c = false → c ≠ ';' →
        (parse src cs offset supportsTriggers).tokens.countP
          (fun t => t.start ≤ offset + i ∧ offset + i < t.stop) = 1 := by
  intro h
  have hplain : Plain ['m', '{', 'a', '=', 'b', '}', 'x'] := by
    unfold Plain
    decide
  have hsilent : (parse (.ofList ['m', '{', 'a', '=', 'b', '}', 'x'])
      ['m', '{', 'a', '=', 'b', '}', 'x'] 0 true).report.diagnostics = [] := by rfl
  have hx := h _ _ 0 true hplain (by decide) hsilent 6 'x' rfl (by decide) (by decide)
  revert hx
  decide

end Mechanic

end PackLint
