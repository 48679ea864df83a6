import PackLint.Schema.Context
import Mathlib.Data.List.Forall2

/-!
# Outcomes of checks

A check has a report or ends in a fault, and a sequence of checks ends in the first fault. These
are the laws by which a proof takes such a sequence apart.

Results:
* `Except.mapM_eq_ok_iff`: a list is mapped to reports iff each of its members is.
* `runChecks_eq`: the checks of a node are merged as one list of reports.
* `Except.answers_mapM`, `answers_runChecks`: a sequence has an outcome iff each of its members has.
-/

namespace PackLint

variable {ε α β γ : Type}

namespace Except

theorem bind_eq_ok {x : Except ε α} {f : α → Except ε β} {b : β} :
    (x >>= f) = .ok b ↔ ∃ a, x = .ok a ∧ f a = .ok b := by
  cases x with
  | error e =>
    constructor
    · intro h; cases h
    · rintro ⟨_, h, -⟩; cases h
  | ok a =>
    constructor
    · exact fun h => ⟨a, rfl, h⟩
    · rintro ⟨_, h, hb⟩; cases h; exact hb

theorem bind_eq_error {x : Except ε α} {f : α → Except ε β} {e : ε} :
    (x >>= f) = .error e ↔ x = .error e ∨ ∃ a, x = .ok a ∧ f a = .error e := by
  cases x with
  | error e' =>
    constructor
    · intro h; cases h; exact .inl rfl
    · rintro (h | ⟨_, h, -⟩) <;> cases h; rfl
  | ok a =>
    constructor
    · exact fun h => .inr ⟨a, rfl, h⟩
    · rintro (h | ⟨_, h, he⟩) <;> cases h; exact he

theorem map_eq_ok {x : Except ε α} {f : α → β} {b : β} (h : x.map f = .ok b) :
    ∃ a, x = .ok a ∧ b = f a := by
  cases x with
  | error e => cases h
  | ok a => cases h; exact ⟨a, rfl, rfl⟩

theorem mapM_eq_ok_iff {f : α → Except ε β} {l : List α} {bs : List β} :
    l.mapM f = .ok bs ↔ List.Forall₂ (fun a b => f a = .ok b) l bs := by
  induction l generalizing bs with
  | nil =>
    rw [List.mapM_nil, List.forall₂_nil_left_iff]
    constructor
    · intro h; cases h; rfl
    · rintro rfl; rfl
  | cons a l ih =>
    rw [List.mapM_cons, bind_eq_ok, List.forall₂_cons_left_iff]
    constructor
    · rintro ⟨b, hb, h⟩
      obtain ⟨bs, hbs, h⟩ := bind_eq_ok.mp h
      cases h
      exact ⟨b, bs, hb, ih.mp hbs, rfl⟩
    · rintro ⟨b, bs, hb, hbs, rfl⟩
      exact ⟨b, hb, bind_eq_ok.mpr ⟨bs, ih.mpr hbs, rfl⟩⟩

/-- The outcomes for two lists in a row are those for the first and those for the second. -/
theorem mapM_append_of_eq_ok {f : α → Except ε β} {l l' : List α} {cs : List β}
    (h : (l ++ l').mapM f = .ok cs) :
    ∃ bs bs', l.mapM f = .ok bs ∧ l'.mapM f = .ok bs' ∧ cs = bs ++ bs' := by
  rw [List.mapM_append] at h
  obtain ⟨bs, hbs, h⟩ := bind_eq_ok.mp h
  obtain ⟨bs', hbs', h⟩ := bind_eq_ok.mp h
  cases h
  exact ⟨bs, bs', hbs, hbs', rfl⟩

theorem mapM_congr {f g : α → Except ε β} {l : List α} (h : ∀ a ∈ l, f a = g a) :
    l.mapM f = l.mapM g := by
  induction l with
  | nil => rfl
  | cons a l ih =>
    rw [List.mapM_cons, List.mapM_cons, h a List.mem_cons_self,
      ih fun b hb => h b (List.mem_cons_of_mem a hb)]

/-- What every member of a list is mapped to has a property if every outcome has. -/
theorem forall_mem_of_mapM {f : α → Except ε β} {l : List α} {bs : List β} {P : β → Prop}
    (h : l.mapM f = .ok bs) (hP : ∀ a ∈ l, ∀ b, f a = .ok b → P b) : ∀ b ∈ bs, P b := by
  have hf := mapM_eq_ok_iff.mp h
  intro b hb
  obtain ⟨i, hi, rfl⟩ := List.mem_iff_getElem.mp hb
  have hil : i < l.length := hf.length_eq ▸ hi
  exact hP _ (List.getElem_mem hil) _ (hf.get hil hi)

end Except

/-- The checks of a node, as one list of reports that are merged. -/
theorem runChecks_eq (checks : List Check) (site : Site) (n : Node) :
    runChecks checks site n = (checks.mapM fun (check : Check) => check site n).map .mergeAll := by
  suffices h : ∀ report : Report,
      checks.foldlM (fun report (check : Check) => do return report ++ (← check site n)) report =
        (checks.mapM fun (check : Check) => check site n).map
          fun rs => report.merge (.mergeAll rs) by
    rw [runChecks, h .empty]
    congr 1
    funext rs
    exact Report.empty_merge _
  induction checks with
  | nil =>
    intro report
    exact congrArg Except.ok (Report.merge_empty report).symm
  | cons check checks ih =>
    intro report
    rw [List.foldlM_cons, List.mapM_cons]
    cases check site n with
    | error fault => rfl
    | ok r =>
      refine (ih (report ++ r)).trans ?_
      change _ = Except.map _ (checks.mapM _ >>= fun rs => pure (r :: rs))
      cases checks.mapM fun (check : Check) => check site n with
      | error fault => rfl
      | ok rs =>
        simp only [Except.map, Report.append_eq_merge, Report.merge_assoc]
        exact congrArg Except.ok (by rw [Report.mergeAll_cons])

theorem runChecks_cons (check : Check) (checks : List Check) (site : Site) (n : Node) :
    runChecks (check :: checks) site n = do
      let report ← check site n
      let rest ← runChecks checks site n
      return report ++ rest := by
  simp only [runChecks_eq, List.mapM_cons]
  cases check site n with
  | error fault => rfl
  | ok r =>
    change Except.map _ (Except.bind (checks.mapM fun (check : Check) => check site n) _) =
      Except.bind (Except.map _ (checks.mapM fun (check : Check) => check site n)) _
    cases checks.mapM fun (check : Check) => check site n with
    | error fault => rfl
    | ok rs => exact congrArg Except.ok (Report.mergeAll_cons r rs)

/-! ## Having an outcome -/

namespace Except

/-- The computation does not end in a fault. -/
def Answers (x : Except ε α) : Prop := ∃ a, x = .ok a

theorem answers_ok (a : α) : Answers (.ok a : Except ε α) := ⟨a, rfl⟩

theorem not_answers_error (e : ε) : ¬ Answers (.error e : Except ε α) := by
  rintro ⟨_, h⟩
  cases h

theorem answers_bind {x : Except ε α} {f : α → Except ε β} :
    Answers (x >>= f) ↔ ∃ a, x = .ok a ∧ Answers (f a) := by
  constructor
  · rintro ⟨b, h⟩
    obtain ⟨a, ha, hb⟩ := bind_eq_ok.mp h
    exact ⟨a, ha, b, hb⟩
  · rintro ⟨a, ha, b, hb⟩
    exact ⟨b, bind_eq_ok.mpr ⟨a, ha, hb⟩⟩

/-- What comes after a computation has an outcome whatever the computation yields. -/
theorem answers_bind_of_forall {x : Except ε α} {f : α → Except ε β} {P : Prop}
    (h : ∀ a, x = .ok a → (Answers (f a) ↔ P)) : Answers (x >>= f) ↔ Answers x ∧ P := by
  rw [answers_bind]
  constructor
  · rintro ⟨a, ha, hf⟩
    exact ⟨⟨a, ha⟩, (h a ha).mp hf⟩
  · rintro ⟨⟨a, ha⟩, hP⟩
    exact ⟨a, ha, (h a ha).mpr hP⟩

theorem answers_bind_ok {x : Except ε α} {f : α → β} :
    Answers (x >>= fun a => .ok (f a)) ↔ Answers x := by
  rw [answers_bind]
  exact ⟨fun ⟨a, ha, _⟩ => ⟨a, ha⟩, fun ⟨a, ha⟩ => ⟨a, ha, answers_ok _⟩⟩

theorem answers_map {x : Except ε α} {f : α → β} : Answers (x.map f) ↔ Answers x := by
  cases x with
  | error e =>
    exact ⟨fun h => absurd h (not_answers_error e), fun h => absurd h (not_answers_error e)⟩
  | ok a => exact ⟨fun _ => answers_ok a, fun _ => answers_ok (f a)⟩

theorem answers_mapM {f : α → Except ε β} {l : List α} :
    Answers (l.mapM f) ↔ ∀ a ∈ l, Answers (f a) := by
  induction l with
  | nil => exact ⟨fun _ _ h => (nomatch h), fun _ => answers_ok []⟩
  | cons a l ih =>
    rw [List.mapM_cons, List.forall_mem_cons, ← ih]
    exact answers_bind_of_forall fun b _ => answers_bind_ok

end Except

theorem answers_runChecks {checks : List Check} {site : Site} {n : Node} :
    Except.Answers (runChecks checks site n) ↔ ∀ check ∈ checks, Except.Answers (check site n) := by
  rw [runChecks_eq, Except.answers_map, Except.answers_mapM]

end PackLint
