import PackLint.Proofs.Pack.Inside
import PackLint.Proofs.Pack.Mob
import PackLint.Proofs.Schema.Answers

/-!
# When the check of a file answers

The checks that the schemas of pack files bring along compute with the values that they find: a
cooldown is divided by the length of a tick, the material of an item and the type of a mob are
written as text. `Pack.Computable` says what they need to come to an answer.

Results:
* `Pack.answers_check`: the check of a file answers iff everything that it visits is computable.
* `Pack.answers_resolve`: the references of a file are resolved without a fault.
-/

open PackLint.Except

namespace PackLint

namespace Pack

variable {kind : FileKind} {site : Site} {s : Schema} {n : Node}

/-! ## Single checks -/

theorem answers_registration (component : ComponentKind) (color : TextClass) :
    Answers (registration component color site n) := by
  unfold registration
  split <;> exact answers_ok _

theorem answers_plainText? {scalar : Scalar} :
    Answers scalar.plainText? ↔ scalar.value.isWritable := by
  unfold Scalar.plainText?
  split
  · rename_i h
    exact ⟨fun _ => h, fun _ => answers_ok _⟩
  · rename_i h
    exact ⟨fun ha => absurd ha (not_answers_error _), fun hw => absurd hw h⟩

theorem answers_cooldownAligned :
    Answers (cooldownAligned site n) ↔
      ∀ x ∈ n.number?, x.isWritable ∧ x.isMultiple? (.float site.data.tickDuration) ≠ none := by
  unfold cooldownAligned
  split
  · rename_i x _ _ _ _
    simp only
    have hnumber : ∀ P : Number → Prop, (∀ y ∈ some x, P y) ↔ P x := fun P =>
      ⟨fun h => h x rfl, fun h y hy => by cases hy; exact h⟩
    refine Iff.trans ?_ (hnumber _).symm
    cases hw : x.isWritable with
    | false =>
      exact ⟨fun h => absurd h (not_answers_error _), fun h => absurd h.1 Bool.false_ne_true⟩
    | true =>
      cases hm : x.isMultiple? (.float site.data.tickDuration) with
      | none =>
        exact ⟨fun h => absurd h (not_answers_error _), fun h => absurd rfl h.2⟩
      | some aligned =>
        refine ⟨fun _ => ⟨rfl, fun h => nomatch h⟩, fun _ => ?_⟩
        cases aligned <;> exact answers_ok _
  · rename_i hn
    rw [Node.number?_eq_none hn]
    exact iff_of_true (answers_ok _) nofun

theorem answers_potionMaterial :
    Answers (potionMaterial site n) ↔
      ∀ scalar, (Context.ofNode site n).enclosingMap?.bind (·.get? "Id") = some (.scalar scalar) →
        scalar.value.isWritable := by
  unfold potionMaterial
  split
  · rename_i scalar hid
    rw [hid]
    have hwritable : (∀ other, some (Node.scalar scalar) = some (.scalar other) →
        other.value.isWritable) ↔ scalar.value.isWritable := by
      refine ⟨fun h => h scalar rfl, ?_⟩
      rintro h _ heq
      cases heq
      exact h
    rw [hwritable, ← answers_plainText?, answers_bind]
    refine ⟨fun ⟨text, htext, _⟩ => ⟨text, htext⟩, fun ⟨text, htext⟩ => ⟨text, htext, ?_⟩⟩
    split <;> exact answers_ok _
  · rename_i hid
    exact ⟨fun _ scalar h => absurd h (hid scalar), fun _ => answers_ok _⟩

theorem answers_check_string {info : SchemaInfo} {rule : StringRule}
    (hinfo : ∀ ctx, info.localChecks ctx = []) :
    Answers ((Schema.string info rule).check site n) := by
  refine Schema.answers_check.mpr fun t m hv => ?_
  cases hv with
  | here => exact ⟨trivial, fun check hc => by rw [Schema.info, hinfo] at hc; cases hc⟩
  | next hd hv =>
    cases hd with
    | value he => exact (Schema.not_descends_of_flatProperties (fun _ => rfl) he).elim

theorem answers_enchantmentEntry : Answers (enchantmentEntry site n) := by
  unfold enchantmentEntry
  split
  · split
    · exact answers_check_string fun _ => rfl
    · exact answers_ok _
  · exact answers_ok _

theorem answers_typeName? {type : Option Pair} :
    Answers (typeName? type) ↔
      ∀ scalar, type.bind (·.value) = some (.scalar scalar) → scalar.value.isWritable := by
  unfold typeName?
  split
  · rename_i scalar hs
    rw [hs]
    refine answers_plainText?.trans ⟨?_, fun h => h scalar rfl⟩
    rintro h _ heq
    cases heq
    exact h
  · rename_i hs
    exact ⟨fun _ scalar h => absurd h (hs scalar), fun _ => answers_ok _⟩

theorem answers_checkMobType {p : Pair} :
    Answers (checkMobType site p) ↔
      ∀ mob ∈ p.value, mob.isMap → ∀ scalar, (mob.pair? "Type").bind (·.value) =
        some (.scalar scalar) → scalar.value.isWritable := by
  by_cases hm : ∃ mob, p.value = some mob ∧ mob.isMap
  · obtain ⟨mob, hv, hm⟩ := hm
    rw [checkMobType_map site hv hm, answers_map, answers_typeName?, hv]
    refine ⟨?_, fun h => h mob rfl hm⟩
    rintro h _ heq -
    cases heq
    exact h
  · have hnot : ∀ mob, p.value = some mob → mob.isMap = false := fun mob hv => by
      simpa using fun hmap => hm ⟨mob, hv, hmap⟩
    rw [checkMobType_of_not_map site hnot]
    refine ⟨fun _ mob hv hmap => ?_, fun _ => answers_ok _⟩
    exact absurd ⟨mob, hv, hmap⟩ hm

theorem answers_mobTypes :
    Answers (mobTypes site n) ↔ ∀ p ∈ n.pairs?.getD [], ∀ mob ∈ p.value, mob.isMap →
      ∀ scalar, (mob.pair? "Type").bind (·.value) = some (.scalar scalar) →
        scalar.value.isWritable := by
  refine answers_bind_ok.trans (answers_mapM.trans ?_)
  exact forall₂_congr fun p _ => answers_checkMobType

/-! ## Files -/

/-- What the checks of pack files need of a node: the structure of the schema can judge it, a
cooldown can be divided by the length of a tick, and the material of an item and the types of mobs
can be written as text. -/
structure Computable (site : Site) (s : Schema) (n : Node) : Prop where
  judges : s.Judges site n
  cooldown : cooldownAligned ∈ s.info.localChecks (.ofNode site n) → ∀ x ∈ n.number?,
    x.isWritable ∧ x.isMultiple? (.float site.data.tickDuration) ≠ none
  material : potionMaterial ∈ s.info.localChecks (.ofNode site n) → ∀ scalar,
    (Context.ofNode site n).enclosingMap?.bind (·.get? "Id") = some (.scalar scalar) →
      scalar.value.isWritable
  types : mobTypes ∈ s.info.localChecks (.ofNode site n) → ∀ p ∈ n.pairs?.getD [],
    ∀ mob ∈ p.value, mob.isMap → ∀ scalar,
      (mob.pair? "Type").bind (·.value) = some (.scalar scalar) → scalar.value.isWritable

/-- The local checks that the schema of a file and the schemas inside of it bring along. -/
def FileCheck (c : Check) : Prop :=
  (∃ component color, c = registration component color) ∨ c = mobTypes ∨ c = cooldownAligned ∨
    c = potionMaterial ∨ c = enchantmentEntry

theorem sound_iff (hs : ∀ c ∈ s.info.localChecks (.ofNode site n), FileCheck c) :
    Schema.Sound site s n ↔ Computable site s n := by
  constructor
  · rintro ⟨hjudges, hchecks⟩
    exact ⟨hjudges, fun h => answers_cooldownAligned.mp (hchecks _ h),
      fun h => answers_potionMaterial.mp (hchecks _ h), fun h => answers_mobTypes.mp (hchecks _ h)⟩
  · intro h
    refine ⟨h.judges, fun check hc => ?_⟩
    rcases hs check hc with ⟨component, color, rfl⟩ | rfl | rfl | rfl | rfl
    · exact answers_registration component color
    · exact answers_mobTypes.mpr (h.types hc)
    · exact answers_cooldownAligned.mpr (h.cooldown hc)
    · exact answers_potionMaterial.mpr (h.material hc)
    · exact answers_enchantmentEntry

theorem Listed.fileCheck (h : Listed s) {ctx : Context} :
    ∀ c ∈ s.info.localChecks ctx, FileCheck c :=
  fun _ hc => Or.inr (Or.inr (h.localCheck hc))

theorem fileCheck_file (kind : FileKind) (ctx : Context) :
    ∀ c ∈ kind.schema.info.localChecks ctx, FileCheck c := by
  intro c hc
  cases kind with
  | skill => exact Or.inl ⟨_, _, List.mem_singleton.mp hc⟩
  | mob =>
    rcases List.mem_cons.mp hc with hc | hc
    · exact Or.inl ⟨_, _, hc⟩
    · exact Or.inr (Or.inl (List.mem_singleton.mp hc))
  | item => exact Or.inl ⟨_, _, List.mem_singleton.mp hc⟩

theorem fileCheck_of_visits {t : Schema} {m : Node} (h : Schema.Visits site kind.schema n t m)
    (ctx : Context) : ∀ c ∈ t.info.localChecks ctx, FileCheck c := by
  cases h with
  | here => exact fileCheck_file kind ctx
  | next hd hv => exact (hv.all (hd.all (known_parts kind))).self.fileCheck

/-- **The check of a file answers iff everything that it visits is computable.** -/
theorem answers_check : Answers (kind.schema.check site n) ↔
    ∀ t m, Schema.Visits site kind.schema n t m → Computable site t m := by
  rw [Schema.answers_check]
  refine forall₂_congr fun t m => forall_congr' fun hv => ?_
  exact sound_iff (fileCheck_of_visits hv _)

theorem resolvesAlways_of_listed (h : Listed s) : s.ResolvesAlways := by
  intro ctx check hc site n
  obtain ⟨ref, -, rfl⟩ := h.referenceCheck hc
  exact answers_ok _

/-- **The references of a file are resolved without a fault.** -/
theorem answers_resolve : Answers (kind.schema.resolve site n) := by
  refine Schema.answers_resolve (.intro (fun ctx check hc => ?_) fun t ht => ?_)
  · rw [referenceChecks_file] at hc
    cases hc
  · exact (known_parts kind t ht).imp fun _ => resolvesAlways_of_listed

end Pack

end PackLint
