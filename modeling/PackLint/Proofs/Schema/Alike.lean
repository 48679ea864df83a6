import PackLint.Proofs.Schema.Sweep
import PackLint.Proofs.Schema.Uniform
import PackLint.Proofs.SkillLine.Alike
import PackLint.Proofs.Tree.Height
import PackLint.Schema.Resolve

/-!
# What is said of copies

The rules, references, skill lines and sweeps that schemas are made of say the same of a scalar, a
line or a map and of its copies, wherever these stand.

Results:
* `Reference.uniform_schema`: the schema of a reference is uniform.
* `alike_skillLine`: the same is said of a skill line that is written alike.
* `Site.alike_sweep`: the same keys are unexpected in copies of a map.
-/

namespace PackLint

variable {literal : Prop} {site site' : Site} {n n' : Node}

/-! ## Rules -/

theorem alike_stringCheck {rule : StringRule} {info : SchemaInfo} {s s' : Scalar}
    (h : rule.mismatch? info (.ofNode site (.scalar s)) s.string =
      rule.mismatch? info (.ofNode site' (.scalar s')) s'.string) :
    Report.Alike site.source site'.source (rule.check info site s) (rule.check info site' s') := by
  unfold StringRule.check
  simp only
  rw [h]
  split
  · exact alike_problem _ _ _ _
  · exact alike_highlight? _ _ _ _

theorem mute_complete (rule : StringRule) (site : Site) (s : Scalar) :
    (rule.complete site s).Mute := by
  unfold StringRule.complete
  simp only
  split <;> exact ⟨rfl, rfl, rfl⟩

theorem string_eq {s s' : Scalar} (h : s.Copy literal site.source site'.source s') :
    s.string = s'.string := by
  unfold Scalar.string
  rw [h.value, h.text]

/-! ## References -/

namespace Reference

variable (ref : Reference)

theorem alike_target (h : site.Alike site') (s s' : Scalar) (c : Component) :
    Report.Alike site.source site'.source (ref.target site s c) (ref.target site' s' c) := by
  refine ⟨.nil, .cons rfl .nil, ?_⟩
  refine List.forall₂_map_left_iff.mpr (List.forall₂_map_right_iff.mpr ?_)
  exact List.forall₂_same.mpr fun d _ => ⟨h.uri, rfl, rfl, rfl⟩

/-- The same is said of two scalars that refer to a component of the same id. -/
theorem alike_report (h : site.Alike site') {s s' : Scalar} (hstring : s.string = s'.string) :
    Report.Alike site.source site'.source (ref.report site s) (ref.report site' s') := by
  unfold report
  simp only
  rw [h.registry, hstring]
  refine .merge (.merge ?_ (.of_mute (mute_complete _ _ _) (mute_complete _ _ _))) ?_
  · refine alike_stringCheck ?_
    rw [hstring]
    exact mismatch?_congr (.ofNode site (.scalar s)) (.ofNode site' (.scalar s')) h.settings rfl rfl
      rfl _
  · cases (site'.registry.components ref.kind).find? (·.id = s'.string) with
    | none => exact .empty
    | some c => exact ref.alike_target h s s' c

/-- Copies of a node refer to the same component. -/
theorem uniformChecks_check : UniformChecks literal fun _ => [ref.check] := by
  intro site site' n n' hsite hn
  rw [runChecks_cons, runChecks_cons]
  refine Site.SameOutcome.append (.ok ?_) (.ok .empty)
  cases hn with
  | scalar hs => exact ref.alike_report hsite (string_eq hs)
  | _ => exact .empty

/-- **The schema of a reference is uniform.** -/
theorem uniform_schema : Schema.All (Schema.Uniform literal) ref.schema :=
  .intro ⟨⟨steady_const _, uniformChecks_nil, ref.uniformChecks_check⟩, steady_const _,
    steady_const _⟩ fun _ ht => ht.elim

end Reference

/-! ## Skill lines -/

theorem Source.slice_take_drop (src : Source) (start stop k : Nat) :
    src.slice (start + k) (stop - k) =
      ((src.slice start stop).drop k).take (stop - start - k - k) := by
  unfold Source.slice
  rw [Array.toList_extract, Array.toList_extract, List.extract_eq_take_drop,
    List.extract_eq_take_drop, List.drop_take, List.take_take, List.drop_drop]
  congr 1
  omega

/-- The same is said of a skill line and of the skill that it refers to. -/
theorem alike_mechanic (hsite : site.Alike site') {m m' : Mechanic}
    (h : m.Alike site.source site'.source m') :
    Report.Alike site.source site'.source
      (m.report ++ (m.skillReference?.map fun token =>
        Reference.skill.report site (.ofString token.value token.start.toNat
          token.stop.toNat)).getD .empty)
      (m'.report ++ (m'.skillReference?.map fun token =>
        Reference.skill.report site' (.ofString token.value token.start.toNat
          token.stop.toNat)).getD .empty) := by
  refine h.report.merge ?_
  have hreference := h.skillReference?_value
  generalize m.skillReference? = t, m'.skillReference? = t' at hreference
  cases t with
  | none =>
    rw [Option.map_none, eq_comm, Option.map_eq_none_iff] at hreference
    rw [hreference]
    exact .empty
  | some t =>
    obtain ⟨t', rfl, hvalue⟩ := Option.map_eq_some_iff.mp hreference.symm
    exact Reference.skill.alike_report hsite hvalue.symm

theorem alike_skillLine (hsite : site.Alike site') {s s' : Scalar}
    (h : s.WrittenAlike site.source site'.source s') (supportsTriggers : Bool) :
    Report.Alike site.source site'.source (Schema.skillLine supportsTriggers site s)
      (Schema.skillLine supportsTriggers site' s') := by
  have hblock : s.isBlock = s'.isBlock := by
    unfold Scalar.isBlock
    rw [h.style]
  have hquoted : s.isQuoted = s'.isQuoted := by
    unfold Scalar.isQuoted
    rw [h.style]
  unfold Schema.skillLine
  rw [hblock, hquoted]
  split
  · exact .empty
  · rename_i hs
    -- the text that is read is cut out of the text of the scalar, which a copy has as well
    have hslice : ∀ k, site.source.slice (s.start + k) (s.stop - k) =
        site'.source.slice (s'.start + k) (s'.stop - k) := by
      intro k
      have hplain : s.isBlock = false := by simpa [hblock] using hs
      rw [Source.slice_take_drop, Source.slice_take_drop, h.text hplain, h.length hplain]
    have hparse : ∀ start stop start' stop',
        site.source.slice start stop = site'.source.slice start' stop' →
        Mechanic.Alike site.source site'.source
          (Mechanic.parse site.source (site.source.slice start stop) start supportsTriggers)
          (Mechanic.parse site'.source (site'.source.slice start' stop') start'
            supportsTriggers) := by
      intro start stop start' stop' h
      rw [h]
      exact Mechanic.alike_parse _ _ _ _
    cases s'.isQuoted with
    | true => exact alike_mechanic hsite (hparse _ _ _ _ (hslice 1))
    | false => exact alike_mechanic hsite (hparse _ _ _ _ (hslice 0))

/-! ## Sweeps -/

theorem requireTextKeys_eq {pairs pairs' : List Pair}
    (h : List.Forall₂ (KeyValue.Copy literal site.source site'.source) pairs pairs') :
    requireTextKeys pairs = requireTextKeys pairs' := by
  have hall : pairs.all (·.key.isTextKey) = pairs'.all (·.key.isTextKey) := by
    induction h with
    | nil => rfl
    | cons hp _ ih => rw [List.all_cons, List.all_cons, hp.key.isTextKey_eq, ih]
  unfold requireTextKeys
  rw [hall]

namespace Site

theorem alike_brokenStep (path : List Char) (key key' : Node) (value value' : Option Node)
    (h : value.isSome = value'.isSome) :
    Report.Alike site.source site'.source (site.brokenStep path key value)
      (site'.brokenStep path key' value') := by
  cases value with
  | none =>
    cases value' with
    | none => exact alike_problem _ _ _ _
    | some v => cases h
  | some v =>
    cases value' with
    | none => cases h
    | some v' => exact alike_problem _ _ _ _

theorem alike_unexpectedKey (hsite : site.Alike site') (names : List (List Char))
    (front : List Char) {key key' : Node} (hkey : key.Copy literal site.source site'.source key') :
    Report.Alike site.source site'.source (site.unexpectedKey names front key)
      (site'.unexpectedKey names front key') := by
  unfold unexpectedKey
  simp only
  rw [hkey.keyText_eq, Site.suggestion?_congr hsite.settings]
  exact alike_problem _ _ _ _

theorem alike_sweepPair (hsite : site.Alike site') (names : List (List Char)) (front : List Char)
    {p p' : Pair}
    (hp : p.Rel (fun m m' => m.Copy literal site.source site'.source m' ∧
      ∀ front, site.SameOutcome site' (site.sweep names front m) (site'.sweep names front m')) p') :
    site.SameOutcome site' (site.sweepPair names front p) (site'.sweepPair names front p') := by
  have hkey := hp.key.1
  unfold sweepPair
  simp only
  rw [hkey.isScalar_eq, hkey.keyText_eq]
  split
  · exact .ok .empty
  · split
    · have hvalue := hp.value
      generalize p.value = v, p'.value = v' at hvalue
      cases hvalue with
      | none => exact .ok (alike_brokenStep _ _ _ _ _ rfl)
      | some h =>
        obtain ⟨hcopy, hsweep⟩ := h
        cases hcopy with
        | map => exact hsweep _
        | _ => exact .ok (alike_brokenStep _ _ _ _ _ rfl)
    · exact .ok (alike_unexpectedKey hsite names front hkey)

/-- **The same keys are unexpected in copies of a map.** -/
theorem alike_sweep (hsite : site.Alike site') (names : List (List Char)) (front : List Char)
    (hn : n.Copy literal site.source site'.source n') :
    site.SameOutcome site' (site.sweep names front n) (site'.sweep names front n') := by
  refine Node.Copy.induction (P := fun n n' => ∀ front, site.SameOutcome site'
    (site.sweep names front n) (site'.sweep names front n')) ?_ ?_ ?_ hn front
  · intro s s' _ front
    rw [sweep_scalar, sweep_scalar]
    exact .ok .empty
  · intro items items' start stop start' stop' _ front
    rw [sweep_seq, sweep_seq]
    exact .ok .empty
  · intro pairs pairs' start stop start' stop' hpairs front
    rw [sweep_map, sweep_map, requireTextKeys_eq (hpairs.imp fun _ _ hp => hp.imp fun _ _ h => h.1)]
    cases requireTextKeys pairs' with
    | error fault => exact .error fault
    | ok _ =>
      refine Except.Rel.map (.mapM (hpairs.imp fun p p' hp => ?_)) fun _ _ h => .mergeAll h
      exact alike_sweepPair hsite names front hp

end Site

end PackLint
