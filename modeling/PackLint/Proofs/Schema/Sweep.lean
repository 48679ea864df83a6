import PackLint.Proofs.Schema.Outcome
import PackLint.Proofs.Tree.Height
import PackLint.Schema.Sweep

/-!
# The sweep, pair by pair

The sweep over the keys of a map treats each pair for itself: `Site.sweepPair` is the report on one
pair, with all that is below it.

Results:
* `Site.sweepPairs_eq`: the sweep over pairs merges the reports on each of them.
* `Site.sweep_induction`: what holds of a map if it holds of the values in it holds of every sweep.
* `Site.sweep_congr`: of the names only those count that begin with the path of the map.
-/

namespace PackLint

namespace Site

variable (site : Site)

/-- The report on one pair below `front` and on the keys below it. -/
def sweepPair (names : List (List Char)) (front : List Char) (p : Pair) : Except Fault Report :=
  let path := front ++ p.key.keyText.toList
  if p.key.isScalar && names.contains path then .ok .empty
  else if names.any (leadsOn path) then
    match p.value with
    | some (.map inner start stop) => site.sweep names (path ++ ['.']) (.map inner start stop)
    | value => .ok (site.brokenStep path p.key value)
  else .ok (site.unexpectedKey names front p.key)

variable (names : List (List Char)) (front : List Char)

theorem sweepPairs_cons (p : Pair) (ps : List Pair) :
    site.sweepPairs names front (p :: ps) = do
      let report ← site.sweepPair names front p
      return report ++ (← site.sweepPairs names front ps) := by
  obtain ⟨key, value, comment⟩ := p
  unfold sweepPair
  rcases value with _ | (scalar | ⟨items, start, stop⟩ | ⟨inner, start, stop⟩) <;>
    simp only [sweepPairs] <;> split_ifs <;> rfl

/-- **The sweep over pairs merges the reports on each of them.** -/
theorem sweepPairs_eq (pairs : List Pair) :
    site.sweepPairs names front pairs =
      (pairs.mapM (site.sweepPair names front)).map .mergeAll := by
  induction pairs with
  | nil => rw [sweepPairs]; rfl
  | cons p ps ih =>
    rw [sweepPairs_cons, List.mapM_cons, ih]
    cases site.sweepPair names front p with
    | error fault => rfl
    | ok r =>
      change _ = Except.map _ (ps.mapM _ >>= fun rs => pure (r :: rs))
      cases ps.mapM (site.sweepPair names front) with
      | error fault => rfl
      | ok rs => exact congrArg Except.ok (Report.mergeAll_cons r rs).symm

theorem sweep_map (pairs : List Pair) (start stop : Nat) :
    site.sweep names front (.map pairs start stop) =
      requireTextKeys pairs >>= fun _ =>
        (pairs.mapM (site.sweepPair names front)).map .mergeAll := by
  rw [sweep, sweepPairs_eq]

theorem sweep_scalar (s : Scalar) : site.sweep names front (.scalar s) = .ok .empty := by
  rw [sweep]
  intro _ _ _ h
  cases h

theorem sweep_seq (items : List Node) (start stop : Nat) :
    site.sweep names front (.seq items start stop) = .ok .empty := by
  rw [sweep]
  intro _ _ _ h
  cases h

/-! ## Sweeps that have a report -/

/-- The report on a pair below `front`, where the sweep over a value of the pair has a property. -/
structure SweptPair (names : List (List Char)) (P : List Char → Node → Report → Prop)
    (front : List Char) (p : Pair) (r : Report) : Prop where
  report : site.sweepPair names front p = .ok r
  value : ∀ m ∈ p.value, ∀ r, site.sweep names (front ++ p.keyText.toList ++ ['.']) m = .ok r →
    P (front ++ p.keyText.toList ++ ['.']) m r

/-- **What holds of a map if it holds of the values in it holds of every sweep.** The induction is
on the height of the node, and a sweep looks at nothing but maps. -/
theorem sweep_induction {site : Site} {names : List (List Char)}
    {P : List Char → Node → Report → Prop}
    (other : ∀ front n, n.isMap = false → P front n .empty)
    (map : ∀ front pairs start stop rs,
      List.Forall₂ (site.SweptPair names P front) pairs rs →
        P front (.map pairs start stop) (.mergeAll rs))
    {front : List Char} {n : Node} {r : Report} (h : site.sweep names front n = .ok r) :
    P front n r := by
  induction n using Node.height_induction generalizing front r with
  | step n ih =>
    cases n with
    | scalar s =>
      rw [sweep_scalar] at h
      cases h
      exact other front _ rfl
    | seq items start stop =>
      rw [sweep_seq] at h
      cases h
      exact other front _ rfl
    | map pairs start stop =>
      rw [sweep_map] at h
      obtain ⟨-, -, h⟩ := Except.bind_eq_ok.mp h
      obtain ⟨rs, hrs, rfl⟩ := Except.map_eq_ok h
      have hmem : List.Forall₂ (fun p r => p ∈ pairs ∧ site.sweepPair names front p = .ok r)
          pairs rs :=
        (List.forall₂_and_left _ _).mpr ⟨fun _ hp => hp, Except.mapM_eq_ok_iff.mp hrs⟩
      refine map front pairs start stop rs (hmem.imp fun p r hp => ⟨hp.2, fun m hm r h => ?_⟩)
      exact ih m (Node.height_value_lt hp.1 hm start stop) h

/-- What a merge of reports on pairs has found is in the report on one of them. -/
theorem exists_pair_of_mem {R : Pair → Report → Prop} {pairs : List Pair} {rs : List Report}
    {d : Diagnostic} (h : List.Forall₂ R pairs rs) (hd : d ∈ (Report.mergeAll rs).diagnostics) :
    ∃ q ∈ pairs, ∃ r, R q r ∧ d ∈ r.diagnostics := by
  induction h with
  | nil => cases hd
  | @cons q r pairs rs hq _ ih =>
    rw [Report.mergeAll_cons] at hd
    rcases List.mem_append.mp hd with hd | hd
    · exact ⟨q, List.mem_cons_self, r, hq, hd⟩
    · obtain ⟨q', hq', found⟩ := ih hd
      exact ⟨q', List.mem_cons_of_mem _ hq', found⟩

/-! ## The names that count -/

section Names

variable {names names' : List (List Char)} {front : List Char}

/-- The names that begin with a path count with all that is longer. -/
theorem filter_isPrefixOf_append (names : List (List Char)) (front more : List Char) :
    (names.filter front.isPrefixOf).filter (front ++ more).isPrefixOf =
      names.filter (front ++ more).isPrefixOf := by
  rw [List.filter_filter]
  refine List.filter_congr fun name _ => ?_
  rw [Bool.and_eq_left_iff_imp]
  intro h
  rw [List.isPrefixOf_iff_prefix] at h ⊢
  exact (List.prefix_append front more).trans h

variable (h : names.filter front.isPrefixOf = names'.filter front.isPrefixOf)

include h

theorem contains_congr (more : List Char) :
    names.contains (front ++ more) = names'.contains (front ++ more) := by
  have hmem : ∀ ns : List (List Char), front ++ more ∈ ns ↔
      front ++ more ∈ ns.filter front.isPrefixOf := fun ns => by simp
  rw [Bool.eq_iff_iff, List.contains_iff_mem, List.contains_iff_mem, hmem, h, ← hmem]

theorem filter_append_congr (more : List Char) :
    names.filter (front ++ more).isPrefixOf = names'.filter (front ++ more).isPrefixOf := by
  rw [← filter_isPrefixOf_append names, h, filter_isPrefixOf_append]

theorem any_leadsOn_congr (more : List Char) :
    names.any (leadsOn (front ++ more)) = names'.any (leadsOn (front ++ more)) := by
  have hany : ∀ ns : List (List Char), ns.any (leadsOn (front ++ more)) =
      (ns.filter (front ++ (more ++ ['.'])).isPrefixOf).any fun _ => true := fun ns => by
    simp only [List.any_filter, Bool.and_true, ← List.append_assoc]
    rfl
  rw [hany, hany, filter_append_congr h]

end Names

/-- **Of the names only those count that begin with the path of the map.** -/
theorem sweep_congr {names names' : List (List Char)} {front : List Char}
    (h : names.filter front.isPrefixOf = names'.filter front.isPrefixOf) (n : Node) :
    site.sweep names front n = site.sweep names' front n := by
  induction n using Node.height_induction generalizing front with
  | step n ih =>
    cases n with
    | scalar scalar => rw [sweep_scalar, sweep_scalar]
    | seq items start stop => rw [sweep_seq, sweep_seq]
    | map pairs start stop =>
      rw [sweep_map, sweep_map]
      have hpairs : pairs.mapM (site.sweepPair names front) =
          pairs.mapM (site.sweepPair names' front) := by
        refine Except.mapM_congr fun p hp => ?_
        have hbelow := filter_append_congr h (p.key.keyText.toList ++ ['.'])
        rw [← List.append_assoc] at hbelow
        unfold sweepPair unexpectedKey
        simp only
        rw [contains_congr h, any_leadsOn_congr h, h]
        split
        · rfl
        · split
          · split
            · rename_i hv
              exact ih _ (Node.height_value_lt hp hv start stop) hbelow
            · rfl
          · rfl
      rw [hpairs]

end Site

end PackLint
