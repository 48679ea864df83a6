import PackLint.Tree.KeyPath
import PackLint.Proofs.Text.Cut
import Mathlib.Data.List.Flatten

/-!
# Dotted keys, segment by segment

A key with dots is cut into segments that have none, and a pair of a map takes some of them: all,
and it holds the key, or the first few, and the key's other segments are looked for in its value.

Results:
* `keySegments_dotted`: the segments of a dotted key.
* `exists_dotted`: every key has segments.
* `findPairs_cons_perm`: pairs are searched one by one.
* `findPairs_singleton`: which pairs hold a key below a single pair.
-/

namespace PackLint

/-! ## Segments -/

/-- The segments with dots between them. -/
def dotted : List String → String
  | [] => ""
  | [w] => w
  | w :: v :: ws => w ++ "." ++ dotted (v :: ws)

/-- A segment has no dots. -/
abbrev DotFree (w : String) : Prop := '.' ∉ w.toList

variable {w : String} {us ws : List String}

theorem dotted_cons (w : String) (h : ws ≠ []) : dotted (w :: ws) = w ++ "." ++ dotted ws := by
  cases ws with
  | nil => exact absurd rfl h
  | cons v ws => rfl

theorem toList_dotted (ws : List String) :
    (dotted ws).toList = joinWith '.' (ws.map String.toList) := by
  induction ws with
  | nil => rfl
  | cons w ws ih =>
    cases ws with
    | nil => rfl
    | cons v ws =>
      rw [dotted_cons w (List.cons_ne_nil v ws), String.toList_append, String.toList_append, ih,
        List.append_assoc]
      rfl

theorem dotted_append {us : List String} (hus : us ≠ []) (hws : ws ≠ []) :
    dotted (us ++ ws) = dotted us ++ "." ++ dotted ws := by
  induction us with
  | nil => exact absurd rfl hus
  | cons u us ih =>
    cases us with
    | nil => exact dotted_cons u hws
    | cons v us =>
      rw [List.cons_append, dotted_cons u (by simp), ih (List.cons_ne_nil v us),
        dotted_cons u (List.cons_ne_nil v us)]
      simp only [String.append_assoc]

/-- **The segments of a dotted key.** -/
theorem keySegments_dotted (h : ∀ w ∈ ws, DotFree w) (hne : ws ≠ []) :
    keySegments (dotted ws) = ws.map String.toList := by
  induction ws with
  | nil => exact absurd rfl hne
  | cons w ws ih =>
    obtain ⟨hw, hws⟩ := List.forall_mem_cons.mp h
    cases ws with
    | nil => exact cutAt_of_not_mem hw
    | cons v ws =>
      have hrest := ih hws (List.cons_ne_nil v ws)
      unfold keySegments at hrest ⊢
      rw [dotted_cons w (List.cons_ne_nil v ws), String.toList_append, String.toList_append,
        List.append_assoc]
      exact (cutAt_append hw _).trans (congrArg _ hrest)

/-- **Every key has segments.** -/
theorem exists_dotted (key : String) :
    ∃ ws, ws ≠ [] ∧ (∀ w ∈ ws, DotFree w) ∧ key = dotted ws := by
  refine ⟨(keySegments key).map String.ofList, ?_, ?_, ?_⟩
  · exact fun h => cutAt_ne_nil '.' key.toList (List.map_eq_nil_iff.mp h)
  · intro w hw
    obtain ⟨piece, hpiece, rfl⟩ := List.mem_map.mp hw
    rw [DotFree, String.toList_ofList]
    exact not_mem_of_mem_cutAt hpiece
  · rw [← String.toList_inj, toList_dotted, List.map_map]
    have hid : String.toList ∘ String.ofList = id := funext fun _ => String.toList_ofList
    rw [hid, List.map_id]
    exact (joinWith_cutAt '.' key.toList).symm

/-- Dotted keys with the same text have the same segments. -/
theorem dotted_injective (hus : ∀ u ∈ us, DotFree u) (hws : ∀ w ∈ ws, DotFree w) (hu : us ≠ [])
    (hw : ws ≠ []) (h : dotted us = dotted ws) : us = ws := by
  have hsegments := keySegments_dotted hus hu
  rw [h, keySegments_dotted hws hw] at hsegments
  exact (List.map_inj_right fun _ _ => String.toList_inj.mp).mp hsegments.symm

/-! ## Pairs one by one -/

theorem append_perm_append {α : Type} (as bs cs ds : List α) :
    (as ++ bs ++ (cs ++ ds)).Perm (as ++ cs ++ (bs ++ ds)) := by
  rw [List.append_assoc, List.append_assoc]
  exact List.Perm.append_left as (List.perm_append_comm_assoc bs cs ds)

theorem pairsBelow_append_perm (ps qs : List Pair) (front : List Char)
    (segments : List (List Char)) :
    (pairsBelow (ps ++ qs) front segments).Perm
      (pairsBelow ps front segments ++ pairsBelow qs front segments) := by
  induction segments generalizing front with
  | nil => exact .nil
  | cons s rest ih =>
    unfold pairsBelow
    simp only
    split
    · exact .nil
    · unfold mapsUnder
      rw [List.filterMap_append, List.flatMap_append]
      exact (List.Perm.append_left _ (ih _)).trans (append_perm_append _ _ _ _)

/-- **Pairs are searched one by one.** -/
theorem findPairs_cons_perm (p : Pair) (ps : List Pair) (key : String) :
    (findPairs (p :: ps) key).Perm (findPairs [p] key ++ findPairs ps key) := by
  have hbelow := pairsBelow_append_perm [p] ps [] (keySegments key)
  have hnamed : pairsNamed (p :: ps) key = pairsNamed [p] key ++ pairsNamed ps key :=
    List.filter_append [p] ps
  unfold findPairs
  rw [hnamed]
  exact (List.Perm.append_left _ hbelow).trans (append_perm_append _ _ _ _)

theorem findPairs_nil (key : String) : findPairs [] key = [] := by
  have hbelow : ∀ front segments, pairsBelow [] front segments = [] := by
    intro front segments
    induction segments generalizing front with
    | nil => rfl
    | cons s rest ih =>
      unfold pairsBelow
      simp only
      split
      · rfl
      · exact ih _
  exact hbelow [] _

/-! ## Below a single pair -/

/-- The pairs that hold the key of some segments in the map that is the value of a pair. -/
def insidePairs (p : Pair) (ns : List String) : List Pair :=
  (p.value.bind Node.pairs?).elim [] (findPairs · (dotted ns))

theorem pairsBelow_singleton_cons (p : Pair) (front s : List Char) {rest : List (List Char)}
    (hrest : rest ≠ []) :
    pairsBelow [p] front (s :: rest) =
      (if p.keyText.toList = front ++ s then
        (p.value.bind Node.pairs?).elim [] fun inner =>
          pairsNamed inner (String.ofList (joinWith '.' rest)) ++ pairsBelow inner [] rest
      else []) ++ pairsBelow [p] (front ++ s ++ ['.']) rest := by
  have hkey : p.keyText = String.ofList (front ++ s) ↔ p.keyText.toList = front ++ s := by
    rw [← String.toList_inj, String.toList_ofList]
  conv => lhs; unfold pairsBelow
  simp only [List.isEmpty_iff, hrest, if_false]
  congr 1
  unfold mapsUnder
  rw [List.filterMap_cons, List.filterMap_nil]
  by_cases h : p.keyText.toList = front ++ s
  · rw [if_pos h, if_pos (hkey.mpr h)]
    cases p.value.bind Node.pairs? with
    | none => rfl
    | some inner => simp
  · rw [if_neg h, if_neg (mt hkey.mp h)]
    rfl

/-- A pair whose key does not start with `front` holds nothing behind it. -/
theorem pairsBelow_singleton_of_not_prefix (p : Pair) {front : List Char}
    (h : ¬ front <+: p.keyText.toList) (segments : List (List Char)) :
    pairsBelow [p] front segments = [] := by
  induction segments generalizing front with
  | nil => rfl
  | cons s rest ih =>
    by_cases hrest : rest = []
    · subst hrest
      rfl
    · have hs : ¬ p.keyText.toList = front ++ s := fun he => h (he ▸ List.prefix_append front s)
      have hfront : ¬ front ++ s ++ ['.'] <+: p.keyText.toList := fun hp =>
        h ((List.append_assoc front s ['.'] ▸ List.prefix_append front (s ++ ['.'])).trans hp)
      rw [pairsBelow_singleton_cons p front s hrest, if_neg hs, ih hfront, List.append_nil]

theorem pairsBelow_singleton_of_eq (p : Pair) {ns : List String} (hns : ∀ w ∈ ns, DotFree w)
    (hn : ns ≠ []) :
    ((p.value.bind Node.pairs?).elim [] fun inner =>
      pairsNamed inner (String.ofList (joinWith '.' (ns.map String.toList))) ++
        pairsBelow inner [] (ns.map String.toList)) = insidePairs p ns := by
  unfold insidePairs findPairs
  rw [keySegments_dotted hns hn, ← toList_dotted, String.ofList_toList]

/-- What a dot-free segment and a dot start is a dotted key that begins with the segment. -/
theorem eq_of_prefix_dotted {s u : String} {us : List String} (hs : DotFree s) (hu : DotFree u)
    (h : s.toList ++ ['.'] <+: (dotted (u :: us)).toList) : s = u ∧ us ≠ [] := by
  cases us with
  | nil =>
    exact absurd (h.subset (List.mem_append_right _ (List.mem_singleton_self '.'))) hu
  | cons v us =>
    obtain ⟨rest, h⟩ := h
    have hcut := congrArg (cutAt '.') h
    rw [dotted_cons u (List.cons_ne_nil v us), String.toList_append, String.toList_append,
      List.append_assoc, List.append_assoc] at hcut
    have hheads := (cutAt_append hs rest).symm.trans (hcut.trans (cutAt_append hu _))
    exact ⟨String.toList_inj.mp (List.cons_eq_cons.mp hheads).1, List.cons_ne_nil v us⟩

/-- A pair whose key takes the first few segments holds what its value has for the others. -/
theorem pairsBelow_singleton {p : Pair} {us ns : List String} {front : List Char}
    (hus : ∀ u ∈ us, DotFree u) (hns : ∀ w ∈ ns, DotFree w) (hu : us ≠ [])
    (hp : p.keyText.toList = front ++ (dotted us).toList) :
    pairsBelow [p] front (ns.map String.toList) =
      if us <+: ns ∧ us ≠ ns then insidePairs p (ns.drop us.length) else [] := by
  induction ns generalizing front us with
  | nil =>
    have hprefix : ¬ (us <+: [] ∧ us ≠ []) := fun h => hu (List.prefix_nil.mp h.1)
    rw [if_neg hprefix]
    rfl
  | cons s rest ih =>
    obtain ⟨hs, hrest⟩ := List.forall_mem_cons.mp hns
    obtain ⟨u, us, rfl⟩ := List.exists_cons_of_ne_nil hu
    obtain ⟨hufree, husfree⟩ := List.forall_mem_cons.mp hus
    by_cases hr : rest = []
    · subst hr
      have hprefix : ¬ (u :: us <+: [s] ∧ u :: us ≠ [s]) := by
        rintro ⟨hpre, hne⟩
        exact hne (hpre.eq_of_length_le (by simp))
      rw [if_neg hprefix]
      rfl
    · have hmatch : p.keyText.toList = front ++ s.toList ↔ dotted (u :: us) = s := by
        rw [hp, List.append_cancel_left_eq, String.toList_inj]
      have hfront : front ++ s.toList ++ ['.'] <+: p.keyText.toList → s = u ∧ us ≠ [] := by
        rw [hp, List.append_assoc, List.prefix_append_right_inj]
        exact eq_of_prefix_dotted hs hufree
      have hone : dotted (u :: us) = s → u = s ∧ us = [] := by
        intro h
        have hsfree : ∀ w ∈ [s], DotFree w := List.forall_mem_singleton.mpr hs
        exact List.cons_eq_cons.mp (dotted_injective hus hsfree hu (List.cons_ne_nil s []) h)
      rw [List.map_cons, pairsBelow_singleton_cons p front s.toList (by simpa using hr),
        pairsBelow_singleton_of_eq p hrest hr]
      by_cases hsu : s = u
      · subst hsu
        by_cases hnil : us = []
        · subst hnil
          have hproper : [s] <+: s :: rest ∧ [s] ≠ s :: rest :=
            ⟨List.prefix_append [s] rest, fun h => hr (List.cons_eq_cons.mp h).2.symm⟩
          rw [if_pos (hmatch.mpr rfl), if_pos hproper,
            pairsBelow_singleton_of_not_prefix p fun h => (hfront h).2 rfl, List.append_nil]
          rfl
        · have hne : ¬ dotted (s :: us) = s := fun h => hnil (hone h).2
          have hkey : p.keyText.toList = front ++ s.toList ++ ['.'] ++ (dotted us).toList := by
            rw [hp, dotted_cons s hnil, String.toList_append, String.toList_append]
            simp
          rw [if_neg (mt hmatch.mp hne), ih husfree hrest hnil hkey, List.nil_append]
          simp only [List.prefix_cons_inj, ne_eq, List.cons.injEq, true_and, List.length_cons,
            List.drop_succ_cons]
      · have hne : ¬ dotted (u :: us) = s := fun h => hsu (hone h).1.symm
        have hprefix : ¬ (u :: us <+: s :: rest ∧ u :: us ≠ s :: rest) := fun h =>
          hsu (List.cons_prefix_cons.mp h.1).1.symm
        rw [if_neg (mt hmatch.mp hne), if_neg hprefix,
          pairsBelow_singleton_of_not_prefix p fun h => hsu (hfront h).1]
        rfl

/-- **Which pairs hold a key below a single pair.** The pair itself if its key is the whole key, and
what its value holds if its key is the beginning. -/
theorem findPairs_singleton {p : Pair} {us ns : List String} (hus : ∀ u ∈ us, DotFree u)
    (hns : ∀ w ∈ ns, DotFree w) (hu : us ≠ []) (hn : ns ≠ []) (hscalar : p.key.isScalar)
    (hp : p.keyText = dotted us) :
    findPairs [p] (dotted ns) =
      if us = ns then [p] else if us <+: ns then insidePairs p (ns.drop us.length) else [] := by
  have hnamed : pairsNamed [p] (dotted ns) = if us = ns then [p] else [] := by
    unfold pairsNamed
    by_cases h : us = ns
    · subst h
      simp [hscalar, hp]
    · have hne : ¬ dotted us = dotted ns := fun he => h (dotted_injective hus hns hu hn he)
      simp [hp, h, hne]
  unfold findPairs
  rw [hnamed, keySegments_dotted hns hn, pairsBelow_singleton hus hns hu (by rw [hp]; rfl)]
  by_cases h : us = ns
  · simp [h]
  · simp [h]

end PackLint
