import PackLint.Text.Lines

/-!
# Cutting a text into pieces

A text is cut into pieces that do not hold the separator, and joined from them again. So a text is
found in another one, separators around it, just where its pieces are found among those of the
other.

Results:
* `joinWith_cutAt`, `cutAt_joinWith`: cutting and joining undo each other.
* `cutAt_append_cons`: the pieces of two texts with a separator between them.
* `enclosed_infix_iff`: pieces between separators are found among the inner pieces of a text.
-/

namespace PackLint

/-! ## Cutting and joining -/

theorem cutAt_of_not_mem {sep : Char} {cs : List Char} (h : sep ∉ cs) : cutAt sep cs = [cs] := by
  induction cs with
  | nil => rfl
  | cons c cs ih =>
    rw [List.mem_cons, not_or] at h
    simp only [cutAt]
    rw [if_neg (Ne.symm h.1), ih h.2]

theorem cutAt_append {sep : Char} {cs : List Char} (h : sep ∉ cs) (rest : List Char) :
    cutAt sep (cs ++ sep :: rest) = cs :: cutAt sep rest := by
  induction cs with
  | nil => simp [cutAt]
  | cons c cs ih =>
    rw [List.mem_cons, not_or] at h
    simp only [List.cons_append, cutAt]
    rw [if_neg (Ne.symm h.1), ih h.2]

theorem joinWith_cutAt (sep : Char) (cs : List Char) : joinWith sep (cutAt sep cs) = cs := by
  induction cs with
  | nil => rfl
  | cons c cs ih =>
    obtain ⟨piece, pieces, hcut⟩ := List.exists_cons_of_ne_nil (cutAt_ne_nil sep cs)
    rw [hcut] at ih
    simp only [cutAt]
    rw [hcut]
    split
    · rename_i hc
      rw [joinWith, ih, hc, List.nil_append]
    · cases pieces with
      | nil => exact congrArg (c :: ·) ih
      | cons p ps => exact congrArg (c :: ·) ih

theorem not_mem_of_mem_cutAt {sep : Char} {cs piece : List Char} (h : piece ∈ cutAt sep cs) :
    sep ∉ piece := by
  induction cs generalizing piece with
  | nil =>
    rw [List.mem_singleton.mp h]
    exact List.not_mem_nil
  | cons c cs ih =>
    obtain ⟨first, pieces, hcut⟩ := List.exists_cons_of_ne_nil (cutAt_ne_nil sep cs)
    rw [hcut] at ih
    obtain ⟨hfirst, hpieces⟩ := List.forall_mem_cons.mp fun q (hq : q ∈ first :: pieces) => ih hq
    simp only [cutAt] at h
    rw [hcut] at h
    split at h
    · rcases List.mem_cons.mp h with rfl | h
      · exact List.not_mem_nil
      · exact ih h
    · rename_i hc
      rcases List.mem_cons.mp h with rfl | h
      · exact List.not_mem_cons_of_ne_of_not_mem (Ne.symm hc) hfirst
      · exact hpieces piece h

variable {sep : Char} {cs piece : List Char} {ps qs : List (List Char)}

theorem cutAt_append_cons (sep : Char) (cs rest : List Char) :
    cutAt sep (cs ++ sep :: rest) = cutAt sep cs ++ cutAt sep rest := by
  induction cs with
  | nil => simp [cutAt]
  | cons c cs ih =>
    obtain ⟨piece, pieces, hcut⟩ := List.exists_cons_of_ne_nil (cutAt_ne_nil sep cs)
    simp only [List.cons_append, cutAt, ih, hcut]
    split <;> rfl

theorem cutAt_joinWith (hne : ps ≠ []) (h : ∀ p ∈ ps, sep ∉ p) :
    cutAt sep (joinWith sep ps) = ps := by
  induction ps with
  | nil => exact absurd rfl hne
  | cons p ps ih =>
    obtain ⟨hp, hps⟩ := List.forall_mem_cons.mp h
    cases ps with
    | nil => exact cutAt_of_not_mem hp
    | cons q ps => exact (cutAt_append hp _).trans (congrArg _ (ih (List.cons_ne_nil _ _) hps))

theorem joinWith_append (hps : ps ≠ []) (hqs : qs ≠ []) :
    joinWith sep (ps ++ qs) = joinWith sep ps ++ sep :: joinWith sep qs := by
  induction ps with
  | nil => exact absurd rfl hps
  | cons p ps ih =>
    cases ps with
    | nil =>
      obtain ⟨q, qs, rfl⟩ := List.exists_cons_of_ne_nil hqs
      rfl
    | cons p' ps =>
      have hrest := ih (List.cons_ne_nil _ _)
      simp only [List.cons_append, joinWith] at hrest ⊢
      rw [hrest, List.append_assoc, List.cons_append]

/-! ## Pieces in a text -/

/-- An end without a separator lies behind every separator. -/
theorem suffix_append_cons_iff {stop rest : List Char} (h : sep ∉ stop) (front : List Char) :
    stop <:+ front ++ sep :: rest ↔ stop <:+ rest := by
  constructor
  · intro hstop
    rcases List.suffix_or_suffix_of_suffix hstop (List.suffix_append front (sep :: rest)) with
      hs | hs
    · rcases List.suffix_cons_iff.mp hs with rfl | hs
      · exact absurd List.mem_cons_self h
      · exact hs
    · exact absurd (hs.subset List.mem_cons_self) h
  · exact fun hstop => (hstop.trans (List.suffix_cons _ _)).trans (List.suffix_append _ _)

/-- The pieces of a text but the first and the last. -/
def innerPieces (sep : Char) (cs : List Char) : List (List Char) := (cutAt sep cs).tail.dropLast

theorem innerPieces_append_cons (sep : Char) (cs rest : List Char) :
    innerPieces sep (cs ++ sep :: rest) = (cutAt sep cs).tail ++ (cutAt sep rest).dropLast := by
  rw [innerPieces, cutAt_append_cons, List.tail_append_of_ne_nil (cutAt_ne_nil _ _),
    List.dropLast_append_of_ne_nil (cutAt_ne_nil _ _)]

/-- The pieces with a separator in front of each, and one behind the last. -/
def enclosed (sep : Char) (ps : List (List Char)) : List Char := sep :: joinWith sep ps ++ [sep]

theorem suffix_append_enclosed_iff {stop rest : List Char} (h : sep ∉ stop) (front : List Char)
    (ps : List (List Char)) : stop <:+ front ++ enclosed sep ps ++ rest ↔ stop <:+ rest := by
  have hassoc : front ++ enclosed sep ps ++ rest =
      (front ++ sep :: joinWith sep ps) ++ sep :: rest := by
    simp [enclosed]
  rw [hassoc, suffix_append_cons_iff h]

/-- **Pieces between separators are found among the inner pieces of a text.** -/
theorem enclosed_infix_iff (hne : ps ≠ []) (h : ∀ p ∈ ps, sep ∉ p) :
    enclosed sep ps <:+: cs ↔ ps <:+: innerPieces sep cs := by
  constructor
  · rintro ⟨front, rest, rfl⟩
    have hassoc : front ++ enclosed sep ps ++ rest =
        front ++ sep :: (joinWith sep ps ++ sep :: rest) := by simp [enclosed]
    rw [hassoc, innerPieces_append_cons, cutAt_append_cons, cutAt_joinWith hne h,
      List.dropLast_append_of_ne_nil (cutAt_ne_nil _ _), ← List.append_assoc]
    exact List.infix_append _ _ _
  · rintro ⟨us, vs, hinner⟩
    obtain ⟨first, behind, hcut⟩ := List.exists_cons_of_ne_nil (cutAt_ne_nil sep cs)
    rw [innerPieces, hcut, List.tail_cons] at hinner
    obtain ⟨last, hlast⟩ : ∃ last, behind = us ++ ps ++ vs ++ [last] := by
      have hbehind : behind ≠ [] := by
        rintro rfl
        simp [hne] at hinner
      exact ⟨behind.getLast hbehind, by rw [hinner, List.dropLast_concat_getLast]⟩
    refine ⟨joinWith sep (first :: us), joinWith sep (vs ++ [last]), ?_⟩
    have hpieces : cutAt sep cs = first :: us ++ (ps ++ (vs ++ [last])) := by
      rw [hcut, hlast]
      simp
    rw [← joinWith_cutAt sep cs, hpieces, joinWith_append (List.cons_ne_nil _ _) (by simp),
      joinWith_append hne (by simp)]
    simp [enclosed]

theorem not_mem_of_mem_innerPieces (h : piece ∈ innerPieces sep cs) : sep ∉ piece :=
  not_mem_of_mem_cutAt (List.mem_of_mem_tail (List.dropLast_subset _ h))

theorem enclosed_append (hps : ps ≠ []) (hqs : qs ≠ []) (cs : List Char) :
    enclosed sep ps ++ cs ++ enclosed sep qs = enclosed sep (ps ++ cutAt sep cs ++ qs) := by
  have hleft : ps ++ cutAt sep cs ≠ [] := List.append_ne_nil_of_left_ne_nil hps _
  unfold enclosed
  rw [joinWith_append hleft hqs, joinWith_append hps (cutAt_ne_nil sep cs), joinWith_cutAt]
  simp

/-- **Pieces of which some others stand between**, whatever they are. -/
theorem enclosed_append_infix_iff (hps : ps ≠ []) (hqs : qs ≠ []) (h : ∀ p ∈ ps, sep ∉ p)
    (h' : ∀ q ∈ qs, sep ∉ q) : (∃ ds, enclosed sep ps ++ ds ++ enclosed sep qs <:+: cs) ↔
      ∃ between ≠ [], ps ++ between ++ qs <:+: innerPieces sep cs := by
  have hne (between : List (List Char)) : ps ++ between ++ qs ≠ [] :=
    List.append_ne_nil_of_right_ne_nil _ hqs
  have hfree {between : List (List Char)} (hb : ∀ p ∈ between, sep ∉ p) :
      ∀ p ∈ ps ++ between ++ qs, sep ∉ p :=
    List.forall_mem_append.mpr ⟨List.forall_mem_append.mpr ⟨h, hb⟩, h'⟩
  constructor
  · rintro ⟨ds, hds⟩
    rw [enclosed_append hps hqs, enclosed_infix_iff (hne _) (hfree fun _ => not_mem_of_mem_cutAt)]
      at hds
    exact ⟨cutAt sep ds, cutAt_ne_nil sep ds, hds⟩
  · rintro ⟨between, hbetween, hin⟩
    have hb : ∀ p ∈ between, sep ∉ p := fun p hp => not_mem_of_mem_innerPieces
      (hin.subset (List.mem_append_left _ (List.mem_append_right _ hp)))
    refine ⟨joinWith sep between, ?_⟩
    rw [enclosed_append hps hqs, cutAt_joinWith hbetween hb, enclosed_infix_iff (hne _) (hfree hb)]
    exact hin

end PackLint
