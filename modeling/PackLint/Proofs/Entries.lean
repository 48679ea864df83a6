import PackLint.Entries
import Mathlib.Data.List.Nodup
import Mathlib.Data.List.Perm.Basic

/-!
# Keys that stand once

In a list whose keys all differ an element is found by its key. Entries stay such a list under
insertions, and properties that exclude each other divide the elements that have one of them.

Results:
* `find?_of_nodup_map`: an element is found by its key.
* `flatMap_filter_perm`: what some properties select one by one is what any of them selects.
* `Entries.nodup_insertAll`: insertions keep keys apart.
* `Entries.lookup_eq_some_iff`: what is found under a key is its entry.
-/

namespace PackLint

/-- **An element is found by its key.** -/
theorem find?_of_nodup_map {α β : Type} [DecidableEq β] {f : α → β} {l : List α}
    (hn : (l.map f).Nodup) {x : α} (hx : x ∈ l) :
    l.find? (f · = f x) = some x := by
  cases hfind : l.find? (f · = f x) with
  | none => exact absurd (decide_eq_true rfl) (List.find?_eq_none.mp hfind x hx)
  | some y =>
    have hy : f y = f x := of_decide_eq_true
      (List.find?_some (p := fun y => decide (f y = f x)) hfind)
    rw [List.inj_on_of_nodup_map hn (List.mem_of_find?_eq_some hfind) hx hy]

/-- What only the elements of one key bring is what the element with the key brings. -/
theorem flatMap_of_nodup_map {α β γ : Type} {f : α → β} {g : α → List γ} {l : List α}
    (hn : (l.map f).Nodup) {x : α} (hx : x ∈ l) (h : ∀ y ∈ l, f y ≠ f x → g y = []) :
    l.flatMap g = g x := by
  induction l with
  | nil => cases hx
  | cons y l ih =>
    obtain ⟨hy, hn⟩ := List.nodup_cons.mp hn
    obtain ⟨hfirst, hothers⟩ := List.forall_mem_cons.mp h
    rw [List.flatMap_cons]
    rcases List.mem_cons.mp hx with rfl | hx
    · have hnone : l.flatMap g = [] := List.flatMap_eq_nil_iff.mpr fun z hz =>
        hothers z hz fun heq => hy (heq ▸ List.mem_map_of_mem hz)
      rw [hnone, List.append_nil]
    · rw [hfirst fun heq => hy (heq ▸ List.mem_map_of_mem hx), ih hn hx hothers, List.nil_append]

/-- **What some properties select one by one is what any of them selects**, if no two select the
same element. -/
theorem flatMap_filter_perm {ι α : Type} {P : ι → α → Bool} {is : List ι}
    (h : is.Pairwise fun i j => ∀ x, P i x → ¬ P j x) (l : List α) :
    (is.flatMap fun i => l.filter (P i)).Perm (l.filter fun x => is.any (P · x)) := by
  induction is with
  | nil => simp
  | cons i is ih =>
    obtain ⟨hfirst, his⟩ := List.pairwise_cons.mp h
    have hsplit := List.filter_append_perm (P i) (l.filter fun x => (i :: is).any (P · x))
    have hone : (l.filter fun x => (i :: is).any (P · x)).filter (P i) = l.filter (P i) := by
      rw [List.filter_filter]
      refine List.filter_congr fun x _ => ?_
      cases hx : P i x <;> simp [hx]
    have hothers : (l.filter fun x => (i :: is).any (P · x)).filter (fun x => !P i x) =
        l.filter fun x => is.any (P · x) := by
      rw [List.filter_filter]
      refine List.filter_congr fun x _ => ?_
      cases hx : P i x with
      | false => simp [hx]
      | true =>
        have hnone : is.any (P · x) = false :=
          List.any_eq_false.mpr fun j hj => hfirst j hj x hx
        simp [hnone]
    rw [hone, hothers] at hsplit
    rw [List.flatMap_cons]
    exact ((ih his).append_left _).trans hsplit

theorem nodup_eraseDups (l : List String) : l.eraseDups.Nodup := by
  induction hn : l.length using Nat.strongRecOn generalizing l with
  | ind k ih =>
    cases l with
    | nil => exact List.nodup_nil
    | cons a l =>
      rw [List.eraseDups_cons, List.nodup_cons]
      refine ⟨by simp [List.mem_eraseDups], ih _ ?_ _ rfl⟩
      rw [← hn, List.length_cons]
      exact Nat.lt_succ_of_le (List.length_filter_le _ l)

namespace Entries

variable {β : Type} {entries more : List (String × β)}

theorem nodup_insert (h : (entries.map Prod.fst).Nodup) (key : String) (value : β) :
    ((insert key value entries).map Prod.fst).Nodup := by
  induction entries with
  | nil => exact List.nodup_singleton key
  | cons e es ih =>
    obtain ⟨he, hes⟩ := List.nodup_cons.mp h
    unfold insert
    split
    · rename_i hkey
      rw [List.map_cons, List.nodup_cons, ← hkey]
      exact ⟨he, hes⟩
    · rename_i hkey
      rw [List.map_cons, List.nodup_cons]
      refine ⟨fun hm => ?_, ih hes⟩
      obtain ⟨e', he', hfst⟩ := List.mem_map.mp hm
      rcases mem_insert he' with rfl | he'
      · exact hkey hfst.symm
      · exact he (hfst ▸ List.mem_map_of_mem he')

theorem insertAll_ne_nil (h : entries ≠ []) (more : List (String × β)) :
    insertAll entries more ≠ [] := by
  unfold insertAll
  induction more generalizing entries with
  | nil => exact h
  | cons e more ih =>
    refine ih ?_
    obtain ⟨first, others, rfl⟩ := List.exists_cons_of_ne_nil h
    simp only [insert]
    split <;> exact List.cons_ne_nil _ _

theorem mem_insert_of_ne {key : String} {e : String × β} (he : e ∈ entries) (hkey : e.1 ≠ key)
    (value : β) : e ∈ insert key value entries := by
  induction entries with
  | nil => cases he
  | cons a es ih =>
    unfold insert
    rcases List.mem_cons.mp he with rfl | he
    · rw [if_neg hkey]
      exact List.mem_cons_self
    · split
      · exact List.mem_cons_of_mem _ he
      · exact List.mem_cons_of_mem _ (ih he)

/-- An entry stays as long as nothing is inserted under its key. -/
theorem mem_insertAll_of_not_mem {e : String × β} (he : e ∈ entries)
    (hkey : e.1 ∉ more.map Prod.fst) : e ∈ insertAll entries more := by
  unfold insertAll
  induction more generalizing entries with
  | nil => exact he
  | cons a more ih =>
    rw [List.map_cons, List.mem_cons, not_or] at hkey
    exact ih (mem_insert_of_ne he hkey.1 a.2) hkey.2

/-- Insertions keep keys apart. -/
theorem nodup_insertAll (h : (entries.map Prod.fst).Nodup) :
    ((insertAll entries more).map Prod.fst).Nodup := by
  unfold insertAll
  induction more generalizing entries with
  | nil => exact h
  | cons e more ih => exact ih (nodup_insert h e.1 e.2)

/-- Entries whose keys stand apart are found under their keys, and nothing else is. -/
theorem lookup_eq_some_iff (h : (entries.map Prod.fst).Nodup) {key : String} {value : β} :
    entries.lookup key = some value ↔ (key, value) ∈ entries := by
  induction entries with
  | nil => simp
  | cons e es ih =>
    obtain ⟨k, v⟩ := e
    obtain ⟨hk, hes⟩ := List.nodup_cons.mp h
    rw [List.lookup_cons, List.mem_cons, Prod.mk.injEq]
    by_cases hkey : key = k
    · subst hkey
      have hnot : (key, value) ∉ es := fun hm => hk (List.mem_map.mpr ⟨_, hm, rfl⟩)
      simp [hnot, eq_comm]
    · simp [hkey, beq_eq_false_iff_ne.mpr hkey, ih hes]

theorem isSome_lookup_iff (h : (entries.map Prod.fst).Nodup) {key : String} :
    (entries.lookup key).isSome = true ↔ key ∈ entries.map Prod.fst := by
  rw [Option.isSome_iff_exists, List.mem_map]
  constructor
  · rintro ⟨value, hvalue⟩
    exact ⟨(key, value), (lookup_eq_some_iff h).mp hvalue, rfl⟩
  · rintro ⟨⟨_, value⟩, he, rfl⟩
    exact ⟨value, (lookup_eq_some_iff h).mpr he⟩

end Entries

end PackLint
