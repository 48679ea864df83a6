/-!
# Entries

Lists of values under keys in which every key stands once, in the order of its first insertion.

Results:
* `Entries.lookup_insert`: after an insertion the key has the new value and all others what they
  had before.
* `Entries.mem_insertAll`: insertions bring no entries but their own.
* `Entries.insertAll_of_nodup`: entries under new keys are put behind the others.
-/

namespace PackLint

namespace Entries

variable {β : Type}

/-- Entries with `value` under `key`; a key that is already there keeps its place. -/
def insert (key : String) (value : β) : List (String × β) → List (String × β)
  | [] => [(key, value)]
  | e :: es => if e.1 = key then (key, value) :: es else e :: insert key value es

/-- Inserts more entries in order. -/
def insertAll (entries more : List (String × β)) : List (String × β) :=
  more.foldl (fun es e => insert e.1 e.2 es) entries

/-- The entries under their keys, the last one of each key. -/
def ofList (entries : List (String × β)) : List (String × β) :=
  insertAll [] entries

theorem lookup_insert (key other : String) (value : β) (entries : List (String × β)) :
    (insert key value entries).lookup other =
      if other = key then some value else entries.lookup other := by
  induction entries with
  | nil =>
    by_cases h : other = key
    · simp [insert, h]
    · simp [insert, List.lookup_cons, h, beq_eq_false_iff_ne.mpr h]
  | cons e es ih =>
    obtain ⟨k, v⟩ := e
    simp only [insert]
    split
    · rename_i h
      subst h
      by_cases h' : other = k
      · simp [h']
      · simp [List.lookup_cons, h', beq_eq_false_iff_ne.mpr h']
    · rename_i h
      by_cases h' : other = k
      · simp [h', h]
      · simp [List.lookup_cons, beq_eq_false_iff_ne.mpr h', ih]

theorem mem_insert {key : String} {value : β} {entries : List (String × β)} {e : String × β}
    (h : e ∈ insert key value entries) : e = (key, value) ∨ e ∈ entries := by
  induction entries with
  | nil => exact Or.inl (by simpa [insert] using h)
  | cons a es ih =>
    simp only [insert] at h
    split at h
    · rcases List.mem_cons.mp h with h | h
      · exact Or.inl h
      · exact Or.inr (List.mem_cons_of_mem a h)
    · rcases List.mem_cons.mp h with rfl | h
      · exact Or.inr List.mem_cons_self
      · exact (ih h).imp_right (List.mem_cons_of_mem a)

theorem mem_insertAll {more entries : List (String × β)} {e : String × β}
    (h : e ∈ insertAll entries more) : e ∈ entries ∨ e ∈ more := by
  unfold insertAll at h
  induction more generalizing entries with
  | nil => exact Or.inl h
  | cons a more ih =>
    rcases ih h with h | h
    · rcases mem_insert h with rfl | h
      · exact Or.inr List.mem_cons_self
      · exact Or.inl h
    · exact Or.inr (List.mem_cons_of_mem a h)

theorem insert_of_not_mem {key : String} (value : β) {entries : List (String × β)}
    (h : key ∉ entries.map Prod.fst) : insert key value entries = entries ++ [(key, value)] := by
  induction entries with
  | nil => rfl
  | cons e es ih =>
    rw [List.map_cons, List.mem_cons, not_or] at h
    rw [insert, if_neg (Ne.symm h.1), ih h.2, List.cons_append]

theorem insertAll_of_nodup {more entries : List (String × β)}
    (h : ((entries ++ more).map Prod.fst).Nodup) : insertAll entries more = entries ++ more := by
  unfold insertAll
  induction more generalizing entries with
  | nil => exact (List.append_nil entries).symm
  | cons e more ih =>
    have hassoc : entries ++ e :: more = entries ++ [e] ++ more := by simp
    have hkey : e.1 ∉ entries.map Prod.fst := by
      intro hm
      rw [List.map_append, List.nodup_append] at h
      exact h.2.2 e.1 hm e.1 List.mem_cons_self rfl
    rw [hassoc] at h ⊢
    rw [List.foldl_cons, insert_of_not_mem e.2 hkey]
    exact ih h

end Entries

end PackLint
