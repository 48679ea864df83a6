import PackLint.Yaml.Scalar.Decode

/-!
# What a text denotes

A tag says how the text of a scalar is read. Each tag has values of one form, but for that of dates,
which may have a time.

Results:
* `decodeScalar_eq_ok_iff`: the value of a scalar is what its text denotes under its tag.
-/

namespace PackLint.Yaml

variable {version : Version} {text : List Char} {tag : ScalarTag} {start : Mark} {value : Value}

/-- A text denotes a value under a tag. -/
inductive Denotes (version : Version) (text : List Char) : ScalarTag → Value → Prop
  | null : Denotes version text .null .null
  | str : Denotes version text .str (.str (String.ofList text))
  | bool {b : Bool} (h : decodeBool? (lowerText (String.ofList text)) = some b) :
      Denotes version text .bool (.bool b)
  | int {n : Int} (h : decodeInt? version text = some n) :
      Denotes version text .int (.number (.int n))
  | float {x : Binary64} (h : decodeFloat? version text = some x) :
      Denotes version text .float (.number (.float x))
  | binary {bytes : List UInt8} (h : decodeBytes? text = some bytes) :
      Denotes version text .binary (.bytes bytes)
  | date {t : Timestamp} {d : Date} (ht : Timestamp.parse? text = some t)
      (h : t.value? = some (.date d)) : Denotes version text .timestamp (.date d)
  | dateTime {t : Timestamp} {u : DateTime} (ht : Timestamp.parse? text = some t)
      (h : t.value? = some (.dateTime u)) (hvalid : u.date.isValid) :
      Denotes version text .timestamp (.dateTime u)

/-- A timestamp is a date, with a time or without. -/
theorem Timestamp.value?_cases {t : Timestamp} (h : t.value? = some value) :
    (∃ d, value = .date d) ∨ ∃ u, value = .dateTime u := by
  unfold value? at h
  split at h
  · split at h <;> cases h
    exact .inl ⟨_, rfl⟩
  · simp only at h
    split at h <;> cases h
    exact .inr ⟨_, rfl⟩

/-- **The value of a scalar is what its text denotes under its tag.** -/
theorem decodeScalar_eq_ok_iff :
    decodeScalar version tag text start = .ok value ↔ Denotes version text tag value := by
  constructor
  · intro h
    unfold decodeScalar at h
    cases tag with
    | null => cases h; exact .null
    | str => cases h; exact .str
    | unknown name => cases h
    | timestamp =>
      simp only at h
      split at h
      · cases h
      · rename_i t ht
        split at h
        · split at h <;> cases h
          exact .dateTime ht ‹_› ‹_›
        · rename_i v hv hdate
          cases h
          rcases Timestamp.value?_cases hdate with ⟨d, rfl⟩ | ⟨u, rfl⟩
          · exact .date ht hdate
          · exact absurd rfl (hv u)
        · cases h
    | bool =>
      simp only at h
      split at h <;> cases h
      exact .bool ‹_›
    | int =>
      simp only at h
      split at h <;> cases h
      exact .int ‹_›
    | float =>
      simp only at h
      split at h <;> cases h
      exact .float ‹_›
    | binary =>
      simp only at h
      split at h <;> cases h
      exact .binary ‹_›
  · intro h
    unfold decodeScalar
    cases h with
    | null => rfl
    | str => rfl
    | bool h => simp only [h]
    | int h => simp only [h]
    | float h => simp only [h]
    | binary h => simp only [h]
    | date ht h => simp only [ht, h]
    | dateTime ht h hvalid => simp only [ht, h, if_pos hvalid]

end PackLint.Yaml
