import PackLint.SkillLine.Mechanic
import PackLint.Proofs.SkillLine.Escape
import Mathlib.Data.List.TakeWhile

/-!
# Bare numbers

A bare number is written with digits of any script, perhaps a point in front of the last of them,
and perhaps a dash in front of all. Every such text is read as a floating point number, so what is
said of a bare number is said of its value.

Results:
* `Mechanic.unescape_bareNumber`: a bare number holds no sentinel.
* `Mechanic.isSome_readFloat?`: a bare number is read as a floating point number.
-/

namespace PackLint

open SkillLine

/-! ## Digits -/

theorem digitValue?_lt {c : Char} {d : Nat} (h : digitValue? c = some d) : d < 10 := by
  unfold digitValue? at h
  split at h
  · rename_i hascii
    have hle : c.toNat ≤ 57 := hascii.2
    cases h
    omega
  · obtain ⟨z, hz, rfl⟩ := Option.map_eq_some_iff.mp h
    have hrange : z ≤ c.toNat ∧ c.toNat ≤ z + 9 := by simpa using List.find?_some hz
    omega

/-- A digit of any script lies in one of the blocks of ten. -/
theorem exists_zero_of_isDecimal {c : Char} (h : isDecimal c) :
    ∃ z ∈ zeroDigits, z ≤ c.toNat ∧ c.toNat ≤ z + 9 := by
  obtain ⟨d, hd⟩ := Option.isSome_iff_exists.mp h
  unfold digitValue? at hd
  split at hd
  · rename_i hascii
    have hlow : 48 ≤ c.toNat := hascii.1
    have hhigh : c.toNat ≤ 57 := hascii.2
    exact ⟨0x0030, by decide, by omega, by omega⟩
  · obtain ⟨z, hz, -⟩ := Option.map_eq_some_iff.mp hd
    exact ⟨z, List.mem_of_find?_eq_some hz, by simpa using List.find?_some hz⟩

theorem not_isBlank_of_isDecimal {c : Char} (h : isDecimal c) : isBlank c = false := by
  have hapart : ∀ z ∈ zeroDigits, ∀ r ∈ blankRanges, z + 9 < r.first ∨ r.last < z := by decide
  obtain ⟨z, hz, hlow, hhigh⟩ := exists_zero_of_isDecimal h
  rw [Bool.eq_false_iff]
  intro hblank
  obtain ⟨r, hr, hin⟩ := List.any_eq_true.mp hblank
  obtain ⟨hfirst, hlast⟩ := of_decide_eq_true hin
  have hout := hapart z hz r hr
  omega

/-- The digit of ASCII that a digit is written as. -/
def asciiDigit (c : Char) : Char :=
  match digitValue? c with
  | some d => Char.ofNat (48 + d)
  | none => c

theorem asciiDigits_eq (cs : List Char) : asciiDigits cs = cs.map asciiDigit := rfl

theorem isAsciiDigit_asciiDigit {c : Char} (h : isDecimal c) : isAsciiDigit (asciiDigit c) := by
  obtain ⟨d, hd⟩ := Option.isSome_iff_exists.mp h
  have hall : ∀ d < 10, isAsciiDigit (Char.ofNat (48 + d)) = true := by decide
  unfold asciiDigit
  rw [hd]
  exact hall d (digitValue?_lt hd)

/-- The digits of ASCII. -/
def asciiDigitChars : List Char := ['0', '1', '2', '3', '4', '5', '6', '7', '8', '9']

theorem mem_asciiDigitChars {c : Char} (h : isAsciiDigit c) : c ∈ asciiDigitChars := by
  obtain ⟨hlow, hhigh⟩ : '0' ≤ c ∧ c ≤ '9' := by simpa [isAsciiDigit] using h
  have hlow : 48 ≤ c.toNat := hlow
  have hhigh : c.toNat ≤ 57 := hhigh
  have hall : ∀ n < 10, Char.ofNat (48 + n) ∈ asciiDigitChars := by decide
  have hmem := hall (c.toNat - 48) (by omega)
  rwa [Nat.add_sub_of_le hlow, Char.ofNat_toNat] at hmem

/-! ## Reading -/

theorem dropUnderscores?_eq {last : Char} {cs : List Char} (hlast : last ≠ '_')
    (hcs : '_' ∉ cs) : dropUnderscores? last cs = some cs := by
  induction cs generalizing last with
  | nil => rw [dropUnderscores?, if_neg hlast]
  | cons c cs ih =>
    obtain ⟨hc, hrest⟩ := List.ne_and_not_mem_of_not_mem_cons hcs
    rw [dropUnderscores?, if_neg hc.symm, if_neg (fun h => hlast h.1), ih hc.symm hrest]
    rfl

theorem trimWhiteSpace_eq {cs : List Char} (h : ∀ c ∈ cs, isBlank c = false) :
    trimWhiteSpace cs = cs := by
  have hdrop : ∀ {ds : List Char}, (∀ c ∈ ds, isBlank c = false) →
      ds.dropWhile isWhiteSpace = ds := by
    intro ds hds
    cases ds with
    | nil => rfl
    | cons d ds =>
      refine List.dropWhile_cons_of_neg ?_
      rw [isWhiteSpace, hds d List.mem_cons_self]
      exact Bool.false_ne_true
  unfold trimWhiteSpace
  rw [hdrop h, hdrop (fun c hc => h c (List.mem_reverse.mp hc)), List.reverse_reverse]

/-- Digits, perhaps a point, and digits are read as a decimal number. -/
theorem isSome_readDecimal? (negative : Bool) {whole rest : List Char}
    (hwhole : ∀ c ∈ whole, isAsciiDigit c)
    (hrest : (rest = [] ∧ whole ≠ []) ∨
      ∃ fraction, rest = '.' :: fraction ∧ fraction ≠ [] ∧ ∀ c ∈ fraction, isAsciiDigit c) :
    (readDecimal? negative (whole ++ rest)).isSome := by
  have htake : (whole ++ rest).takeWhile isAsciiDigit = whole ++ rest.takeWhile isAsciiDigit :=
    List.takeWhile_append_of_pos hwhole
  have hdrop : (whole ++ rest).dropWhile isAsciiDigit = rest.dropWhile isAsciiDigit :=
    List.dropWhile_append_of_pos hwhole
  unfold readDecimal?
  rcases hrest with ⟨rfl, hne⟩ | ⟨fraction, rfl, hne, hfraction⟩
  · rw [htake, hdrop]
    cases whole with
    | nil => exact absurd rfl hne
    | cons c whole => rfl
  · have hall : fraction.takeWhile isAsciiDigit = fraction :=
      List.takeWhile_eq_self_iff.mpr hfraction
    have hnone : fraction.dropWhile isAsciiDigit = [] :=
      List.dropWhile_eq_nil_iff.mpr hfraction
    rw [htake, hdrop, List.dropWhile_cons_of_neg (by decide)]
    simp only [hall, hnone]
    cases fraction with
    | nil => exact absurd rfl hne
    | cons c fraction =>
      simp only [List.isEmpty_cons, Bool.and_false]
      rfl

/-- Digits and points are none of the words for numbers that are not finite. -/
theorem isSome_readPlainFloat? {sign whole rest : List Char} (hsign : sign = [] ∨ sign = ['-'])
    (hwhole : ∀ c ∈ whole, isAsciiDigit c)
    (hrest : (rest = [] ∧ whole ≠ []) ∨
      ∃ fraction, rest = '.' :: fraction ∧ fraction ≠ [] ∧ ∀ c ∈ fraction, isAsciiDigit c) :
    (readPlainFloat? (sign ++ (whole ++ rest))).isSome := by
  obtain ⟨c, cs, hcs, hc⟩ : ∃ c cs, whole ++ rest = c :: cs ∧ (c = '.' ∨ isAsciiDigit c) := by
    cases whole with
    | nil =>
      rcases hrest with ⟨-, hne⟩ | ⟨fraction, rfl, -⟩
      · exact absurd rfl hne
      · exact ⟨'.', fraction, rfl, Or.inl rfl⟩
    | cons c whole => exact ⟨c, whole ++ rest, rfl, Or.inr (hwhole c List.mem_cons_self)⟩
  obtain ⟨hlower, hminus, hplus, hi, hn⟩ :
      c.toLower = c ∧ c ≠ '-' ∧ c ≠ '+' ∧ c ≠ 'i' ∧ c ≠ 'n' := by
    have hall : ∀ c ∈ '.' :: asciiDigitChars,
        c.toLower = c ∧ c ≠ '-' ∧ c ≠ '+' ∧ c ≠ 'i' ∧ c ≠ 'n' :=
      List.forall_iff_forall_mem.mp (by decide)
    rcases hc with rfl | hdigit
    · exact hall '.' List.mem_cons_self
    · exact hall c (List.mem_cons_of_mem _ (mem_asciiDigitChars hdigit))
  have hsplit : splitSign (sign ++ (whole ++ rest)) = (!sign.isEmpty, whole ++ rest) := by
    rcases hsign with rfl | rfl
    · rw [List.nil_append, hcs]
      unfold splitSign
      split
      · rename_i heq
        cases heq
        exact absurd rfl hminus
      · rename_i heq
        cases heq
        exact absurd rfl hplus
      · rfl
    · rfl
  have hword : ∀ word : List Char, word.head? ≠ some c →
      String.ofList ((whole ++ rest).map Char.toLower) ≠ String.ofList word := by
    intro word hword heq
    have heq := String.ofList_injective heq
    rw [hcs, List.map_cons, hlower] at heq
    rw [← heq] at hword
    exact hword rfl
  have hinf : ∀ cs : List Char, ('i' :: cs).head? ≠ some c :=
    fun cs h => hi (Option.some.inj h).symm
  have hnan : ∀ cs : List Char, ('n' :: cs).head? ≠ some c :=
    fun cs h => hn (Option.some.inj h).symm
  unfold readPlainFloat?
  simp only [hsplit]
  rw [if_neg, if_neg (hword ['n', 'a', 'n'] (hnan _)), Option.isSome_map]
  · exact isSome_readDecimal? _ hwhole hrest
  · rintro (h | h)
    · exact hword ['i', 'n', 'f'] (hinf _) h
    · exact hword ['i', 'n', 'f', 'i', 'n', 'i', 't', 'y'] (hinf _) h

namespace Mechanic

/-- A bare number has perhaps a dash, digits, and perhaps a point and digits. -/
theorem exists_bareNumber {text : List Char} (h : isBareNumber text) :
    ∃ sign whole rest, text = sign ++ (whole ++ rest) ∧ (sign = [] ∨ sign = ['-']) ∧
      (∀ c ∈ whole, isDecimal c) ∧
      ((rest = [] ∧ whole ≠ []) ∨
        ∃ fraction, rest = '.' :: fraction ∧ fraction ≠ [] ∧ ∀ c ∈ fraction, isDecimal c) := by
  have hsign : ∃ sign digits, text = sign ++ digits ∧ (sign = [] ∨ sign = ['-']) ∧
      (if text.head? = some '-' then text.drop 1 else text) = digits := by
    by_cases hhead : text.head? = some '-'
    · rw [if_pos hhead]
      cases text with
      | nil => cases hhead
      | cons c cs =>
        cases hhead
        exact ⟨['-'], cs, rfl, Or.inr rfl, rfl⟩
    · rw [if_neg hhead]
      exact ⟨[], text, rfl, Or.inl rfl, rfl⟩
  obtain ⟨sign, digits, htext, hsign, hdigits⟩ := hsign
  refine ⟨sign, digits.takeWhile isDecimal, digits.dropWhile isDecimal, ?_, hsign,
    fun c hc => List.mem_takeWhile_imp hc, ?_⟩
  · rw [List.takeWhile_append_dropWhile, htext]
  · unfold isBareNumber at h
    simp only [hdigits] at h
    split at h
    · rename_i hnone
      refine Or.inl ⟨hnone, fun hempty => ?_⟩
      rw [← List.takeWhile_append_dropWhile (p := isDecimal) (l := digits), hnone, hempty] at h
      cases h
    · rename_i fraction hpoint
      rw [Bool.and_eq_true] at h
      refine Or.inr ⟨fraction, hpoint, ?_, List.all_eq_true.mp h.2⟩
      rintro rfl
      exact absurd h.1 (by decide)
    · cases h

/-- A dash, a point and the digits are no blanks. -/
theorem bareNumber_chars {text : List Char} (h : isBareNumber text) :
    ∀ c ∈ text, c = '-' ∨ c = '.' ∨ isDecimal c := by
  obtain ⟨sign, whole, rest, rfl, hsign, hwhole, hrest⟩ := exists_bareNumber h
  intro c hc
  rcases List.mem_append.mp hc with hc | hc
  · rcases hsign with rfl | rfl
    · cases hc
    · exact Or.inl (List.mem_singleton.mp hc)
  · rcases List.mem_append.mp hc with hc | hc
    · exact Or.inr (Or.inr (hwhole c hc))
    · rcases hrest with ⟨rfl, -⟩ | ⟨fraction, rfl, -, hfraction⟩
      · cases hc
      · rcases List.mem_cons.mp hc with rfl | hc
        · exact Or.inr (Or.inl rfl)
        · exact Or.inr (Or.inr (hfraction c hc))

/-- **A bare number holds no sentinel.** -/
theorem unescape_bareNumber {text : List Char} (h : isBareNumber text) : unescape text = text := by
  refine unescape_of_plain fun e he hin => ?_
  obtain ⟨t, ht, -⟩ := sentinel_shape he
  have hmark : '<' ∈ text := hin.subset (ht ▸ List.mem_cons_self)
  have hplain : ¬ ('<' = '-' ∨ '<' = '.' ∨ isDecimal '<') := by decide
  exact hplain (bareNumber_chars h '<' hmark)

/-- **A bare number is read as a floating point number.** -/
theorem isSome_readFloat? {text : List Char} (h : isBareNumber text) :
    (readFloat? text).isSome := by
  have hchars := bareNumber_chars h
  have hblank : ∀ c ∈ text, isBlank c = false := by
    intro c hc
    rcases hchars c hc with rfl | rfl | hdigit
    · decide
    · decide
    · exact not_isBlank_of_isDecimal hdigit
  obtain ⟨sign, whole, rest, rfl, hsign, hwhole, hrest⟩ := exists_bareNumber h
  have hascii : ∀ cs : List Char, (∀ c ∈ cs, isDecimal c) →
      ∀ c ∈ cs.map asciiDigit, isAsciiDigit c := by
    intro cs hcs c hc
    obtain ⟨d, hd, rfl⟩ := List.mem_map.mp hc
    exact isAsciiDigit_asciiDigit (hcs d hd)
  have hsign' : sign.map asciiDigit = sign := by
    rcases hsign with rfl | rfl
    · rfl
    · decide
  have hrest' : (rest.map asciiDigit = [] ∧ whole.map asciiDigit ≠ []) ∨
      ∃ fraction, rest.map asciiDigit = '.' :: fraction ∧ fraction ≠ [] ∧
        ∀ c ∈ fraction, isAsciiDigit c := by
    rcases hrest with ⟨rfl, hne⟩ | ⟨fraction, rfl, hne, hfraction⟩
    · exact Or.inl ⟨rfl, fun h => hne (List.map_eq_nil_iff.mp h)⟩
    · refine Or.inr ⟨fraction.map asciiDigit, ?_, fun h => hne (List.map_eq_nil_iff.mp h),
        hascii fraction hfraction⟩
      rw [List.map_cons, (by decide : asciiDigit '.' = '.')]
  have hunderscore : '_' ∉ sign ++ (whole.map asciiDigit ++ rest.map asciiDigit) := by
    have hdigit : ¬ isAsciiDigit '_' = true := by decide
    rw [List.mem_append, List.mem_append]
    rintro (hm | hm | hm)
    · rcases hsign with rfl | rfl
      · cases hm
      · exact absurd hm (by decide)
    · exact hdigit (hascii whole hwhole _ hm)
    · rcases hrest' with ⟨hnil, -⟩ | ⟨fraction, hcons, -, hfraction⟩
      · rw [hnil] at hm
        cases hm
      · rw [hcons] at hm
        rcases List.mem_cons.mp hm with hm | hm
        · exact absurd hm (by decide)
        · exact hdigit (hfraction _ hm)
  unfold readFloat?
  rw [trimWhiteSpace_eq hblank, asciiDigits_eq, List.map_append, List.map_append, hsign',
    dropUnderscores?_eq (by decide) hunderscore]
  exact isSome_readPlainFloat? hsign (hascii whole hwhole) hrest'

end Mechanic

end PackLint
