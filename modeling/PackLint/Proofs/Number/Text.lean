import PackLint.Number.Reading
import PackLint.Value
import PackLint.Proofs.Number.Exact

/-!
# The decimal number that a text writes

The text of a number is read back as a decimal number. Whether the digits stand around a point or
in front of an exponent, what is read is the decimal number that was written.

Results:
* `readDecimal?_eq`: what digits around a point with an exponent behind them are read as.
* `Number.ofText?_text`: the text of a number is read as the decimal number that it is written as.
-/

namespace PackLint

/-- The decimal number that a text writes. -/
def Decimal.ofText? (text : String) : Option Decimal :=
  let (negative, cs) := splitSign text.toList
  readDecimal? negative cs

/-! ## Digits -/

theorem isAsciiDigit_of_mem_toDigits {n : Nat} {c : Char} (h : c ∈ Nat.toDigits 10 n) :
    isAsciiDigit c := by
  have hdigit := Nat.isDigit_of_mem_toDigits (by decide) (by decide) h
  rw [Char.isDigit, Bool.and_eq_true, decide_eq_true_eq, decide_eq_true_eq] at hdigit
  exact decide_eq_true hdigit

theorem hexValue?_of_isAsciiDigit {c : Char} (h : isAsciiDigit c) :
    hexValue? c = some (c.toNat - 48) :=
  if_pos (of_decide_eq_true h)

theorem foldl_digits {cs : List Char} (h : ∀ c ∈ cs, isAsciiDigit c) (init : Nat) :
    cs.foldl (fun n c => n * 10 + (hexValue? c).getD 0) init = Nat.ofDigitChars 10 cs init := by
  induction cs generalizing init with
  | nil => rfl
  | cons c cs ih =>
    obtain ⟨hc, hcs⟩ := List.forall_mem_cons.mp h
    rw [List.foldl_cons, ih hcs, Nat.ofDigitChars_cons, hexValue?_of_isAsciiDigit hc, mul_comm]
    rfl

theorem digitsValue_eq {cs : List Char} (h : ∀ c ∈ cs, isAsciiDigit c) :
    digitsValue 10 cs = Nat.ofDigitChars 10 cs 0 :=
  foldl_digits h 0

/-! ## Digits around a point -/

/-- A point with digits behind it, or nothing without digits. -/
def pointed (fraction : List Char) : List Char :=
  if fraction.isEmpty then [] else '.' :: fraction

theorem takeWhile_digits {ds rest : List Char} (hds : ∀ c ∈ ds, isAsciiDigit c)
    (hrest : ∀ c ∈ rest.head?, isAsciiDigit c = false) :
    (ds ++ rest).takeWhile isAsciiDigit = ds ∧ (ds ++ rest).dropWhile isAsciiDigit = rest := by
  rw [List.takeWhile_append_of_pos hds, List.dropWhile_append_of_pos hds]
  cases rest with
  | nil => simp
  | cons c rest =>
    have hc := Bool.eq_false_iff.mp (hrest c rfl)
    simp [List.takeWhile_cons_of_neg hc, List.dropWhile_cons_of_neg hc]

/-- What digits around a point with an exponent behind them are read as. -/
theorem readDecimal?_eq (negative : Bool) {whole fraction tail : List Char} {exponent : Int}
    (hne : whole ≠ []) (hwhole : ∀ c ∈ whole, isAsciiDigit c)
    (hfraction : ∀ c ∈ fraction, isAsciiDigit c) (htail : ∀ c ∈ tail.head?, c = 'e')
    (hexponent : readExponent? tail = some exponent) :
    readDecimal? negative (whole ++ (pointed fraction ++ tail)) =
      some ⟨negative, Nat.ofDigitChars 10 (whole ++ fraction) 0, exponent - fraction.length⟩ := by
  have hbehind : ∀ c ∈ tail.head?, isAsciiDigit c = false := fun c hc => by
    rw [htail c hc]
    decide
  have hvalue := digitsValue_eq (List.forall_mem_append.mpr ⟨hwhole, hfraction⟩)
  have hwhole' : whole.isEmpty = false := by simpa using hne
  cases fraction with
  | nil =>
    obtain ⟨htake, hdrop⟩ := takeWhile_digits hwhole hbehind
    -- there is no point behind the digits, so they are all
    have hpoint : ∀ r, tail ≠ '.' :: r := fun r h => by
      have := htail '.' (by rw [h]; rfl)
      exact absurd this (by decide)
    simp only [pointed, List.isEmpty_nil, if_true, List.nil_append]
    unfold readDecimal?
    simp only [htake, hdrop, hwhole', Bool.false_and, Bool.false_eq_true, if_false, hexponent,
      hvalue]
    rfl
  | cons f fs =>
    have hpoint : ∀ c ∈ ('.' :: (f :: fs ++ tail)).head?, isAsciiDigit c = false := by
      rintro _ ⟨⟩
      decide
    obtain ⟨htake, hdrop⟩ := takeWhile_digits hwhole hpoint
    obtain ⟨htake', hdrop'⟩ := takeWhile_digits hfraction hbehind
    simp only [pointed, List.isEmpty_cons, Bool.false_eq_true, if_false, List.cons_append]
    rw [← List.cons_append]
    unfold readDecimal?
    simp only [htake, hdrop, htake', hdrop', hwhole', Bool.false_and, Bool.false_eq_true, if_false,
      hexponent, hvalue]
    rfl

/-! ## The texts of numbers -/

theorem Decimal.value_shift (negative : Bool) (c k : Nat) (e : Int) :
    (⟨negative, c * 10 ^ k, e⟩ : Decimal).value = (⟨negative, c, e + k⟩ : Decimal).value := by
  have hpow : (10 : ℚ) ^ (e + k) = 10 ^ e * 10 ^ k := by
    rw [zpow_add₀ (by norm_num), zpow_natCast]
  unfold value Binary64.sign
  rw [hpow]
  split <;> push_cast <;> ring

/-- Digits around a point are read as they stand. -/
theorem readDecimal?_pointed (negative : Bool) {whole fraction : List Char} (hne : whole ≠ [])
    (hwhole : ∀ c ∈ whole, isAsciiDigit c) (hfraction : ∀ c ∈ fraction, isAsciiDigit c) :
    readDecimal? negative (whole ++ pointed fraction) =
      some ⟨negative, Nat.ofDigitChars 10 (whole ++ fraction) 0, -fraction.length⟩ := by
  have h : readDecimal? negative (whole ++ (pointed fraction ++ [])) =
      some ⟨negative, Nat.ofDigitChars 10 (whole ++ fraction) 0, 0 - fraction.length⟩ :=
    readDecimal?_eq negative hne hwhole hfraction (by simp) rfl
  rwa [List.append_nil, zero_sub] at h

theorem isAsciiDigit_of_mem_replicate {k : Nat} {c : Char} (h : c ∈ List.replicate k '0') :
    isAsciiDigit c := by
  rw [List.eq_of_mem_replicate h]
  decide

theorem ofDigitChars_toDigits_zeros (n k : Nat) :
    Nat.ofDigitChars 10 (Nat.toDigits 10 n ++ List.replicate k '0') 0 = n * 10 ^ k := by
  rw [Nat.ofDigitChars_append, Nat.ofDigitChars_replicate_zero, Nat.ofDigitChars_ten_toDigits,
    mul_comm]

theorem ofDigitChars_zeros_toDigits (n k : Nat) :
    Nat.ofDigitChars 10 (List.replicate k '0' ++ Nat.toDigits 10 n) 0 = n := by
  rw [Nat.ofDigitChars_append, Nat.ofDigitChars_replicate_zero, mul_zero,
    Nat.ofDigitChars_ten_toDigits]

section Texts

variable (negative : Bool) (n : Nat) (place : Int)

/-- Digits behind a point, with zeros between, are read back. -/
theorem readDecimal?_point_front (h : place ≤ 0) :
    readDecimal? negative
        ('0' :: '.' :: List.replicate (-place).toNat '0' ++ Nat.toDigits 10 n) =
      some ⟨negative, n, place - (Nat.toDigits 10 n).length⟩ := by
  have hfraction : ∀ c ∈ List.replicate (-place).toNat '0' ++ Nat.toDigits 10 n, isAsciiDigit c :=
    List.forall_mem_append.mpr
      ⟨fun _ => isAsciiDigit_of_mem_replicate, fun _ => isAsciiDigit_of_mem_toDigits⟩
  have hwhole : ∀ c ∈ ['0'], isAsciiDigit c := List.forall_mem_singleton.mpr (by decide)
  have htext : '0' :: '.' :: List.replicate (-place).toNat '0' ++ Nat.toDigits 10 n =
      ['0'] ++ pointed (List.replicate (-place).toNat '0' ++ Nat.toDigits 10 n) := by
    simp [pointed, Nat.toDigits_ne_nil]
  have hexponent : -((List.replicate (-place).toNat '0' ++ Nat.toDigits 10 n).length : Int) =
      place - (Nat.toDigits 10 n).length := by
    rw [List.length_append, List.length_replicate]
    omega
  have hcoefficient := ofDigitChars_zeros_toDigits n ((-place).toNat + 1)
  rw [List.replicate_succ, List.cons_append] at hcoefficient
  rw [htext, readDecimal?_pointed negative (List.cons_ne_nil _ _) hwhole hfraction,
    List.singleton_append, hcoefficient, hexponent]

/-- Digits in front of a point, with zeros between, are read back as a number of more digits. -/
theorem readDecimal?_point_behind (h : (Nat.toDigits 10 n).length ≤ place) : ∃ d,
    readDecimal? negative (Nat.toDigits 10 n ++
        List.replicate (place - (Nat.toDigits 10 n).length).toNat '0' ++ ['.', '0']) = some d ∧
      d.value = (⟨negative, n, place - (Nat.toDigits 10 n).length⟩ : Decimal).value := by
  generalize hzeros : (place - (Nat.toDigits 10 n).length).toNat = zeros
  have hwhole : ∀ c ∈ Nat.toDigits 10 n ++ List.replicate zeros '0', isAsciiDigit c :=
    List.forall_mem_append.mpr
      ⟨fun _ => isAsciiDigit_of_mem_toDigits, fun _ => isAsciiDigit_of_mem_replicate⟩
  have hfraction : ∀ c ∈ ['0'], isAsciiDigit c := List.forall_mem_singleton.mpr (by decide)
  refine ⟨_, readDecimal?_pointed negative
    (List.append_ne_nil_of_left_ne_nil Nat.toDigits_ne_nil _) hwhole hfraction, ?_⟩
  have hcoefficient := ofDigitChars_toDigits_zeros n (zeros + 1)
  rw [List.replicate_succ', ← List.append_assoc] at hcoefficient
  rw [hcoefficient, Decimal.value_shift]
  congr 2
  simp only [List.length_singleton]
  omega

/-- Digits with a point among them are read back. -/
theorem readDecimal?_point_among (h : 0 < place) (h' : place < (Nat.toDigits 10 n).length) :
    readDecimal? negative ((Nat.toDigits 10 n).take place.toNat ++
        '.' :: (Nat.toDigits 10 n).drop place.toNat) =
      some ⟨negative, n, place - (Nat.toDigits 10 n).length⟩ := by
  have hdigits : ∀ c ∈ Nat.toDigits 10 n, isAsciiDigit c := fun c => isAsciiDigit_of_mem_toDigits
  have hdrop : (Nat.toDigits 10 n).drop place.toNat ≠ [] := by
    rw [Ne, List.drop_eq_nil_iff]
    omega
  have htake : (Nat.toDigits 10 n).take place.toNat ≠ [] := by
    rw [Ne, List.take_eq_nil_iff]
    rintro (h | h)
    · omega
    · exact Nat.toDigits_ne_nil h
  have htext : '.' :: (Nat.toDigits 10 n).drop place.toNat =
      pointed ((Nat.toDigits 10 n).drop place.toNat) := by
    rw [pointed, if_neg]
    simpa using hdrop
  have hexponent : -(((Nat.toDigits 10 n).drop place.toNat).length : Int) =
      place - (Nat.toDigits 10 n).length := by
    rw [List.length_drop]
    omega
  rw [htext, readDecimal?_pointed negative htake (fun c hc => hdigits c (List.mem_of_mem_take hc))
    (fun c hc => hdigits c (List.mem_of_mem_drop hc)), List.take_append_drop,
    Nat.ofDigitChars_ten_toDigits, hexponent]

/-- Digits with a point in front of them, behind them or among them are read back. -/
theorem readDecimal?_positional : ∃ d,
    readDecimal? negative (Binary64.positional (Nat.toDigits 10 n) place) = some d ∧
      d.value = (⟨negative, n, place - (Nat.toDigits 10 n).length⟩ : Decimal).value := by
  unfold Binary64.positional
  simp only
  split_ifs with hfront hbehind
  · exact ⟨_, readDecimal?_point_front negative n place hfront, rfl⟩
  · exact readDecimal?_point_behind negative n place hbehind
  · exact ⟨_, readDecimal?_point_among negative n place (Int.not_le.mp hfront)
      (Int.not_le.mp hbehind), rfl⟩

/-- An exponent of at least two digits is read back. -/
theorem readExponent?_eq (e : Int) :
    let ds := Nat.toDigits 10 e.natAbs
    readExponent? ('e' :: (if e < 0 then '-' else '+') ::
      (if ds.length < 2 then '0' :: ds else ds)) = some e := by
  intro ds
  have hdigits : ∀ c ∈ ds, isAsciiDigit c := fun c => isAsciiDigit_of_mem_toDigits
  have hvalue : Nat.ofDigitChars 10 ds 0 = e.natAbs := Nat.ofDigitChars_ten_toDigits
  obtain ⟨ds', hds', hne, hall, hread⟩ : ∃ ds', (if ds.length < 2 then '0' :: ds else ds) = ds' ∧
      ds'.isEmpty = false ∧ (∀ c ∈ ds', isAsciiDigit c) ∧ digitsValue 10 ds' = e.natAbs := by
    split
    · have hall : ∀ c ∈ '0' :: ds, isAsciiDigit c = true :=
        List.forall_mem_cons.mpr ⟨by decide, hdigits⟩
      exact ⟨_, rfl, rfl, hall, (digitsValue_eq hall).trans hvalue⟩
    · exact ⟨_, rfl, by simp [ds, Nat.toDigits_ne_nil], hdigits,
        (digitsValue_eq hdigits).trans hvalue⟩
  rw [hds']
  have hsign : splitSign ((if e < 0 then '-' else '+') :: ds') = (decide (e < 0), ds') := by
    split <;> simp_all [splitSign]
  have hall : ds'.all isAsciiDigit = true := List.all_eq_true.mpr hall
  unfold readExponent?
  simp only [hsign, hne, hall, hread]
  by_cases he : e < 0
  · simp [he, abs_of_neg he]
  · simp [he, abs_of_nonneg (Int.not_lt.mp he)]

/-- Digits with an exponent are read back. -/
theorem readDecimal?_scientific :
    readDecimal? negative (Binary64.scientific (Nat.toDigits 10 n) place) =
      some ⟨negative, n, place - (Nat.toDigits 10 n).length⟩ := by
  have hdigits : ∀ c ∈ Nat.toDigits 10 n, isAsciiDigit c := fun c => isAsciiDigit_of_mem_toDigits
  have hlength := Nat.length_toDigits_pos (b := 10) (n := n)
  have htake : (Nat.toDigits 10 n).take 1 ≠ [] := by
    rw [Ne, List.take_eq_nil_iff]
    rintro (h | h)
    · cases h
    · exact Nat.toDigits_ne_nil h
  have hpointed (first rest : List Char) :
      (if rest.isEmpty then first else first ++ '.' :: rest) = first ++ pointed rest := by
    unfold pointed
    split <;> simp
  unfold Binary64.scientific
  simp only
  rw [hpointed, List.append_assoc, readDecimal?_eq negative htake
    (fun c hc => hdigits c (List.mem_of_mem_take hc))
    (fun c hc => hdigits c (List.mem_of_mem_drop hc)) (by simp) (readExponent?_eq (place - 1)),
    List.take_append_drop, Nat.ofDigitChars_ten_toDigits]
  have hexponent : place - 1 - ((Nat.toDigits 10 n).drop 1).length =
      place - (Nat.toDigits 10 n).length := by
    rw [List.length_drop]
    omega
  rw [hexponent]

end Texts

/-- What is read as a decimal number has no sign in front. -/
theorem splitSign_of_readDecimal? {negative : Bool} {cs : List Char} {d : Decimal}
    (h : readDecimal? negative cs = some d) : splitSign cs = (false, cs) := by
  unfold splitSign
  split
  · cases h
  · cases h
  · rfl

theorem Decimal.ofText?_signed {negative : Bool} {body : List Char} {d : Decimal}
    (h : readDecimal? negative body = some d) :
    ofText? (String.ofList (if negative then '-' :: body else body)) = some d := by
  unfold ofText?
  rw [String.toList_ofList]
  cases negative with
  | true => exact h
  | false =>
    rw [if_neg Bool.false_ne_true, splitSign_of_readDecimal? h]
    exact h

namespace Number

theorem readDecimal?_toDigits (negative : Bool) (n : Nat) :
    readDecimal? negative (Nat.toDigits 10 n) = some ⟨negative, n, 0⟩ := by
  have h := readDecimal?_pointed negative Nat.toDigits_ne_nil
    (fun _ hc => isAsciiDigit_of_mem_toDigits (n := n) hc) (List.forall_mem_nil _)
  simpa [pointed, Nat.ofDigitChars_ten_toDigits] using h

theorem ofText?_int (n : Int) :
    Decimal.ofText? (toString n) = some ⟨decide (n < 0), n.natAbs, 0⟩ := by
  have htext : toString n = String.ofList
      (if decide (n < 0) then '-' :: Nat.toDigits 10 n.natAbs else Nat.toDigits 10 n.natAbs) := by
    rw [Int.toString_eq_repr, Int.repr_eq_if]
    by_cases hn : n < 0
    · have habs : (-n).toNat = n.natAbs := by omega
      rw [if_neg (Int.not_le.mpr hn), if_pos (decide_eq_true hn), habs,
        Nat.repr_eq_ofList_toDigits, ← String.ofList_append]
      rfl
    · have habs : n.toNat = n.natAbs := by omega
      rw [if_pos (Int.not_lt.mp hn), if_neg (by simpa using hn), habs, Nat.repr_eq_ofList_toDigits]
  rw [htext]
  exact Decimal.ofText?_signed (readDecimal?_toDigits _ _)

theorem decimal?_finite (negative : Bool) (m : Nat) (e : Int) :
    (float (.finite negative m e)).decimal? =
      some (if m = 0 then ⟨negative, 0, 0⟩ else Binary64.shortest negative m e) := by
  cases m <;> rfl

theorem negative_shortest (negative : Bool) (m : Nat) (e : Int) :
    (Binary64.shortest negative m e).negative = negative := by
  unfold Binary64.shortest
  simp only
  split
  · split <;> rfl
  · rfl

/-- What is written of a decimal number behind its sign is read back. -/
theorem exists_readDecimal? (d : Decimal) :
    let digits := Nat.toDigits 10 d.coefficient
    let place := digits.length + d.exponent
    ∃ d', readDecimal? d.negative (if -4 < place ∧ place ≤ 16 then Binary64.positional digits place
      else Binary64.scientific digits place) = some d' ∧ d'.value = d.value := by
  intro digits place
  have hexponent : place - digits.length = d.exponent := by omega
  split
  · obtain ⟨d', hread, hvalue⟩ := readDecimal?_positional d.negative d.coefficient place
    exact ⟨d', hread, by rw [hvalue, hexponent]⟩
  · exact ⟨_, readDecimal?_scientific d.negative d.coefficient place, by rw [hexponent]⟩

/-- The text of a number that is not infinite is read as the decimal number that it is written
as. -/
theorem ofText?_text {x : Number} {d : Decimal} (hd : x.decimal? = some d) :
    ∃ d', Decimal.ofText? (Value.number x).text = some d' ∧ d'.value = d.value := by
  cases x with
  | int n =>
    cases hd
    exact ⟨_, ofText?_int n, rfl⟩
  | float x =>
    cases x with
    | nan => cases hd
    | infinite negative => cases hd
    | finite negative m e =>
      unfold Value.text Binary64.text
      simp only
      rw [decimal?_finite] at hd
      cases hd
      by_cases hm : m = 0
      · rw [if_pos hm, if_pos hm]
        exact ⟨⟨negative, 0, -1⟩, Decimal.ofText?_signed rfl,
          by simp [Decimal.value, Binary64.sign]⟩
      · rw [if_neg hm, if_neg hm]
        have hnegative := negative_shortest negative m e
        generalize Binary64.shortest negative m e = s at hnegative ⊢
        obtain ⟨d', hread, hvalue⟩ := exists_readDecimal? s
        rw [hnegative] at hread
        exact ⟨d', Decimal.ofText?_signed hread, hvalue⟩

end Number

end PackLint
