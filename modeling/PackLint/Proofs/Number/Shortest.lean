import PackLint.Proofs.Number.Exact

/-!
# How near the shortest text is

Seventeen digits are enough for any floating point number: the decimal numbers of so many digits
stand closer than the ends of the interval that reads back as the number. So a decimal number is
found, and it is nearer than half a unit in the last place.

Results:
* `Binary64.isSome_nearestOn`: a grid that is finer than the interval has a number in it.
* `Binary64.abs_shortest_sub_le`: the decimal number is at most half a unit in the last place off.
* `Binary64.abs_shortest_pos`, `Binary64.abs_shortest_le`: so it is not zero, and not beyond all
  finite numbers.
-/

namespace PackLint

namespace Binary64

/-! ## The grid of a number of digits -/

/-- Whether a number of a grid lies between two ends, which count if they are closed. -/
def insideOn (low high den : Nat) (closed : Bool) (place : Int) (k c : Nat) : Bool :=
  let up := Nat.pow 10 (k - place).toNat
  let x := c * Nat.pow 10 (place - k).toNat * den
  if closed then decide (low * up ≤ x ∧ x ≤ high * up) else decide (low * up < x ∧ x < high * up)

section Grid

variable {num low high den : Nat} {closed : Bool} {place : Int} {k c : Nat}

/-- Two of the grid are asked: the last that is not above the number, and the next. -/
theorem nearestOn_eq (num low high den : Nat) (closed : Bool) (place : Int) (k : Nat) :
    ∃ nearer : Bool, nearestOn num low high den closed place k =
    let c := num * Nat.pow 10 (k - place).toNat / (Nat.pow 10 (place - k).toNat * den)
    match insideOn low high den closed place k c, insideOn low high den closed place k (c + 1) with
    | true, true => some (if nearer then c else c + 1)
    | true, false => some c
    | false, true => some (c + 1)
    | false, false => none := by
  let up := Nat.pow 10 (k - place).toNat
  let down := Nat.pow 10 (place - k).toNat
  let c := num * up / (down * den)
  refine ⟨decide (2 * num * up < (2 * c + 1) * (down * den)
    ∨ 2 * num * up = (2 * c + 1) * (down * den) ∧ c % 2 = 0), ?_⟩
  simp only [decide_eq_true_eq]
  rfl

/-- Both powers stand for one step of the grid. -/
theorem step_mul (place : Int) (k den : Nat) :
    (10 ^ (place - k) * den : ℚ) * Nat.pow 10 (k - place).toNat =
      (Nat.pow 10 (place - k).toNat * den : Nat) := by
  have h := zpow_mul_pow_toNat 10 (place - k)
  rw [neg_sub] at h
  rw [Nat.pow_eq, Nat.pow_eq]
  push_cast at h ⊢
  rw [← h]
  ring

theorem between_of_insideOn (h : insideOn low high den closed place k c = true) :
    (low : ℚ) ≤ c * (10 ^ (place - k) * den) ∧ c * (10 ^ (place - k) * den) ≤ (high : ℚ) := by
  have hup : (0 : ℚ) < Nat.pow 10 (k - place).toNat := by
    exact_mod_cast Nat.pow_pos (by decide)
  have hweak : low * Nat.pow 10 (k - place).toNat ≤ c * Nat.pow 10 (place - k).toNat * den ∧
      c * Nat.pow 10 (place - k).toNat * den ≤ high * Nat.pow 10 (k - place).toNat := by
    unfold insideOn at h
    simp only at h
    split at h
    · exact of_decide_eq_true h
    · exact (of_decide_eq_true h).imp Nat.le_of_lt Nat.le_of_lt
  rw [Nat.mul_assoc] at hweak
  constructor <;> rw [← mul_le_mul_iff_left₀ hup, mul_assoc (c : ℚ), step_mul]
  · exact_mod_cast hweak.1
  · exact_mod_cast hweak.2

theorem insideOn_of_between (hlow : (low : ℚ) < c * (10 ^ (place - k) * den))
    (hhigh : c * (10 ^ (place - k) * den) < (high : ℚ)) :
    insideOn low high den closed place k c = true := by
  have hup : (0 : ℚ) < Nat.pow 10 (k - place).toNat := by
    exact_mod_cast Nat.pow_pos (by decide)
  rw [← mul_lt_mul_iff_left₀ hup, mul_assoc, step_mul] at hlow hhigh
  have hlow' : low * Nat.pow 10 (k - place).toNat <
      c * (Nat.pow 10 (place - k).toNat * den) := by exact_mod_cast hlow
  have hhigh' : c * (Nat.pow 10 (place - k).toNat * den) <
      high * Nat.pow 10 (k - place).toNat := by exact_mod_cast hhigh
  rw [← Nat.mul_assoc] at hlow' hhigh'
  unfold insideOn
  simp only
  split
  · exact decide_eq_true ⟨hlow'.le, hhigh'.le⟩
  · exact decide_eq_true ⟨hlow', hhigh'⟩

/-- What is found on a grid lies between the ends. -/
theorem nearestOn_between (h : nearestOn num low high den closed place k = some c) :
    (low : ℚ) ≤ c * (10 ^ (place - k) * den) ∧ c * (10 ^ (place - k) * den) ≤ (high : ℚ) := by
  obtain ⟨nearer, heq⟩ := nearestOn_eq num low high den closed place k
  rw [heq] at h
  simp only at h
  split at h
  · rename_i h₀ h₁
    cases h
    split
    · exact between_of_insideOn h₀
    · exact between_of_insideOn h₁
  · cases h
    exact between_of_insideOn ‹_›
  · cases h
    exact between_of_insideOn ‹_›
  · cases h

/-- A grid whose step is smaller than the interval around a number has a number in it. -/
theorem isSome_nearestOn (hlow : low < num) (hhigh : num < high) (hden : 0 < den)
    (hstep : (10 ^ (place - k) * den : ℚ) < high - low) :
    (nearestOn num low high den closed place k).isSome := by
  have hup : (0 : ℚ) < Nat.pow 10 (k - place).toNat := by
    exact_mod_cast Nat.pow_pos (by decide)
  have hdown : 0 < Nat.pow 10 (place - k).toNat * den :=
    Nat.mul_pos (Nat.pow_pos (by decide)) hden
  obtain ⟨nearer, heq⟩ := nearestOn_eq num low high den closed place k
  -- `c` steps do not go beyond the number, and one more does
  generalize hc : num * Nat.pow 10 (k - place).toNat / (Nat.pow 10 (place - k).toNat * den) = c
    at heq
  have hbelow : c * (10 ^ (place - k) * den) ≤ (num : ℚ) := by
    rw [← mul_le_mul_iff_left₀ hup, mul_assoc, step_mul]
    exact_mod_cast hc ▸ Nat.div_mul_le_self _ _
  have habove : (num : ℚ) < (c + 1 : Nat) * (10 ^ (place - k) * den) := by
    rw [← mul_lt_mul_iff_left₀ hup, mul_assoc, step_mul]
    exact_mod_cast hc ▸ Nat.lt_mul_of_div_lt (Nat.lt_succ_self _) hdown
  have hlow' : (low : ℚ) < num := by exact_mod_cast hlow
  have hhigh' : (num : ℚ) < high := by exact_mod_cast hhigh
  have hone : insideOn low high den closed place k c = true ∨
      insideOn low high den closed place k (c + 1) = true := by
    rcases lt_or_ge (low : ℚ) (c * (10 ^ (place - k) * den)) with h | h
    · exact .inl (insideOn_of_between h (hbelow.trans_lt hhigh'))
    · refine .inr (insideOn_of_between (hlow'.trans habove) ?_)
      push_cast
      linarith
  rw [heq]
  simp only
  split
  · rfl
  · rfl
  · rfl
  · simp_all

end Grid

/-! ## The decimal number that is found -/

/-- The first digit of a ratio is found by its whole part and some digits behind the point, unless
the ratio is so small that it stands behind them. -/
theorem pow_digitCount_le (digits : Nat) {num den : Nat} (hden : 0 < den)
    (h : den ≤ num * Nat.pow 10 digits) :
    (10 ^ ((digitCount (num * Nat.pow 10 digits / den) : Int) - digits - 1) * den : ℚ) ≤ num := by
  have hquotient : 1 ≤ num * Nat.pow 10 digits / den := (Nat.one_le_div_iff hden).mpr h
  generalize hq : num * Nat.pow 10 digits / den = q at hquotient ⊢
  obtain ⟨k, hk⟩ : ∃ k, digitCount q = k + 1 :=
    Nat.exists_eq_succ_of_ne_zero Nat.length_toDigits_pos.ne'
  have hdigits : 10 ^ k ≤ q := by
    rcases Nat.eq_zero_or_pos k with rfl | hpos
    · simpa using hquotient
    · exact pow_le_of_lt_digitCount hpos (by omega)
  have hbound : (10 ^ k * den : ℚ) ≤ num * 10 ^ digits := by
    exact_mod_cast (Nat.mul_le_mul_right den hdigits).trans (hq ▸ Nat.div_mul_le_self _ _)
  have hexponent : ((digitCount q : Int) - digits - 1) = (k : Int) + -digits := by
    rw [hk]
    omega
  rw [hexponent, zpow_add₀ (by norm_num), zpow_natCast, zpow_neg, mul_right_comm,
    ← div_eq_mul_inv, div_le_iff₀ (by positivity)]
  exact_mod_cast hbound

theorem two_pow_le_ten_pow {k i : Nat} (digits : Nat) (hk : k ≤ 33 * i)
    (hdigits : 10 * i = digits) : 2 ^ k ≤ Nat.pow 10 digits := by
  subst hdigits
  calc 2 ^ k ≤ 2 ^ (33 * i) := Nat.pow_le_pow_right (by decide) hk
    _ = (2 ^ 33) ^ i := pow_mul 2 33 i
    _ ≤ (10 ^ 10) ^ i := Nat.pow_le_pow_left (by decide) i
    _ = 10 ^ (10 * i) := (pow_mul 10 10 i).symm

/-- The denominator for quarters of a unit in the last place. -/
def quarterDen (e : Int) : Nat := 1 <<< (-(e - 2)).toNat

/-- Quarters of a unit in the last place, over their denominator. -/
def quarters (e : Int) (n : Nat) : Nat := n <<< (e - 2).toNat

/-- The quarters of a unit down to the end of the interval; below a power of two the numbers are
twice as close. -/
def gapBelow (m : Nat) (e : Int) : Nat :=
  if m = Nat.pow 2 52 ∧ minExponent < e then 1 else 2

/-- What is found on the grid of `k` digits. -/
def onGrid (m : Nat) (e : Int) (k : Nat) : Option Nat :=
  nearestOn (quarters e (4 * m)) (quarters e (4 * m - gapBelow m e)) (quarters e (4 * m + 2))
    (quarterDen e) (m % 2 = 0) (decimalPlace (quarters e (4 * m)) (quarterDen e)) k

theorem shortest_eq (negative : Bool) (m : Nat) (e : Int) : shortest negative m e =
    let place := decimalPlace (quarters e (4 * m)) (quarterDen e)
    match (List.range 17).findSome? fun i => (onGrid m e (i + 1)).map (i + 1, ·) with
    | some (k, c) => if c = Nat.pow 10 k then ⟨negative, 1, place⟩ else ⟨negative, c, place - k⟩
    | none => ⟨negative, 0, 0⟩ := rfl

theorem quarterDen_pos (e : Int) : 0 < quarterDen e := by
  rw [quarterDen, Nat.one_shiftLeft]
  exact Nat.two_pow_pos _

theorem quarters_eq (e : Int) (n : Nat) :
    (quarters e n : ℚ) = n * 2 ^ (e - 2) * quarterDen e := by
  have h := zpow_mul_pow_toNat 2 (e - 2)
  rw [quarters, quarterDen, Nat.shiftLeft_eq, Nat.one_shiftLeft]
  push_cast at h ⊢
  rw [mul_assoc, h]

theorem gapBelow_le (m : Nat) (e : Int) : 1 ≤ gapBelow m e ∧ gapBelow m e ≤ 2 := by
  unfold gapBelow
  split <;> decide

section Shortest

variable {m : Nat} {e : Int} (hm : 0 < m)

include hm

/-- No number is so small that its first digit is not seen. -/
theorem quarterDen_le (he : minExponent ≤ e) :
    quarterDen e ≤ quarters e (4 * m) * Nat.pow 10 placesBehind := by
  have hden : quarterDen e ≤ Nat.pow 10 placesBehind := by
    rw [quarterDen, Nat.one_shiftLeft]
    refine two_pow_le_ten_pow (i := 34) placesBehind ?_ rfl
    unfold minExponent at he
    omega
  have hnum : 0 < quarters e (4 * m) := by
    rw [quarters, Nat.shiftLeft_eq]
    positivity
  exact hden.trans (Nat.le_mul_of_pos_left _ hnum)

/-- Seventeen digits are enough. -/
theorem isSome_onGrid (hm' : m < 2 ^ 53) (he : minExponent ≤ e) : (onGrid m e 17).isSome := by
  obtain ⟨hgap, hgap'⟩ := gapBelow_le m e
  have hmono : ∀ {a b}, a < b → quarters e a < quarters e b := fun hab => by
    rw [quarters, quarters, Nat.shiftLeft_eq, Nat.shiftLeft_eq]
    exact Nat.mul_lt_mul_of_pos_right hab (Nat.two_pow_pos _)
  refine isSome_nearestOn (hmono (by omega)) (hmono (by omega)) (quarterDen_pos e) ?_
  have hfirst : (10 ^ (decimalPlace (quarters e (4 * m)) (quarterDen e) - 1) * quarterDen e : ℚ) ≤
      quarters e (4 * m) := pow_digitCount_le placesBehind (quarterDen_pos e) (quarterDen_le hm he)
  generalize decimalPlace (quarters e (4 * m)) (quarterDen e) = place at hfirst ⊢
  -- a unit of sixteen digits behind the first is small enough, as `4 * m` has no more of them
  have hsmall : 4 * m < 10 ^ 16 * (2 + gapBelow m e) := by
    unfold gapBelow
    split
    · rename_i h
      rw [h.1]
      decide
    · omega
  have hstep : (10 : ℚ) ^ (place - 17) * 10 ^ 16 = 10 ^ (place - 1) := by
    rw [← zpow_natCast, ← zpow_add₀ (by norm_num)]
    congr 1
    push_cast
    ring
  have hunit : (0 : ℚ) < 2 ^ (e - 2) * quarterDen e :=
    mul_pos (zpow_pos two_pos _) (by exact_mod_cast quarterDen_pos e)
  have hcast : ((4 * m - gapBelow m e : Nat) : ℚ) = 4 * m - gapBelow m e := by
    rw [Nat.cast_sub (by omega)]
    push_cast
    rfl
  have hsmall' : (4 * m : ℚ) < 10 ^ 16 * (2 + gapBelow m e) := by exact_mod_cast hsmall
  rw [quarters_eq] at hfirst
  rw [quarters_eq, quarters_eq, hcast]
  push_cast at hfirst ⊢
  rw [← hstep] at hfirst
  nlinarith [mul_lt_mul_of_pos_right hsmall' hunit]

/-- What is found on some grid is the decimal number, up to its sign. -/
theorem exists_onGrid (hm' : m < 2 ^ 53) (he : minExponent ≤ e) (negative : Bool) : ∃ k c,
    onGrid m e k = some c ∧ |(shortest negative m e).value| =
      c * 10 ^ (decimalPlace (quarters e (4 * m)) (quarterDen e) - k) := by
  have hsome : ((List.range 17).findSome? fun i => (onGrid m e (i + 1)).map (i + 1, ·)).isSome := by
    rw [List.findSome?_isSome_iff]
    exact ⟨16, by decide, by simpa using isSome_onGrid hm hm' he⟩
  obtain ⟨⟨k, c⟩, hfound⟩ := Option.isSome_iff_exists.mp hsome
  obtain ⟨i, -, hgrid⟩ := List.exists_of_findSome?_eq_some hfound
  obtain ⟨c', hc', heq⟩ := Option.map_eq_some_iff.mp hgrid
  cases heq
  refine ⟨i + 1, c, hc', ?_⟩
  rw [shortest_eq, hfound]
  simp only
  split
  · rename_i hround
    have hpow : (Nat.pow 10 (i + 1) : ℚ) = 10 ^ ((i + 1 : Nat) : Int) := by
      rw [zpow_natCast]
      exact_mod_cast rfl
    rw [Decimal.abs_value, hround, hpow, ← zpow_add₀ (by norm_num)]
    simp
  · rw [Decimal.abs_value]

/-- **The decimal number that is found** is at most half a unit in the last place off. -/
theorem abs_shortest_sub_le (hm' : m < 2 ^ 53) (he : minExponent ≤ e) (negative : Bool) :
    |(|(shortest negative m e).value|) - m * 2 ^ e| ≤ 2 ^ e / 2 := by
  obtain ⟨k, c, hgrid, hvalue⟩ := exists_onGrid hm hm' he negative
  obtain ⟨hlow, hhigh⟩ := nearestOn_between hgrid
  obtain ⟨-, hgap⟩ := gapBelow_le m e
  have hden : (0 : ℚ) < quarterDen e := by exact_mod_cast quarterDen_pos e
  have hpow : (2 : ℚ) ^ e = 4 * 2 ^ (e - 2) := by
    rw [zpow_sub₀ two_ne_zero]
    norm_num
    ring
  have hlow' : ((4 * m - 2 : ℚ)) ≤ (4 * m - gapBelow m e : Nat) := by
    rw [Nat.cast_sub (by omega)]
    push_cast
    have : (gapBelow m e : ℚ) ≤ 2 := by exact_mod_cast hgap
    linarith
  have hunit : (0 : ℚ) < 2 ^ (e - 2) := zpow_pos two_pos _
  rw [quarters_eq, ← mul_assoc, mul_le_mul_iff_left₀ hden, ← hvalue] at hlow hhigh
  push_cast at hhigh
  rw [abs_le, hpow]
  constructor <;> nlinarith

theorem abs_shortest_pos (hm' : m < 2 ^ 53) (he : minExponent ≤ e) (negative : Bool) :
    0 < |(shortest negative m e).value| := by
  have h := (abs_le.mp (abs_shortest_sub_le hm hm' he negative)).1
  have hunit : (0 : ℚ) < 2 ^ e := zpow_pos two_pos _
  have hone : (1 : ℚ) ≤ m := by exact_mod_cast hm
  nlinarith

theorem abs_shortest_le (hm' : m < 2 ^ 53) (he : minExponent ≤ e) (he' : e ≤ maxExponent)
    (negative : Bool) : |(shortest negative m e).value| ≤ 2 ^ 53 * 2 ^ maxExponent := by
  have h := (abs_le.mp (abs_shortest_sub_le hm hm' he negative)).2
  have hunit : (0 : ℚ) < 2 ^ e := zpow_pos two_pos _
  have hmantissa : (m + 1 : ℚ) ≤ 2 ^ 53 := by exact_mod_cast hm'
  have hexponent : (2 : ℚ) ^ e ≤ 2 ^ maxExponent := zpow_le_zpow_right₀ one_le_two he'
  calc |(shortest negative m e).value| ≤ (m + 1) * 2 ^ e := by linarith
    _ ≤ 2 ^ 53 * 2 ^ maxExponent := by gcongr

end Shortest

end Binary64

end PackLint
