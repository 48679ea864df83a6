import PackLint.Number.Remainder
import Mathlib.Algebra.Order.Field.Power
import Mathlib.Algebra.Order.Field.Rat
import Mathlib.Algebra.Order.Floor.Semifield
import Mathlib.Data.Rat.Floor
import Mathlib.Order.WithBot
import Mathlib.Tactic.Linarith
import Mathlib.Tactic.Positivity

/-!
# Exact numbers

Every number but `nan` has an exact place on the line of rational numbers with an infinity at each
end. Numbers are compared by their places, whatever mix of integers and floating point numbers they
are.

The remainder of a division of decimal numbers is taken of their coefficients in the smaller of
their units, if the quotient has no more than 28 digits; it is then rounded to 28 digits itself.
Neither the units nor the sign nor the rounding turn a remainder into zero or zero into another.

Results:
* `Number.lt_iff_place`, `Number.eq_iff_place`: numbers are compared by their places.
* `Decimal.isMultiple?_eq_remainder?`: a number is a multiple of another if there is no remainder.
* `Decimal.isMultiple?_eq`: it is a multiple exactly if it is one of the rational numbers.
* `Decimal.exists_remainder?`: so the remainder is zero exactly for a multiple.
* `Binary64.isDouble_ofRatio`: what is rounded is a number of 64 bits.
-/

namespace PackLint

/-- A multiple of a power as a multiple of a smaller one. -/
theorem mul_zpow_eq (b : ℕ) [NeZero b] (c : Int) {low e : Int} (h : low ≤ e) :
    (c * (b : ℚ) ^ e) = (c * (b ^ (e - low).toNat : ℕ) : Int) * (b : ℚ) ^ low := by
  obtain ⟨k, hk⟩ := Int.eq_ofNat_of_zero_le (sub_nonneg.mpr h)
  have hsum : e = k + low := by omega
  rw [hk, Int.toNat_natCast]
  conv_lhs => rw [hsum, zpow_add₀ (NeZero.ne (b : ℚ)), zpow_natCast]
  push_cast
  rw [mul_assoc]

theorem zpow_mul_pow_toNat (b : ℕ) [NeZero b] (z : Int) :
    (b : ℚ) ^ z * b ^ (-z).toNat = b ^ z.toNat := by
  rw [← zpow_natCast, ← zpow_natCast, ← zpow_add₀ (NeZero.ne (b : ℚ))]
  congr 1
  omega

namespace Number

/-- The exact place of a number; `nan` has none. -/
def place? : Number → Option (WithBot (WithTop ℚ))
  | int n => some ((n : ℚ) : WithTop ℚ)
  | float .nan => none
  | float (.infinite negative) => some (if negative then ⊥ else (⊤ : WithTop ℚ))
  | float (.finite negative m e) => some ((Binary64.sign negative m * 2 ^ e : ℚ) : WithTop ℚ)

theorem isSome_place? (a : Number) : a.place?.isSome = a.isNumber := by
  cases a with
  | int n => rfl
  | float x => cases x <;> rfl

/-- Both sides are measured in the smaller unit, so the comparison is exact. -/
theorem scaledLt_iff (a e b f : Int) :
    scaledLt a e b f = true ↔ (a * 2 ^ e : ℚ) < b * 2 ^ f := by
  have ha := mul_zpow_eq 2 a (min_le_left e f)
  have hb := mul_zpow_eq 2 b (min_le_right e f)
  have hpos : (0 : ℚ) < 2 ^ min e f := zpow_pos two_pos _
  rw [Nat.cast_two] at ha hb
  rw [ha, hb, mul_lt_mul_iff_left₀ hpos, Int.cast_lt]
  simp only [scaledLt, decide_eq_true_eq]
  rfl

/-- A number is less than another iff its place is. -/
theorem lt_iff_place {a b : Number} {x y : WithBot (WithTop ℚ)} (ha : a.place? = some x)
    (hb : b.place? = some y) : lt a b = true ↔ x < y := by
  have hfinite : ∀ q r : ℚ, ((q : WithTop ℚ) : WithBot (WithTop ℚ)) < (r : WithTop ℚ) ↔ q < r :=
    fun _ _ => WithBot.coe_lt_coe.trans WithTop.coe_lt_coe
  have htop : ∀ q : ℚ, ((q : WithTop ℚ) : WithBot (WithTop ℚ)) < ⊤ :=
    fun q => WithBot.coe_lt_coe.mpr (WithTop.coe_lt_top q)
  rcases a with n | _ | (_ | _) | ⟨s, m, e⟩ <;> rcases b with n' | _ | (_ | _) | ⟨s', m', e'⟩ <;>
    cases ha <;> cases hb
  case int.int => simp only [lt, decide_eq_true_eq, hfinite, Int.cast_lt]
  case int.float.finite => simp only [lt, scaledLt_iff, hfinite, zpow_zero, mul_one]
  case float.finite.int => simp only [lt, scaledLt_iff, hfinite, zpow_zero, mul_one]
  case float.finite.float.finite => simp only [lt, scaledLt_iff, hfinite]
  all_goals simp only [lt, if_true, Bool.false_eq_true, if_false, Bool.not_true, Bool.not_false,
    Bool.and_self, Bool.and_false, Bool.false_and, WithBot.coe_top, WithBot.bot_lt_coe, bot_lt_top,
    htop, not_lt_bot, not_top_lt]

/-- Two numbers are the same iff they have the same place. -/
theorem eq_iff_place {a b : Number} :
    eq a b = true ↔ a.isNumber = true ∧ a.place? = b.place? := by
  unfold eq
  rw [← isSome_place?, ← isSome_place?]
  cases ha : a.place? with
  | none => simp
  | some x =>
    cases hb : b.place? with
    | none => simp
    | some y =>
      have hab : a.lt b = false ↔ y ≤ x := by
        rw [← not_lt, ← lt_iff_place ha hb, Bool.not_eq_true]
      have hba : b.lt a = false ↔ x ≤ y := by
        rw [← not_lt, ← lt_iff_place hb ha, Bool.not_eq_true]
      simp only [Option.isSome_some, Bool.true_and, Bool.and_eq_true, Bool.not_eq_true', hab, hba,
        Option.some.injEq, true_and]
      rw [and_comm, le_antisymm_iff]

end Number

/-! ## Digits and rounding -/

theorem pow_le_of_lt_digitCount {n k : Nat} (hk : 0 < k) (h : k < digitCount n) : 10 ^ k ≤ n :=
  Nat.le_of_not_lt fun hlt =>
    Nat.not_le_of_lt h ((Nat.length_toDigits_le_iff (by decide) hk).mpr hlt)

theorem div_le_roundRatio (num den : Nat) : num / den ≤ roundRatio num den := by
  unfold roundRatio
  simp only
  split_ifs <;> omega

theorem roundRatio_one (n : Nat) : roundRatio n 1 = n := by
  simp [roundRatio, Nat.mod_one]

/-- The whole number nearest to a ratio is not above one that the ratio is not above. -/
theorem roundRatio_le {num den bound : Nat} (h : num ≤ bound * den) :
    roundRatio num den ≤ bound := by
  rcases Nat.eq_zero_or_pos den with rfl | hden
  · have : num = 0 := by simpa using h
    simp [roundRatio, this]
  have hdiv : num / den ≤ bound := Nat.div_le_of_le_mul (by rwa [Nat.mul_comm] at h)
  have hmod := Nat.div_add_mod num den
  rcases hdiv.lt_or_eq with hlt | heq
  · unfold roundRatio
    simp only
    split_ifs <;> omega
  · -- nothing is left over
    have hrest : num % den = 0 := by
      rw [heq, Nat.mul_comm] at hmod
      omega
    simp [roundRatio, hrest, heq, hden]

namespace Decimal

variable (a b d : Decimal)

/-- The rational number that a decimal number is. -/
def value : ℚ := Binary64.sign d.negative d.coefficient * 10 ^ d.exponent

theorem abs_value : |d.value| = d.coefficient * 10 ^ d.exponent := by
  have hpow : (0 : ℚ) ≤ 10 ^ d.exponent := by positivity
  rw [value, abs_mul, abs_of_nonneg hpow]
  unfold Binary64.sign
  split <;> simp

variable {d} in
theorem value_nonneg (h : d.negative = false) : 0 ≤ d.value := by
  unfold value
  rw [h]
  exact mul_nonneg (Nat.cast_nonneg d.coefficient) (by positivity)

/-! ## Common units -/

/-- The unit that two decimal numbers are whole multiples of. -/
def unit : ℚ := 10 ^ min a.exponent b.exponent

theorem unit_pos : 0 < unit a b := by
  unfold unit
  positivity

theorem abs_value_eq_fst : |a.value| = (commonUnits a b).1 * unit a b := by
  rw [abs_value]
  exact_mod_cast mul_zpow_eq 10 (a.coefficient : Int) (min_le_left a.exponent b.exponent)

theorem abs_value_eq_snd : |b.value| = (commonUnits a b).2 * unit a b := by
  rw [abs_value]
  exact_mod_cast mul_zpow_eq 10 (b.coefficient : Int) (min_le_right a.exponent b.exponent)

theorem snd_commonUnits_eq_zero : (commonUnits a b).2 = 0 ↔ b.value = 0 := by
  rw [← abs_eq_zero, abs_value_eq_snd a b, mul_eq_zero, or_iff_left (unit_pos a b).ne',
    Nat.cast_eq_zero]

theorem floor_abs_div : ⌊|a.value| / |b.value|⌋₊ = (commonUnits a b).1 / (commonUnits a b).2 := by
  rw [abs_value_eq_fst a b, abs_value_eq_snd a b, mul_div_mul_right _ _ (unit_pos a b).ne',
    Nat.floor_div_eq_div]

/-- A whole multiple is one in common units, whatever the signs are. -/
theorem exists_multiple_iff :
    (∃ k : ℤ, a.value = k * b.value) ↔ (commonUnits a b).1 % (commonUnits a b).2 = 0 := by
  rw [← Nat.dvd_iff_mod_eq_zero]
  constructor
  · rintro ⟨k, hk⟩
    have habs : ((commonUnits a b).1 : ℚ) = k.natAbs * (commonUnits a b).2 := by
      refine mul_right_cancel₀ (unit_pos a b).ne' ?_
      rw [mul_assoc, ← abs_value_eq_fst, ← abs_value_eq_snd, hk, abs_mul, Nat.cast_natAbs,
        Int.cast_abs]
    exact ⟨k.natAbs, by rw [mul_comm]; exact_mod_cast habs⟩
  · rintro ⟨k, hk⟩
    have habs : |a.value| = |(k : ℚ) * b.value| := by
      rw [abs_mul, abs_value_eq_fst a b, abs_value_eq_snd a b, hk, Nat.abs_cast]
      push_cast
      ring
    rcases abs_eq_abs.mp habs with h | h
    · exact ⟨k, by rw [h]; norm_cast⟩
    · exact ⟨-k, by rw [h]; push_cast; ring⟩

/-- **Whether a number is a multiple of another is told exactly**, if the quotient is not too
long. -/
theorem isMultiple?_eq (hb : b.value ≠ 0)
    (hquotient : ⌊|a.value| / |b.value|⌋₊ < 10 ^ maxQuotientDigits) :
    ∃ answer, isMultiple? a b = some answer ∧
      (answer = true ↔ ∃ k : ℤ, a.value = k * b.value) := by
  have hn : (commonUnits a b).2 ≠ 0 := fun h => hb ((snd_commonUnits_eq_zero a b).mp h)
  rw [floor_abs_div] at hquotient
  refine ⟨decide ((commonUnits a b).1 % (commonUnits a b).2 = 0), if_neg ?_, ?_⟩
  · rintro (h | h)
    · exact hn h
    · exact Nat.not_lt_of_le h hquotient
  · rw [decide_eq_true_eq, exists_multiple_iff a b]

/-! ## The remainder -/

/-- The nearest decimal number of no more than 28 digits. -/
def rounded : Decimal :=
  let cut := digitCount d.coefficient - maxQuotientDigits
  ⟨d.negative, roundRatio d.coefficient (10 ^ cut), d.exponent + cut⟩

/-- The remainder of a division whose quotient is cut to a whole number, with the sign of the
dividend. There is none if the divisor is zero or the quotient has more than 28 digits. -/
def remainder? : Option Decimal :=
  let (m, n) := commonUnits a b
  if n = 0 ∨ Nat.pow 10 maxQuotientDigits ≤ m / n then none
  else some (rounded ⟨a.negative, m % n, min a.exponent b.exponent⟩)

/-- Rounding makes no other number zero: more digits are left than are cut. -/
theorem coefficient_rounded_eq_zero : d.rounded.coefficient = 0 ↔ d.coefficient = 0 := by
  unfold rounded
  simp only
  by_cases hcut : digitCount d.coefficient ≤ maxQuotientDigits
  · rw [Nat.sub_eq_zero_of_le hcut, pow_zero, roundRatio_one]
  · have hlong : maxQuotientDigits < digitCount d.coefficient := Nat.lt_of_not_le hcut
    have hpow : 10 ^ (digitCount d.coefficient - maxQuotientDigits) ≤ d.coefficient :=
      pow_le_of_lt_digitCount (Nat.sub_pos_of_lt hlong) (Nat.sub_lt_self (by decide) hlong.le)
    have hleft := Nat.div_pos hpow (by positivity)
    have hle := div_le_roundRatio d.coefficient
      (10 ^ (digitCount d.coefficient - maxQuotientDigits))
    have hpos : 0 < d.coefficient := lt_of_lt_of_le (by positivity) hpow
    omega

/-- **A number is a multiple of another if there is no remainder**, rounded as it may be. -/
theorem isMultiple?_eq_remainder? :
    isMultiple? a b = (remainder? a b).map fun r => decide (r.coefficient = 0) := by
  unfold isMultiple? remainder?
  simp only
  split
  · rfl
  · simp only [Option.map_some, coefficient_rounded_eq_zero]

/-- If the quotient is not too long there is a remainder, which is zero exactly for a multiple. -/
theorem exists_remainder? (hb : b.value ≠ 0)
    (hquotient : ⌊|a.value| / |b.value|⌋₊ < 10 ^ maxQuotientDigits) :
    ∃ r, remainder? a b = some r ∧ (r.coefficient = 0 ↔ ∃ k : ℤ, a.value = k * b.value) := by
  obtain ⟨answer, hanswer, hiff⟩ := isMultiple?_eq a b hb hquotient
  rw [isMultiple?_eq_remainder?] at hanswer
  obtain ⟨r, hr, rfl⟩ := Option.map_eq_some_iff.mp hanswer
  exact ⟨r, hr, by rw [← hiff, decide_eq_true_eq]⟩

end Decimal

/-! ## Numbers of 64 bits -/

/-- The number is one of the finite numbers of 64 bits. -/
def Binary64.IsFinite : Binary64 → Prop
  | finite _ m e => m < 2 ^ 53 ∧ minExponent ≤ e ∧ e ≤ maxExponent
  | _ => False

instance : DecidablePred Binary64.IsFinite := fun x =>
  match x with
  | .finite _ _ _ => inferInstanceAs (Decidable (_ ∧ _ ∧ _))
  | .nan => inferInstanceAs (Decidable False)
  | .infinite _ => inferInstanceAs (Decidable False)

/-- The number is one of 64 bits: a finite one, infinite, or no number. -/
def Binary64.IsDouble : Binary64 → Prop
  | finite s m e => (finite s m e).IsFinite
  | _ => True

/-- The number is an integer or a finite number of 64 bits. -/
def Number.IsFinite : Number → Prop
  | int _ => True
  | float x => x.IsFinite

namespace Binary64

/-- A ratio is compared with a power of two by shifting its numerator or its denominator. -/
theorem shiftLeft_lt_iff {num den : Nat} {e : Int} :
    num <<< (-e).toNat < den <<< e.toNat ↔ (num : ℚ) < den * 2 ^ e := by
  have hpow : (0 : ℚ) < 2 ^ (-e).toNat := by positivity
  have hsplit := zpow_mul_pow_toNat 2 e
  rw [Nat.cast_two] at hsplit
  rw [Nat.shiftLeft_eq, Nat.shiftLeft_eq, ← mul_lt_mul_iff_left₀ hpow, mul_assoc, hsplit]
  exact_mod_cast Iff.rfl

/-- A ratio is less than the power of two that its bits reach to. -/
theorem lt_mul_two_zpow (num : Nat) {den : Nat} (hden : den ≠ 0) :
    (num : ℚ) < den * 2 ^ ((num.log2 : Int) - den.log2 + 1) := by
  have hden' : (2 : ℚ) ^ (den.log2 : Int) ≤ den := by
    rw [zpow_natCast]
    exact_mod_cast Nat.log2_self_le hden
  have hsum : ((num.log2 + 1 : Nat) : Int) = den.log2 + ((num.log2 : Int) - den.log2 + 1) := by
    omega
  calc (num : ℚ) < 2 ^ (num.log2 + 1) := by exact_mod_cast Nat.lt_log2_self
    _ = 2 ^ (den.log2 : Int) * 2 ^ ((num.log2 : Int) - den.log2 + 1) := by
      rw [← zpow_natCast, hsum, zpow_add₀ two_ne_zero]
    _ ≤ den * 2 ^ ((num.log2 : Int) - den.log2 + 1) := by gcongr

theorem isDouble_zero (negative : Bool) : (zero negative).IsDouble :=
  ⟨by decide, le_rfl, by decide⟩

/-- **The number nearest to a ratio** is one of 64 bits. -/
theorem isDouble_ofRatio (negative : Bool) (num : Nat) {den : Nat} (hden : den ≠ 0) :
    (ofRatio negative num den).IsDouble := by
  unfold ofRatio
  split
  · exact isDouble_zero negative
  simp only
  have hbits := lt_mul_two_zpow num hden
  generalize (num.log2 : Int) - den.log2 = d at hbits ⊢
  generalize he : max (if num <<< (-d).toNat < den <<< d.toNat then d - 53 else d - 52)
    minExponent = e
  -- no more than 53 bits stand before the unit that is kept
  have hround : roundRatio (num <<< (-e).toNat) (den <<< e.toNat) ≤ 2 ^ 53 := by
    have hlt : (num : ℚ) < (2 ^ 53 * den : Nat) * 2 ^ e := by
      have hplace : (num : ℚ) < den * 2 ^ (e + 53) := by
        split at he
        · refine (shiftLeft_lt_iff.mp ‹_›).trans_le (mul_le_mul_of_nonneg_left ?_ den.cast_nonneg)
          exact zpow_le_zpow_right₀ one_le_two (by omega)
        · refine hbits.trans_le (mul_le_mul_of_nonneg_left ?_ den.cast_nonneg)
          exact zpow_le_zpow_right₀ one_le_two (by omega)
      rw [zpow_add₀ two_ne_zero] at hplace
      refine hplace.trans_eq ?_
      push_cast
      ring
    refine roundRatio_le (shiftLeft_lt_iff.mpr hlt |>.le.trans_eq ?_)
    rw [Nat.shiftLeft_eq, Nat.shiftLeft_eq, Nat.mul_assoc]
  split
  · split
    · trivial
    · exact ⟨Nat.pow_lt_pow_right (by decide) (by decide), by omega, by omega⟩
  · rename_i hfull
    split
    · trivial
    · exact ⟨lt_of_le_of_ne hround hfull, by omega, by omega⟩

theorem isDouble_ofDecimal (d : Decimal) : (ofDecimal d).IsDouble := by
  unfold ofDecimal
  simp only
  split_ifs
  · exact isDouble_zero _
  · trivial
  · exact isDouble_zero _
  · exact isDouble_ofRatio _ _ (pow_ne_zero _ (by decide))

theorem isDouble_ofScaled (n e : Int) : (ofScaled n e).IsDouble :=
  isDouble_ofRatio _ _ (by rw [Nat.one_shiftLeft]; positivity)

theorem IsDouble.neg {x : Binary64} (hx : x.IsDouble) : x.neg.IsDouble := by
  cases x <;> exact hx

/-- A sum is rounded, whatever is added. -/
theorem isDouble_add (x y : Binary64) : (x.add y).IsDouble := by
  unfold add
  split
  · simp only
    split
    · exact isDouble_zero _
    · exact isDouble_ofScaled _ _
  · split <;> trivial
  all_goals trivial

end Binary64

end PackLint
