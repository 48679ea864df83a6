import PackLint.Pack.Skill
import PackLint.Proofs.Number.Shortest
import PackLint.Proofs.Number.Text
import PackLint.Proofs.Tree.Unfolding
import PackLint.Proofs.Yaml.Decoding

/-!
# Cooldowns in ticks

A cooldown should be a whole number of ticks. Both are taken as the decimal numbers that their texts
write, so a tick of five hundredths is that and no binary fraction near it, and the remainder that
the check asks for (`check_tick_aligned`) is zero exactly if the cooldown is a multiple of the tick.

Results:
* `Number.isFinite_iff_of_load`: every number that is read is an integer or a finite number of
  64 bits, but for infinities and `nan`.
* `Pack.cooldownAligned_exact`: the check of a cooldown is exact and ends in no fault, as long as no
  more than 28 digits of ticks fit into the cooldown.
-/

namespace PackLint

/-! ## Numbers that are read -/

namespace Yaml

theorem isDouble_sexagesimalSum {total : Binary64} (h : total.IsDouble) (weight : Nat)
    (parts : List Binary64) : (sexagesimalSum total weight parts).IsDouble := by
  induction parts generalizing total weight with
  | nil => exact h
  | cons part parts ih => exact ih (Binary64.isDouble_add _ _) _

theorem isDouble_of_readFloat? {cs : List Char} {x : Binary64} (h : readFloat? cs = some x) :
    x.IsDouble := by
  obtain ⟨cs, -, h⟩ := Option.bind_eq_some_iff.mp h
  unfold readPlainFloat? at h
  simp only at h
  split at h
  · cases h
    trivial
  split at h
  · cases h
    trivial
  · obtain ⟨d, -, rfl⟩ := Option.map_eq_some_iff.mp h
    exact Binary64.isDouble_ofDecimal d

theorem isDouble_of_decodeFloat? {version : Version} {text : List Char} {x : Binary64}
    (h : decodeFloat? version text = some x) : x.IsDouble := by
  unfold decodeFloat? at h
  simp only at h
  obtain ⟨y, hy, rfl⟩ := Option.map_eq_some_iff.mp h
  have hdouble : y.IsDouble := by
    split at hy
    · cases hy
      trivial
    split at hy
    · cases hy
      trivial
    split at hy
    · obtain ⟨parts, -, rfl⟩ := Option.map_eq_some_iff.mp hy
      exact isDouble_sexagesimalSum (Binary64.isDouble_zero false) _ _
    · exact isDouble_of_readFloat? hy
  split
  · exact hdouble.neg
  · exact hdouble

theorem isDouble_of_decodeScalar {version : Version} {tag : ScalarTag} {text : List Char}
    {start : Mark} {x : Binary64}
    (h : decodeScalar version tag text start = .ok (.number (.float x))) : x.IsDouble := by
  cases decodeScalar_eq_ok_iff.mp h with
  | float h => exact isDouble_of_decodeFloat? h

end Yaml

namespace Number

theorem exists_decimal? {x : Number} (hx : x.IsFinite) : ∃ d, x.decimal? = some d := by
  cases x with
  | int n => exact ⟨_, rfl⟩
  | float x =>
    cases x with
    | nan => cases hx
    | infinite negative => cases hx
    | finite negative m e => exact ⟨_, decimal?_finite negative m e⟩

/-- **The number of a scalar in a tree that is loaded is finite**, unless it is infinite or none. -/
theorem isFinite_iff_of_load {limits : Limits} {src : Source} {n : Node} {s : Scalar} {c : Number}
    (h : Node.load limits src = .ok (some n)) (hs : (Node.scalar s).Within n)
    (hc : s.value = .number c) : c.IsFinite ↔ ∃ d, c.decimal? = some d := by
  refine ⟨exists_decimal?, fun ⟨d, hd⟩ => ?_⟩
  obtain ⟨g, number, -, hunfolds⟩ := Node.exists_unfolds_of_load h hs
  cases c with
  | int n => trivial
  | float x =>
    have hdouble : x.IsDouble := by
      cases hunfolds with
      | scalar hnode hvalue => exact Yaml.isDouble_of_decodeScalar (hvalue.trans (congrArg _ hc))
    cases x with
    | nan => cases hd
    | infinite negative => cases hd
    | finite negative m e => exact hdouble

/-- A positive tick is written as a positive decimal number that is not too large. -/
theorem decimal?_pos {t : Binary64} (ht : t.IsFinite) (hpos : lt (int 0) (float t) = true) :
    ∃ d, (float t).decimal? = some d ∧ 0 < d.value ∧
      d.value ≤ 2 ^ 53 * 2 ^ Binary64.maxExponent := by
  cases t with
  | nan => cases ht
  | infinite negative => cases ht
  | finite negative m e =>
    obtain ⟨hm', he, he'⟩ := ht
    have hlt := (lt_iff_place rfl rfl).mp hpos
    simp only [WithBot.coe_lt_coe, WithTop.coe_lt_coe, Int.cast_zero] at hlt
    have hsign : 0 < Binary64.sign negative m := by
      have := pos_of_mul_pos_left hlt (zpow_nonneg zero_le_two e)
      exact_mod_cast this
    obtain ⟨rfl, hm⟩ : negative = false ∧ 0 < m := by
      unfold Binary64.sign at hsign
      cases negative <;> simp at hsign ⊢ <;> omega
    have habs := Binary64.abs_shortest_pos hm hm' he false
    have hle := Binary64.abs_shortest_le hm hm' he he' false
    rw [abs_of_nonneg (Decimal.value_nonneg (negative_shortest false m e))] at habs hle
    exact ⟨_, (decimal?_finite false m e).trans (by rw [if_neg hm.ne']), habs, hle⟩

theorem isMultiple?_eq {x : Number} {t : Binary64} {a b : Decimal} (ha : x.decimal? = some a)
    (hb : (float t).decimal? = some b) : x.isMultiple? (.float t) = a.isMultiple? b := by
  cases t with
  | nan => cases hb
  | infinite negative => cases hb
  | finite negative' m' e' =>
    cases x with
    | int n =>
      unfold isMultiple?
      simp [ha, hb]
    | float x =>
      cases x with
      | nan => cases ha
      | infinite negative => cases ha
      | finite negative m e =>
        unfold isMultiple?
        simp [ha, hb]

/-- What holds no more than 28 digits of a finite number has some three hundred more digits. -/
theorem lt_pow_of_lt_mul {q b : ℚ} {digits : Nat} (hb : b ≤ 2 ^ 53 * 2 ^ Binary64.maxExponent)
    (hq : q < (10 ^ Decimal.maxQuotientDigits : Nat) * b)
    (hdigits : 28 + (53 + Binary64.maxExponent) ≤ digits) : q < 10 ^ digits := by
  have hten : (2 : ℚ) ^ Binary64.maxExponent ≤ 10 ^ Binary64.maxExponent :=
    zpow_le_zpow_left₀ (by decide) (by norm_num) (by norm_num)
  have hquotient : ((10 ^ Decimal.maxQuotientDigits : Nat) : ℚ) = 10 ^ (28 : Int) := by
    norm_num [Decimal.maxQuotientDigits]
  calc q < 10 ^ (28 : Int) * b := hquotient ▸ hq
    _ ≤ 10 ^ (28 : Int) * (10 ^ (53 : Int) * 10 ^ Binary64.maxExponent) := by
      gcongr
      refine hb.trans (mul_le_mul ?_ hten (by positivity) (by positivity))
      norm_num
    _ = 10 ^ (28 + (53 + Binary64.maxExponent)) := by
      rw [zpow_add₀ (by norm_num), zpow_add₀ (by norm_num)]
    _ ≤ 10 ^ (digits : Int) := zpow_le_zpow_right₀ (by norm_num) hdigits
    _ = 10 ^ digits := zpow_natCast _ _

/-- An integer into which no more than 28 digits of ticks fit can be written. -/
theorem isWritable_of_floor_lt {x : Number} {a b : Decimal} (ha : x.decimal? = some a)
    (hpos : 0 < b.value) (hle : b.value ≤ 2 ^ 53 * 2 ^ Binary64.maxExponent)
    (hquotient : ⌊|a.value| / b.value⌋₊ < 10 ^ Decimal.maxQuotientDigits) :
    x.isWritable = true := by
  cases x with
  | float x => rfl
  | int n =>
    cases ha
    rw [Nat.floor_lt (by positivity), div_lt_iff₀ hpos, Decimal.abs_value, zpow_zero, mul_one]
      at hquotient
    have hbound : ∀ digits : Nat, 28 + (53 + Binary64.maxExponent) ≤ digits →
        n.natAbs < Nat.pow 10 digits := by
      intro digits hdigits
      rw [Nat.pow_eq]
      exact_mod_cast lt_pow_of_lt_mul hle hquotient hdigits
    unfold isWritable
    exact decide_eq_true (hbound maxDecimalDigits (by decide))

end Number

namespace Pack

/-- **The check of a cooldown is exact.** The texts of an integer or finite cooldown and of a
positive tick are decimal numbers. If the whole part of their quotient has no more than 28 digits,
there is a remainder, zero exactly if the cooldown is a multiple of the tick; the check reports a
problem if it is another, and ends in no fault. -/
theorem cooldownAligned_exact {site : Site} {s : Scalar} {c : Number} (hs : s.value = .number c)
    (hc : c.IsFinite) (htick : site.data.tickDuration.IsFinite)
    (hpos : Number.lt (.int 0) (.float site.data.tickDuration) = true) :
    ∃ x t : Decimal, Decimal.ofText? (Value.number c).text = some x ∧
      Decimal.ofText? site.data.tickDuration.text = some t ∧ 0 < t.value ∧
        (⌊|x.value| / t.value⌋₊ < 10 ^ 28 → ∃ r, x.remainder? t = some r ∧
          (r.coefficient = 0 ↔ ∃ k : ℤ, x.value = k * t.value) ∧
          cooldownAligned site (.scalar s) = .ok (if r.coefficient = 0 then .empty
            else site.problem (.scalar s) .cooldownNotTickAligned
              ("Cooldown should be divisible by " ++ site.data.tickDuration.text ++
                " (1 tick)."))) := by
  obtain ⟨a, ha⟩ := Number.exists_decimal? hc
  obtain ⟨b, hb, hbpos, hble⟩ := Number.decimal?_pos htick hpos
  obtain ⟨x, hx, hxa⟩ := Number.ofText?_text ha
  obtain ⟨t, ht, htb⟩ := Number.ofText?_text hb
  refine ⟨x, t, hx, ht, htb ▸ hbpos, fun hquotient => ?_⟩
  have htpos : 0 < t.value := htb ▸ hbpos
  have habs : ⌊|x.value| / |t.value|⌋₊ < 10 ^ Decimal.maxQuotientDigits := by
    rwa [abs_of_pos htpos]
  obtain ⟨r, hr, hzero⟩ := Decimal.exists_remainder? x t htpos.ne' habs
  refine ⟨r, hr, hzero, ?_⟩
  -- what the check asks of the shortest decimal numbers has the same answer
  rw [hxa, htb] at habs hzero
  obtain ⟨answer, hanswer, hiff⟩ := Decimal.isMultiple?_eq a b hbpos.ne' habs
  have hwritable : c.isWritable = true := by
    rw [abs_of_pos hbpos] at habs
    exact Number.isWritable_of_floor_lt ha hbpos hble habs
  obtain ⟨value, text, start, stop, style⟩ := s
  cases hs
  have hmultiple := (Number.isMultiple?_eq ha hb).trans hanswer
  simp only [cooldownAligned, hwritable, hmultiple]
  by_cases hr0 : r.coefficient = 0
  · rw [hiff.mpr (hzero.mp hr0), if_pos hr0]
    rfl
  · rw [Bool.eq_false_iff.mpr fun h => hr0 (hzero.mpr (hiff.mp h)), if_neg hr0]
    rfl

/-- Five hundredths go into 0.35 as decimal numbers; as binary fractions they do not. -/
example :
    (Number.float (.ofDecimal ⟨false, 35, -2⟩)).isMultiple? (.float Vanilla.tick) = some true := by
  decide +kernel

/-- A cooldown of 0.07 in a document of a server with the usual tick. -/
theorem cooldownAligned_seven_hundredths :
    let site : Site := ⟨{}, {}, [], "file:///skills.yml", .ofString "0.07", none⟩
    let c := Number.float (.ofDecimal ⟨false, 7, -2⟩)
    let s : Scalar := ⟨.number c, "0.07", 0, 4, .plain⟩
    s.value = .number c ∧ c.IsFinite ∧ site.data.tickDuration.IsFinite ∧
      Number.lt (.int 0) (.float site.data.tickDuration) = true ∧
      ∃ x t : Decimal, Decimal.ofText? (Value.number c).text = some x ∧
        Decimal.ofText? site.data.tickDuration.text = some t ∧ 0 < t.value ∧
          (⌊|x.value| / t.value⌋₊ < 10 ^ 28 → ∃ r, x.remainder? t = some r ∧
            (r.coefficient = 0 ↔ ∃ k : ℤ, x.value = k * t.value) ∧
            cooldownAligned site (.scalar s) = .ok (if r.coefficient = 0 then .empty
              else site.problem (.scalar s) .cooldownNotTickAligned
                ("Cooldown should be divisible by " ++ site.data.tickDuration.text ++
                  " (1 tick)."))) := by
  intro site c s
  have hfloat : (Binary64.ofDecimal ⟨false, 7, -2⟩).IsFinite := by decide
  have hc : c.IsFinite := hfloat
  have htick : site.data.tickDuration.IsFinite := by decide
  have hpos : Number.lt (.int 0) (.float site.data.tickDuration) = true := by decide
  exact ⟨rfl, hc, htick, hpos, cooldownAligned_exact rfl hc htick hpos⟩

end Pack

end PackLint
