import PlotLisp.Number.Rounding
import PlotLisp.Proofs.Number.Rounding

/-!
# Exact sizes as rational numbers

The integer arithmetic on ratios computes what its names say of the rational numbers that ratios
stand for: powers of ten shift the point, the nearest whole number is the rounded one, and the
counts of digits give the decimal exponent.
-/

namespace PlotLisp.Number

open Float.Model (UnpackedFloat)
open Float.Model.UnpackedFloat (Sign)

/-! ## Counting digits -/

/-- A decimal exponent is bounded by the powers of ten on both sides. -/
theorem log_ten_eq {q : ℚ} {exponent : ℤ} (positive : 0 < q) (least : 10 ^ exponent ≤ q)
    (less : q < 10 ^ (exponent + 1)) : Int.log 10 q = exponent := by
  have above := (Int.zpow_le_iff_le_log (b := 10) (by norm_num) positive).mp (by simpa using least)
  have below := (Int.lt_zpow_iff_log_lt (b := 10) (by norm_num) positive).mp (by simpa using less)
  omega

/-- The decimal logarithm places a positive rational between two powers of ten. -/
theorem log_ten_bounds {q : ℚ} (positive : 0 < q) :
    10 ^ Int.log 10 q ≤ q ∧ q < 10 ^ (Int.log 10 q + 1) := by
  have least := Int.zpow_log_le_self (b := 10) (by norm_num) positive
  have less := Int.lt_zpow_succ_log_self (b := 10) (by norm_num) q
  exact ⟨by simpa using least, by simpa using less⟩

/-- A positive whole number lies between two powers of ten that its digits count. -/
theorem length_toDigits_bounds {n : ℕ} (positive : 0 < n) :
    10 ^ ((Nat.toDigits 10 n).length - 1) ≤ n ∧ n < 10 ^ (Nat.toDigits 10 n).length := by
  have some : 0 < (Nat.toDigits 10 n).length := Nat.length_toDigits_pos
  refine ⟨?_, (Nat.length_toDigits_le_iff (by norm_num) some).mp le_rfl⟩
  by_contra small
  rcases Nat.eq_zero_or_pos ((Nat.toDigits 10 n).length - 1) with one | more
  · rw [one] at small
    omega
  · have fewer := (Nat.length_toDigits_le_iff (b := 10) (by norm_num) more).mpr (not_le.mp small)
    omega

namespace Ratio

/-- The rational number that a ratio stands for. -/
def value (ratio : Ratio) : ℚ :=
  ratio.numerator / ratio.denominator

/-- Both parts are positive. -/
structure IsPositive (ratio : Ratio) : Prop where
  numerator : 0 < ratio.numerator
  denominator : 0 < ratio.denominator

variable {ratio : Ratio}

/-- A ratio with positive parts stands for a positive rational. -/
theorem IsPositive.value_pos (positive : ratio.IsPositive) : 0 < ratio.value :=
  div_pos (by exact_mod_cast positive.numerator) (by exact_mod_cast positive.denominator)

/-- Powers of ten are positive. -/
theorem powerOfTen_pos (exponent : ℕ) : 0 < powerOfTen exponent :=
  Nat.pow_pos (by norm_num)

/-- The power of ten read as a rational. -/
theorem cast_powerOfTen (exponent : ℕ) : (powerOfTen exponent : ℚ) = 10 ^ (exponent : ℤ) := by
  rw [zpow_natCast]
  exact_mod_cast rfl

/-- A positive mantissa gives a positive ratio, whichever side the power of two ends up on. -/
theorem isPositive_ofBinary {mantissa : ℕ} (positive : 0 < mantissa) (exponent : ℤ) :
    (ofBinary mantissa exponent).IsPositive := by
  unfold ofBinary
  split
  · exact ⟨by simpa [Nat.shiftLeft_eq] using positive, one_pos⟩
  · exact ⟨positive, by simp [Nat.shiftLeft_eq]⟩

/-- A binary number becomes the ratio that stands for the same rational. -/
theorem value_ofBinary (mantissa : ℕ) (exponent : ℤ) :
    (ofBinary mantissa exponent).value = mantissa * 2 ^ exponent := by
  unfold ofBinary
  split
  case isTrue whole =>
    obtain ⟨places, rfl⟩ := Int.eq_ofNat_of_zero_le whole
    simp [value, Nat.shiftLeft_eq]
  case isFalse fraction =>
    obtain ⟨places, rfl⟩ : ∃ places : ℕ, exponent = -places := ⟨(-exponent).toNat, by omega⟩
    simp [value, Nat.shiftLeft_eq, div_eq_mul_inv]

/-- Scaling by a power of ten keeps both parts of a ratio positive. -/
theorem IsPositive.scaled (positive : ratio.IsPositive) (power : ℤ) :
    (ratio.scaled power).IsPositive := by
  unfold Ratio.scaled
  split
  · exact ⟨Nat.mul_pos positive.numerator (powerOfTen_pos _), positive.denominator⟩
  · exact ⟨positive.numerator, Nat.mul_pos positive.denominator (powerOfTen_pos _)⟩

/-- Scaling multiplies by that power of ten. -/
theorem value_scaled (ratio : Ratio) (power : ℤ) :
    (ratio.scaled power).value = ratio.value * 10 ^ power := by
  unfold scaled
  split
  case isTrue up =>
    obtain ⟨places, rfl⟩ := Int.eq_ofNat_of_zero_le up
    rw [value, value, Int.toNat_natCast, Nat.cast_mul, cast_powerOfTen, mul_div_right_comm]
  case isFalse down =>
    obtain ⟨places, rfl⟩ : ∃ places : ℕ, power = -places := ⟨(-power).toNat, by omega⟩
    rw [value, value, neg_neg, Int.toNat_natCast, Nat.cast_mul, cast_powerOfTen, zpow_neg,
      ← div_div, div_eq_mul_inv]

/-- Dividing the two parts gives the whole part of the rational. -/
theorem floor_eq (ratio : Ratio) : ratio.floor = ⌊ratio.value⌋₊ :=
  (Nat.floor_div_eq_div ratio.numerator ratio.denominator).symm

/-- What the whole part leaves is the fraction. -/
theorem value_sub_floor (positive : ratio.IsPositive) :
    ratio.value - ⌊ratio.value⌋₊ = ratio.remainder / ratio.denominator := by
  have divisor : (ratio.denominator : ℚ) ≠ 0 := by exact_mod_cast positive.denominator.ne'
  have split : (ratio.denominator * ratio.floor + ratio.remainder : ℚ) = ratio.numerator := by
    exact_mod_cast Nat.div_add_mod ratio.numerator ratio.denominator
  rw [← floor_eq, value, ← split, add_div, mul_div_cancel_left₀ _ divisor]
  ring

/-- The nearest whole number is that of the rational number. -/
theorem rounded_eq (positive : ratio.IsPositive) : ratio.rounded = roundEven ratio.value := by
  have divisor : (0 : ℚ) < ratio.denominator := by exact_mod_cast positive.denominator
  have below : ratio.value - ⌊ratio.value⌋₊ < 1 / 2 ↔ 2 * ratio.remainder < ratio.denominator := by
    rw [value_sub_floor positive, div_lt_div_iff₀ divisor two_pos, one_mul, mul_comm]
    exact_mod_cast Iff.rfl
  have above : 1 / 2 < ratio.value - ⌊ratio.value⌋₊ ↔ ratio.denominator < 2 * ratio.remainder := by
    rw [value_sub_floor positive, div_lt_div_iff₀ two_pos divisor, one_mul, mul_comm]
    exact_mod_cast Iff.rfl
  rw [rounded, roundEven, ← floor_eq]
  rw [← floor_eq] at below above
  rcases lt_trichotomy (2 * ratio.remainder) ratio.denominator with less | same | more
  · rw [compare_lt_iff_lt.mpr less, if_pos (below.mpr less)]
  · rw [compare_eq_iff_eq.mpr same, if_neg (mt below.mp same.not_lt),
      if_neg (mt above.mp same.not_gt)]
  · rw [compare_gt_iff_gt.mpr more, if_neg (mt below.mp more.not_gt), if_pos (above.mpr more)]

/-- Digits are counted before the point, or from the point to the first of them. -/
theorem decimalExponent_eq (positive : ratio.IsPositive) :
    ratio.decimalExponent = Int.log 10 ratio.value := by
  have divisor : (0 : ℚ) < ratio.denominator := by exact_mod_cast positive.denominator
  unfold decimalExponent
  split
  case isTrue large =>
    obtain ⟨least, less⟩ := length_toDigits_bounds (Nat.div_pos large positive.denominator)
    have some : 0 < (Nat.toDigits 10 ratio.floor).length := Nat.length_toDigits_pos
    have whole : (Nat.toDigits 10 ratio.floor).length - (1 : ℤ) =
        ((Nat.toDigits 10 ratio.floor).length - 1 : ℕ) := by omega
    refine (log_ten_eq positive.value_pos ?_ ?_).symm
    · rw [whole, zpow_natCast]
      refine le_trans ?_ (Nat.floor_le positive.value_pos.le)
      rw [← floor_eq]
      exact_mod_cast least
    · rw [sub_add_cancel, zpow_natCast]
      refine (Nat.lt_floor_add_one _).trans_le ?_
      rw [← floor_eq]
      exact_mod_cast less
  case isFalse small =>
    -- Before the last of the places the value stays below one.
    set places := (Nat.toDigits 10 ((ratio.denominator - 1) / ratio.numerator)).length with counted
    have quotient : 0 < (ratio.denominator - 1) / ratio.numerator :=
      Nat.div_pos (by omega) positive.numerator
    obtain ⟨least, less⟩ := length_toDigits_bounds quotient
    rw [← counted] at least less
    have some : 0 < places := Nat.length_toDigits_pos
    have before : 10 ^ (places - 1) * ratio.numerator < ratio.denominator := by
      have := (Nat.le_div_iff_mul_le positive.numerator).mp least
      omega
    have reached : ratio.denominator ≤ 10 ^ places * ratio.numerator := by
      have := (Nat.div_lt_iff_lt_mul positive.numerator).mp less
      omega
    refine (log_ten_eq positive.value_pos ?_ ?_).symm
    · rw [value, le_div_iff₀ divisor, zpow_neg, zpow_natCast, inv_mul_le_iff₀ (by positivity)]
      exact_mod_cast reached
    · have exponent : -(places : ℤ) + 1 = -((places - 1 : ℕ) : ℤ) := by omega
      rw [value, div_lt_iff₀ divisor, exponent, zpow_neg, zpow_natCast,
        lt_inv_mul_iff₀ (by positivity)]
      exact_mod_cast before

end Ratio

end PlotLisp.Number
