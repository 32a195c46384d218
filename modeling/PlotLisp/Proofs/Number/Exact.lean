import PlotLisp.Number.Text
import PlotLisp.Proofs.Number.Encoding

/-!
# Exact results are not rounded

Rounding drops as many bits as the significand has too many. Where the dropped bits are
all zero, the result is the exact value. So the decimal with all digits of a number is
converted to that number: without a fraction as a product with one, and with a fraction
as a quotient by a power of ten, whose factors of five cancel.
-/

namespace PlotLisp.Number

open Float.Model (UnpackedFloat Format totalExponent)
open Float.Model.UnpackedFloat (Sign ExtendedMantissa)

variable {mantissa : Nat} {exponent : Int}

/-- Shifting a nonzero mantissa up adds that many bits. -/
theorem log2_shiftLeft (nonzero : mantissa ≠ 0) (places : Nat) :
    (mantissa <<< places).log2 = mantissa.log2 + places := by
  induction places with
  | zero => rfl
  | succ places inductionHypothesis =>
      have shifted : mantissa <<< places ≠ 0 := by
        simpa using nonzero
      rw [Nat.shiftLeft_succ, Nat.log2_two_mul shifted, inductionHypothesis, Nat.add_assoc]

/-- Shifting back what was shifted leaves no bits behind. -/
theorem shiftRight_shiftLeft (mantissa places : Nat) :
    (⟨mantissa <<< places, false, false⟩ : ExtendedMantissa) >>> places =
      ⟨mantissa, false, false⟩ := by
  show places.repeat ExtendedMantissa.shiftRightOne _ = _
  induction places generalizing mantissa with
  | zero => rfl
  | succ places inductionHypothesis =>
      rw [Nat.repeat, Nat.shiftLeft_succ_inside, inductionHypothesis]
      simp [ExtendedMantissa.shiftRightOne]

/-- A canonical number has the exponent that rounding aims at. -/
theorem Canonical.targetExponent (canonical : Canonical mantissa exponent) :
    Format.binary64.targetExponent (totalExponent mantissa exponent) = exponent := by
  obtain ⟨-, normal, least, -⟩ := canonical
  simp only [Format.targetExponent, totalExponent, Format.mantissaBits, Format.minExponent]
  omega

/-- A canonical number written with a lower exponent shifts back to itself, and no bit is lost. -/
theorem Canonical.shiftToTargetExponent_exact (canonical : Canonical mantissa exponent)
    (places : Nat) :
    UnpackedFloat.shiftToTargetExponent .binary64 (mantissa <<< places) (exponent - places)
      .exact = (⟨mantissa, false, false⟩, exponent) := by
  have total : totalExponent (mantissa <<< places) (exponent - places) =
      totalExponent mantissa exponent := by
    rw [totalExponent, totalExponent, log2_shiftLeft (Nat.ne_of_gt canonical.positive)]
    omega
  have amount : (exponent - (exponent - places)).toNat = places := by omega
  rw [UnpackedFloat.shiftToTargetExponent, total, canonical.targetExponent,
    UnpackedFloat.shiftToExponent]
  simp only [amount, ExtendedMantissa.ofMantissaAndAccuracy, shiftRight_shiftLeft]
  congr 1
  omega

/-- A canonical number with zeros behind its significand is rounded to itself. -/
theorem Canonical.roundWithAccuracy_exact (canonical : Canonical mantissa exponent) (sign : Sign)
    (places : Nat) :
    UnpackedFloat.roundWithAccuracy .binary64 sign (mantissa <<< places) (exponent - places)
      .exact = .finite sign mantissa exponent canonical.positive := by
  have rounded : (⟨mantissa, false, false⟩ : ExtendedMantissa).roundedMantissa = mantissa := rfl
  have again := canonical.shiftToTargetExponent_exact 0
  rw [Nat.shiftLeft_zero, Int.natCast_zero, Int.sub_zero] at again
  simp only [UnpackedFloat.roundWithAccuracy, canonical.shiftToTargetExponent_exact, rounded, again]
  exact dif_neg (Nat.ne_of_gt canonical.positive)

/-- All digits of a number without a fraction denote it. -/
theorem Canonical.ofScientific_whole (canonical : Canonical mantissa exponent)
    (whole : 0 ≤ exponent) :
    UnpackedFloat.ofScientific .binary64 (mantissa <<< exponent.toNat) 0 =
      .finite .positive mantissa exponent canonical.positive := by
  have digits : ¬ mantissa <<< exponent.toNat = 0 := by
    simpa using Nat.ne_of_gt canonical.positive
  have places : (mantissa <<< exponent.toNat) <<< 53 * 1 = mantissa <<< (exponent.toNat + 53) := by
    rw [Nat.mul_one, Nat.shiftLeft_add]
  have sum : (-(53 : Nat) : Int) + 0 = exponent - (exponent.toNat + 53 : Nat) := by omega
  have rounded := canonical.roundWithAccuracy_exact .positive (exponent.toNat + 53)
  rw [← places, ← sum] at rounded
  rw [UnpackedFloat.ofScientific, dif_neg digits, if_neg (by decide),
    if_neg (by show ¬ (0 : Int) < -(2048 + ((mantissa <<< exponent.toNat).log2 : Int)); omega),
    if_pos (Int.le_refl 0)]
  exact rounded

/-- A product has at most as many bits as its factors together. -/
theorem log2_mul_le {a b : Nat} (left : a ≠ 0) (right : b ≠ 0) :
    (a * b).log2 ≤ a.log2 + b.log2 + 1 := by
  refine Nat.le_of_lt_succ ((Nat.log2_lt (Nat.mul_ne_zero left right)).mpr ?_)
  have bound := Nat.mul_lt_mul'' (Nat.lt_log2_self (n := a)) (Nat.lt_log2_self (n := b))
  rw [← Nat.pow_add] at bound
  have sum : a.log2 + b.log2 + 1 + 1 = a.log2 + 1 + (b.log2 + 1) := by omega
  rw [Nat.succ_eq_add_one, sum]
  exact bound

/-- The quotient of the digits of a number by the power of ten is exact, and it has at
least as many bits as the number's significand. -/
theorem Canonical.divCore_exact (canonical : Canonical mantissa exponent) {places : Nat}
    (fraction : exponent = -places) :
    ∃ shift : Nat, UnpackedFloat.divCore .binary64 (mantissa * Nat.pow 5 places) 0
      (Nat.pow 10 places) 0 = (mantissa <<< shift, exponent - shift, .exact) := by
  have five : Nat.pow 5 places ≠ 0 := Nat.ne_of_gt (Nat.pow_pos (by decide))
  have nonzero := Nat.ne_of_gt canonical.positive
  have ten : Nat.pow 10 places = Nat.pow 5 places <<< places := by
    rw [Nat.shiftLeft_eq]
    exact Nat.mul_pow 5 2 places
  have positive : 0 < Nat.pow 10 places := Nat.pow_pos (by decide)
  have size := log2_mul_le nonzero five
  have target := canonical.targetExponent
  simp only [Format.targetExponent, totalExponent, Format.mantissaBits, Format.minExponent]
    at target
  simp only [UnpackedFloat.divCore]
  generalize aim : min ((0 : Int) - 0) (Format.binary64.targetExponent
    (totalExponent (mantissa * Nat.pow 5 places) 0 - totalExponent (Nat.pow 10 places) 0)) = least
  -- The digits have at most one bit more than the significand and the divisor together.
  have enough : least ≤ exponent := by
    rw [ten] at aim
    simp only [Format.targetExponent, totalExponent, Format.mantissaBits, Format.minExponent,
      log2_shiftLeft five] at aim
    omega
  refine ⟨(exponent - least).toNat, ?_⟩
  have shift : ((0 : Int) - 0 - least).toNat = (exponent - least).toNat + places := by omega
  have numerator : (mantissa * Nat.pow 5 places) <<< ((exponent - least).toNat + places) =
      mantissa <<< (exponent - least).toNat * Nat.pow 10 places := by
    rw [ten, Nat.shiftLeft_add]
    simp only [Nat.shiftLeft_eq]
    ac_rfl
  rw [shift, numerator, Nat.mul_div_cancel _ positive, Nat.mul_mod_left]
  congr 1
  congr 1
  omega

/-- All digits of a number with a fraction denote it. -/
theorem Canonical.ofScientific_fraction (canonical : Canonical mantissa exponent) {places : Nat}
    (fraction : exponent = -places) (below : 0 < places) :
    UnpackedFloat.ofScientific .binary64 (mantissa * Nat.pow 5 places) exponent =
      .finite .positive mantissa exponent canonical.positive := by
  have five : Nat.pow 5 places ≠ 0 := Nat.ne_of_gt (Nat.pow_pos (by decide))
  have digits := Nat.mul_ne_zero (Nat.ne_of_gt canonical.positive) five
  have least := canonical.least
  obtain ⟨shift, quotient⟩ := canonical.divCore_exact fraction
  have back : (-exponent).toNat = places := by omega
  rw [UnpackedFloat.ofScientific, dif_neg digits,
    if_neg (by show ¬ exponent > 2048; omega),
    if_neg (by show ¬ exponent < -(2048 + ((mantissa * Nat.pow 5 places).log2 : Int)); omega),
    if_neg (by omega)]
  have divided : UnpackedFloat.divCore .binary64 (mantissa * Nat.pow 5 places) 0
      (10 ^ places) 0 = (mantissa <<< shift, exponent - shift, .exact) := quotient
  simp only [UnpackedFloat.div, back, divided]
  exact canonical.roundWithAccuracy_exact .positive shift

end PlotLisp.Number
