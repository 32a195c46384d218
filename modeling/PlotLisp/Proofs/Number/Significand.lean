import PlotLisp.Proofs.Number.Exact
import PlotLisp.Proofs.Number.Rounding

/-!
# Rounding of significands

A significand that is rounded has two more bits, which tell how the exact result compares with the
middle between two significands. That is all that rounding needs to know. So the number that is
encoded is the exact result rounded, unless it is too large.
-/

namespace PlotLisp.Number

open Float.Model (UnpackedFloat Format totalExponent)
open Float.Model.UnpackedFloat (Sign Accuracy ExtendedMantissa)

variable {x y : Float} {mantissa : ℕ} {exponent : ℤ} {q : ℚ}

/-! ## Significands with residual bits -/

/-- A significand and two residual bits tell where a number lies between two whole numbers. -/
inductive Represents : ExtendedMantissa → ℚ → Prop where
  | whole {mantissa : ℕ} {q : ℚ} (same : q = mantissa) : Represents ⟨mantissa, false, false⟩ q
  | belowHalf {mantissa : ℕ} {q : ℚ} (least : mantissa < q) (less : q < mantissa + 1 / 2) :
      Represents ⟨mantissa, false, true⟩ q
  | half {mantissa : ℕ} {q : ℚ} (same : q = mantissa + 1 / 2) :
      Represents ⟨mantissa, true, false⟩ q
  | aboveHalf {mantissa : ℕ} {q : ℚ} (least : mantissa + 1 / 2 < q) (less : q < mantissa + 1) :
      Represents ⟨mantissa, true, true⟩ q

/-- Halving an even mantissa leaves a round bit of zero, and the old round bit becomes sticky. -/
theorem shiftRightOne_even (mantissa : ℕ) (roundBit stickyBit : Bool) :
    (⟨2 * mantissa, roundBit, stickyBit⟩ : ExtendedMantissa).shiftRightOne =
      ⟨mantissa, false, roundBit || stickyBit⟩ := by
  simp [ExtendedMantissa.shiftRightOne]

/-- Halving an odd mantissa moves its last bit into the round bit. -/
theorem shiftRightOne_odd (mantissa : ℕ) (roundBit stickyBit : Bool) :
    (⟨2 * mantissa + 1, roundBit, stickyBit⟩ : ExtendedMantissa).shiftRightOne =
      ⟨mantissa, true, roundBit || stickyBit⟩ := by
  have half : (2 * mantissa + 1) / 2 = mantissa := by omega
  have rest : (2 * mantissa + 1) % 2 = 1 := by omega
  simp [ExtendedMantissa.shiftRightOne, half, rest]

namespace Represents

variable {extended : ExtendedMantissa}

/-- What is left of a division tells how the quotient compares with the middle. -/
theorem fraction (mantissa : ℕ) {rest divisor : ℕ} (less : rest < divisor) :
    Represents (.ofMantissaAndAccuracy mantissa (UnpackedFloat.accuracyOfFraction rest divisor))
      (mantissa + rest / divisor) := by
  have positive : (0 : ℚ) < divisor := by exact_mod_cast Nat.zero_lt_of_lt less
  unfold UnpackedFloat.accuracyOfFraction
  split
  case isTrue nothing => exact .whole (by simp [nothing])
  case isFalse something =>
    have above : (0 : ℚ) < rest / divisor :=
      div_pos (by exact_mod_cast Nat.pos_of_ne_zero something) positive
    have below : (rest / divisor : ℚ) < 1 := (div_lt_one positive).mpr (by exact_mod_cast less)
    rcases lt_trichotomy (2 * rest) divisor with short | even | long
    · have half : (rest / divisor : ℚ) < 1 / 2 := by
        rw [div_lt_div_iff₀ positive two_pos, mul_comm, one_mul]
        exact_mod_cast short
      rw [compare_lt_iff_lt.mpr short]
      exact .belowHalf (by linarith) (by linarith)
    · have half : (rest / divisor : ℚ) = 1 / 2 := by
        rw [div_eq_div_iff positive.ne' two_ne_zero, mul_comm, one_mul]
        exact_mod_cast even
      rw [compare_eq_iff_eq.mpr even]
      exact .half (by linarith)
    · have half : (1 / 2 : ℚ) < rest / divisor := by
        rw [div_lt_div_iff₀ two_pos positive, mul_comm _ (2 : ℚ), one_mul]
        exact_mod_cast long
      rw [compare_gt_iff_gt.mpr long]
      exact .aboveHalf (by linarith) (by linarith)

/-- The mantissa is the whole part of what an extended mantissa stands for. -/
theorem bounds (represents : Represents extended q) :
    extended.mantissa ≤ q ∧ q < extended.mantissa + 1 := by
  cases represents with
  | whole same => exact ⟨same.ge, by linarith⟩
  | belowHalf least less => exact ⟨least.le, by linarith⟩
  | half same => exact ⟨by linarith, by linarith⟩
  | aboveHalf least less => exact ⟨by linarith, less⟩

/-- The round and sticky bits decide a rounding exactly as the represented rational does, ties to
even included. -/
theorem roundedMantissa_eq (represents : Represents extended q) :
    extended.roundedMantissa = roundEven q := by
  have floor : ⌊q⌋₊ = extended.mantissa :=
    (Nat.floor_eq_iff ((Nat.cast_nonneg _).trans represents.bounds.1)).mpr represents.bounds
  rw [roundEven, floor]
  cases represents with
  | whole same =>
      rw [if_pos (by linarith)]
      rfl
  | belowHalf least less =>
      rw [if_pos (by linarith)]
      rfl
  | half same =>
      rw [if_neg (by linarith), if_neg (by linarith)]
      rfl
  | aboveHalf least less =>
      rw [if_neg (by linarith), if_pos (by linarith)]
      rfl

/-- One shift to the right halves what is represented; the sticky bit remembers that something was
lost. -/
theorem shiftRightOne (represents : Represents extended q) :
    Represents extended.shiftRightOne (q / 2) := by
  -- A bit that is shifted out is worth one half; what was below it before only says on which side
  -- of the half the rest lies.
  cases represents with
  | @whole mantissa _ same =>
      obtain ⟨half, rfl | rfl⟩ := mantissa.even_or_odd' <;> push_cast at same
      · rw [shiftRightOne_even]
        exact .whole (by linarith)
      · rw [shiftRightOne_odd]
        exact .half (by linarith)
  | @belowHalf mantissa _ least less =>
      obtain ⟨half, rfl | rfl⟩ := mantissa.even_or_odd' <;> push_cast at least less
      · rw [shiftRightOne_even]
        exact .belowHalf (by linarith) (by linarith)
      · rw [shiftRightOne_odd]
        exact .aboveHalf (by linarith) (by linarith)
  | @half mantissa _ same =>
      obtain ⟨half, rfl | rfl⟩ := mantissa.even_or_odd' <;> push_cast at same
      · rw [shiftRightOne_even]
        exact .belowHalf (by linarith) (by linarith)
      · rw [shiftRightOne_odd]
        exact .aboveHalf (by linarith) (by linarith)
  | @aboveHalf mantissa _ least less =>
      obtain ⟨half, rfl | rfl⟩ := mantissa.even_or_odd' <;> push_cast at least less
      · rw [shiftRightOne_even]
        exact .belowHalf (by linarith) (by linarith)
      · rw [shiftRightOne_odd]
        exact .aboveHalf (by linarith) (by linarith)

/-- Shifting by any number of places divides by that power of two. -/
theorem shiftRight (represents : Represents extended q) (places : ℕ) :
    Represents (extended >>> places) (q / 2 ^ places) := by
  show Represents (places.repeat ExtendedMantissa.shiftRightOne extended) _
  induction places with
  | zero => simpa [Nat.repeat] using represents
  | succ places inductionHypothesis =>
      rw [Nat.repeat, pow_succ, ← div_div]
      exact inductionHypothesis.shiftRightOne

end Represents

/-! ## Rounding to 53 bits -/

/-- The exponent that rounding aims at is that of the grid. -/
theorem targetExponent_eq (exponent : ℤ) {extended : ExtendedMantissa}
    (represents : Represents extended q) (positive : 0 < q)
    (fits : exponent ≤ Format.binary64.targetExponent (totalExponent extended.mantissa exponent)) :
    Format.binary64.targetExponent (totalExponent extended.mantissa exponent) =
      gridExponent (q * 2 ^ exponent) := by
  obtain ⟨least, less⟩ := represents.bounds
  have size : 0 < q * 2 ^ exponent := by positivity
  simp only [Format.targetExponent, totalExponent, Format.mantissaBits, Format.minExponent,
    gridExponent] at fits ⊢
  rcases Nat.eq_zero_or_pos extended.mantissa with zero | some
  · -- Without a bit in front, the number is below the finest grid.
    rw [zero] at fits less ⊢
    have below : q * 2 ^ exponent < (2 : ℕ) ^ exponent := by
      rw [Nat.cast_zero, zero_add] at less
      rw [Nat.cast_ofNat]
      exact mul_lt_of_lt_one_left (by positivity) less
    have log := (Int.lt_zpow_iff_log_lt (by norm_num) size).mp below
    have short : Nat.log2 0 = 0 := rfl
    rw [short] at fits ⊢
    omega
  · have bits : Int.log 2 (q * 2 ^ exponent) = extended.mantissa.log2 + exponent := by
      refine le_antisymm (Int.lt_add_one_iff.mp ?_) ?_
      · rw [← Int.lt_zpow_iff_log_lt (by norm_num) size, Nat.cast_ofNat, add_right_comm,
          zpow_add₀ (by norm_num)]
        have bound :
            ((extended.mantissa + 1 : ℕ) : ℚ) ≤ (2 ^ (extended.mantissa.log2 + 1) : ℕ) := by
          exact_mod_cast Nat.lt_log2_self
        push_cast at bound
        have below := less.trans_le bound
        gcongr
        exact_mod_cast below
      · rw [← Int.zpow_le_iff_le_log (by norm_num) size, Nat.cast_ofNat,
          zpow_add₀ (by norm_num), zpow_natCast]
        have bound : ((2 ^ extended.mantissa.log2 : ℕ) : ℚ) ≤ extended.mantissa := by
          exact_mod_cast Nat.log2_self_le (Nat.ne_of_gt some)
        push_cast at bound
        have above := bound.trans least
        gcongr
    omega

/-- A significand of at most 53 bits that is used up to its first bit above the least exponent. -/
structure IsReduced (mantissa : ℕ) (exponent : ℤ) : Prop where
  normal : mantissa.log2 = 52 ∨ mantissa.log2 < 52 ∧ exponent = -1074
  least : -1074 ≤ exponent

/-- The significand that rounding comes to has at most 53 bits, or it is the next power of two. -/
theorem roundEven_cases {size : ℚ} (positive : 0 < size) :
    IsReduced (roundEven (size / 2 ^ gridExponent size)) (gridExponent size) ∨
      roundEven (size / 2 ^ gridExponent size) = 2 ^ 53 := by
  have least : -1074 ≤ gridExponent size := le_max_right _ _
  have upper := roundEven_le_of_grid size
  by_cases full : roundEven (size / 2 ^ gridExponent size) = 2 ^ 53
  · exact .inr full
  refine .inl ⟨?_, least⟩
  rcases least.eq_or_lt with finest | coarse
  · by_cases zero : roundEven (size / 2 ^ gridExponent size) = 0
    · exact .inr ⟨by rw [zero]; decide, finest.symm⟩
    · have few := (Nat.log2_lt zero).mpr (lt_of_le_of_ne upper full)
      omega
  · have lower := le_roundEven_of_grid positive coarse
    have nonzero : roundEven (size / 2 ^ gridExponent size) ≠ 0 := by omega
    have few := (Nat.log2_lt nonzero).mpr (lt_of_le_of_ne upper full)
    have many := (Nat.le_log2 nonzero).mpr lower
    omega

/-- A significand that needs no rounding any more is shifted by one place, if at all. -/
theorem exists_shiftToTargetExponent
    (reduced : IsReduced mantissa exponent ∨ mantissa = 2 ^ 53 ∧ -1074 ≤ exponent) :
    ∃ mantissa' exponent',
      UnpackedFloat.shiftToTargetExponent .binary64 mantissa exponent .exact =
        (⟨mantissa', false, false⟩, exponent') ∧
      IsReduced mantissa' exponent' ∧
      (mantissa' * 2 ^ exponent' : ℚ) = mantissa * 2 ^ exponent := by
  rcases reduced with ⟨normal, least⟩ | ⟨rfl, least⟩
  · have target : (Format.binary64.targetExponent (totalExponent mantissa exponent) -
        exponent).toNat = 0 := by
      simp only [Format.targetExponent, totalExponent, Format.mantissaBits, Format.minExponent]
      omega
    refine ⟨mantissa, exponent, ?_, ⟨normal, least⟩, rfl⟩
    simp only [UnpackedFloat.shiftToTargetExponent, UnpackedFloat.shiftToExponent, target]
    simp [HShiftRight.hShiftRight, Nat.repeat, ExtendedMantissa.ofMantissaAndAccuracy]
  · have target : (Format.binary64.targetExponent (totalExponent (2 ^ 53) exponent) -
        exponent).toNat = 1 := by
      simp only [Format.targetExponent, totalExponent, Format.mantissaBits, Format.minExponent,
        Nat.log2_two_pow]
      omega
    refine ⟨2 ^ 52, exponent + 1, ?_, ⟨.inl Nat.log2_two_pow, by omega⟩, ?_⟩
    · simp only [UnpackedFloat.shiftToTargetExponent, UnpackedFloat.shiftToExponent, target]
      simp [HShiftRight.hShiftRight, Nat.repeat, ExtendedMantissa.ofMantissaAndAccuracy,
        ExtendedMantissa.shiftRightOne]
    · rw [zpow_add_one₀ (by norm_num)]
      push_cast
      ring

/-- Rounding gives the significand and exponent of the rounded size. -/
theorem exists_roundWithAccuracy (sign : Sign) {accuracy : Accuracy}
    (represents : Represents (.ofMantissaAndAccuracy mantissa accuracy) q) (positive : 0 < q)
    (fits : exponent ≤ Format.binary64.targetExponent (totalExponent mantissa exponent)) :
    ∃ mantissa' exponent', IsReduced mantissa' exponent' ∧
      (mantissa' * 2 ^ exponent' : ℚ) = roundedSize (q * 2 ^ exponent) ∧
      UnpackedFloat.roundWithAccuracy .binary64 sign mantissa exponent accuracy =
        if zero : mantissa' = 0 then .zero sign
        else .finite sign mantissa' exponent' (Nat.pos_of_ne_zero zero) := by
  have stored : (ExtendedMantissa.ofMantissaAndAccuracy mantissa accuracy).mantissa = mantissa := by
    cases accuracy with
    | exact => rfl
    | inexact ordering => cases ordering <;> rfl
  -- The exponent that the core aims at is that of the grid, where the nearest point is taken.
  have target := targetExponent_eq exponent represents positive (by rwa [stored])
  rw [stored] at target
  rw [target] at fits
  have size : 0 < q * 2 ^ exponent := by positivity
  have shifted := represents.shiftRight (gridExponent (q * 2 ^ exponent) - exponent).toNat
  have scaled : q / 2 ^ (gridExponent (q * 2 ^ exponent) - exponent).toNat =
      q * 2 ^ exponent / 2 ^ gridExponent (q * 2 ^ exponent) := by
    rw [← zpow_natCast, Int.toNat_of_nonneg (by omega), zpow_sub₀ (by norm_num), div_div_eq_mul_div]
  rw [scaled] at shifted
  have reached : exponent + (gridExponent (q * 2 ^ exponent) - exponent).toNat =
      gridExponent (q * 2 ^ exponent) := by omega
  have least : -1074 ≤ gridExponent (q * 2 ^ exponent) := le_max_right _ _
  obtain ⟨mantissa', exponent', final, reduced, same⟩ :=
    exists_shiftToTargetExponent ((roundEven_cases size).imp_right fun full => ⟨full, least⟩)
  refine ⟨mantissa', exponent', reduced, same, ?_⟩
  rw [UnpackedFloat.roundWithAccuracy, UnpackedFloat.shiftToTargetExponent, target,
    UnpackedFloat.shiftToExponent]
  simp only [reached, shifted.roundedMantissa_eq, final]

/-- Below the bound of the exponents, a reduced significand is a canonical one. -/
theorem IsReduced.canonical (reduced : IsReduced mantissa exponent) (nonzero : mantissa ≠ 0)
    (bounded : (mantissa * 2 ^ exponent : ℚ) < 2 ^ (1024 : ℤ)) : Canonical mantissa exponent := by
  refine ⟨Nat.pos_of_ne_zero nonzero, reduced.normal, reduced.least, ?_⟩
  by_contra large
  have full : 2 ^ 52 ≤ mantissa := by
    refine (Nat.le_log2 nonzero).mp ?_
    have normal := reduced.normal
    omega
  refine bounded.not_ge ?_
  calc (2 ^ (1024 : ℤ) : ℚ)
      = (2 ^ 52 : ℕ) * 2 ^ (972 : ℤ) := by
        rw [Nat.cast_pow, Nat.cast_ofNat, ← zpow_natCast, ← zpow_add₀ (by norm_num)]
        rfl
    _ ≤ mantissa * 2 ^ exponent := by
      gcongr
      · norm_num
      · omega

/-! ## Results of operations -/

/-- A finite number that stands for an exact result rounded. -/
structure IsRounded (x : Float) (exact : ℚ) : Prop where
  finite : x.isFinite = true
  value_eq : value x = rounded exact

/-- Rounding takes a sign outside: it acts on the size alone. -/
theorem rounded_apply (sign : Sign) (nonnegative : 0 ≤ q) :
    rounded (sign.apply 1 * q) = sign.apply 1 * roundedSize q := by
  cases sign with
  | positive => simpa [Sign.apply] using rounded_of_nonneg nonnegative
  | negative => simpa [Sign.apply, rounded_neg] using rounded_of_nonneg nonnegative

/-- What is encoded is decoded again. -/
theorem IsReduced.isRounded (reduced : IsReduced mantissa exponent) (sign : Sign)
    (nonnegative : 0 ≤ q) (rounds : (mantissa * 2 ^ exponent : ℚ) = roundedSize q)
    (bounded : roundedSize q < 2 ^ (1024 : ℤ)) :
    IsRounded (encoded (if zero : mantissa = 0 then .zero sign
      else .finite sign mantissa exponent (Nat.pos_of_ne_zero zero))) (sign.apply 1 * q) := by
  have decoded_eq (unpacked : UnpackedFloat)
      (back : UnpackedFloat.unpack .binary64 (UnpackedFloat.pack .binary64 unpacked) = unpacked) :
      decoded (encoded unpacked) = unpacked := back
  split
  case isTrue zero =>
    have shape := decoded_eq (.zero sign) (unpack_zero sign)
    refine ⟨congrArg UnpackedFloat.isFinite shape, ?_⟩
    rw [value, shape, exactValue_zero, rounded_apply sign nonnegative, ← rounds, zero]
    simp
  case isFalse nonzero =>
    have canonical := reduced.canonical nonzero (rounds ▸ bounded)
    have shape := decoded_eq _ (canonical.unpack_pack sign)
    refine ⟨congrArg UnpackedFloat.isFinite shape, ?_⟩
    rw [value, shape, exactValue_finite, rounded_apply sign nonnegative, rounds]

/-- A sign leaves the size of a non-negative rational as it is. -/
theorem abs_apply_mul (sign : Sign) (nonnegative : 0 ≤ q) : |(sign.apply 1 * q : ℚ)| = q := by
  cases sign <;> simpa [Sign.apply] using nonnegative

/-- The core's rounding of a represented mantissa gives the double nearest to it, as long as that
double is below the overflow threshold. -/
theorem isRounded_roundWithAccuracy (sign : Sign) {accuracy : Accuracy}
    (represents : Represents (.ofMantissaAndAccuracy mantissa accuracy) q) (positive : 0 < q)
    (fits : exponent ≤ Format.binary64.targetExponent (totalExponent mantissa exponent))
    (bounded : |rounded (sign.apply 1 * (q * 2 ^ exponent))| < 2 ^ (1024 : ℤ)) :
    IsRounded (encoded (UnpackedFloat.roundWithAccuracy .binary64 sign mantissa exponent accuracy))
      (sign.apply 1 * (q * 2 ^ exponent)) := by
  have size : 0 ≤ q * 2 ^ exponent := by positivity
  obtain ⟨mantissa', exponent', reduced, rounds, shape⟩ :=
    exists_roundWithAccuracy sign represents positive fits
  rw [abs_rounded, abs_apply_mul sign size] at bounded
  rw [shape]
  exact reduced.isRounded sign size rounds bounded

/-- The zero of either sign is the rounding of 0. -/
theorem isRounded_zero (sign : Sign) : IsRounded (encoded (.zero sign)) 0 := by
  have reduced : IsReduced 0 (-1074) := ⟨.inr ⟨by decide, rfl⟩, le_rfl⟩
  simpa using reduced.isRounded sign le_rfl (by simp) (by simp)

/-- A finite number is not rounded. -/
theorem isRounded_value (finite : x.isFinite = true) : IsRounded x (value x) := by
  refine ⟨finite, ?_⟩
  obtain ⟨sign, ⟨-, zero⟩ | ⟨mantissa, exponent, canonical, -, size⟩⟩ := decoded_cases finite
  · simp [zero, rounded]
  · rw [size, rounded_apply sign (by positivity),
      roundedSize_of_lt canonical.mantissa_lt canonical.least]

end PlotLisp.Number
