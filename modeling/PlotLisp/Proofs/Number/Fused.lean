import PlotLisp.Proofs.Number.Operations

/-!
# Fused products and sums

A fused product and sum is the exact result rounded once. Where that is too large, the number that
is encoded is infinite.
-/

namespace PlotLisp.Number

open Float.Model (UnpackedFloat Format totalExponent)
open Float.Model.UnpackedFloat (Sign Accuracy)

variable {x y z : Float} {mantissa : ℕ} {exponent : ℤ} {q : ℚ}

/-! ## Rounding once -/

/-- The product of two numbers before it is rounded. -/
theorem exactProduct_cases (left : x.isFinite = true) (right : y.isFinite = true) :
    ∃ sign : Sign, (exactProduct (decoded x) (decoded y) = .zero sign ∧ value x * value y = 0) ∨
      ∃ mantissa exponent, ∃ positive : 0 < mantissa,
        exactProduct (decoded x) (decoded y) = .finite sign mantissa exponent positive ∧
          value x * value y = sign.apply 1 * (mantissa * 2 ^ exponent) := by
  obtain ⟨sign, ⟨shape, zero⟩ | ⟨mantissa, exponent, canonical, shape, size⟩⟩ :=
    decoded_cases left
  · obtain ⟨sign', ⟨shape', -⟩ | ⟨mantissa', exponent', canonical', shape', -⟩⟩ :=
      decoded_cases right
    · exact ⟨sign * sign', .inl ⟨by rw [shape, shape']; rfl, by rw [zero, zero_mul]⟩⟩
    · exact ⟨sign * sign', .inl ⟨by rw [shape, shape']; rfl, by rw [zero, zero_mul]⟩⟩
  obtain ⟨sign', ⟨shape', zero'⟩ | ⟨mantissa', exponent', canonical', shape', size'⟩⟩ :=
    decoded_cases right
  · exact ⟨sign * sign', .inl ⟨by rw [shape, shape']; rfl, by rw [zero', mul_zero]⟩⟩
  · refine ⟨sign * sign', .inr ⟨mantissa * mantissa', exponent + exponent',
      Nat.mul_pos canonical.positive canonical'.positive, by rw [shape, shape']; rfl, ?_⟩⟩
    rw [size, size', apply_mul, zpow_add₀ two_ne_zero]
    push_cast
    ring

/-- Without a product, the sum is the addend. -/
theorem mulAdd_of_zero {sign : Sign}
    (product : exactProduct (decoded x) (decoded y) = .zero sign) :
    mulAdd x y z = encoded (UnpackedFloat.add .binary64 (.zero sign) (decoded z)) := by
  rw [mulAdd, product]

/-- Without an addend, the product is rounded. -/
theorem mulAdd_of_zero_addend {sign sign' : Sign} {positive : 0 < mantissa}
    (product : exactProduct (decoded x) (decoded y) = .finite sign mantissa exponent positive)
    (addend : decoded z = .zero sign') : mulAdd x y z = x * y := by
  rw [mulAdd, product, addend]

/-- Fusing a finite product with a finite addend adds the exact product and rounds once. -/
theorem mulAdd_of_finite {sign sign' : Sign} {mantissa' : ℕ} {exponent' : ℤ}
    {positive : 0 < mantissa} {positive' : 0 < mantissa'}
    (product : exactProduct (decoded x) (decoded y) = .finite sign mantissa exponent positive)
    (addend : decoded z = .finite sign' mantissa' exponent' positive') :
    mulAdd x y z = encoded (UnpackedFloat.add .binary64 (.finite sign mantissa exponent positive)
      (.finite sign' mantissa' exponent' positive')) := by
  rw [mulAdd, product, addend]

/-- The fused product and sum of finite doubles is the exact result rounded once, unless that
overflows. -/
theorem isRounded_mulAdd (left : x.isFinite = true) (right : y.isFinite = true)
    (addend : z.isFinite = true)
    (bounded : |rounded (value x * value y + value z)| < 2 ^ (1024 : ℤ)) :
    IsRounded (mulAdd x y z) (value x * value y + value z) := by
  obtain ⟨sign, ⟨product, zero⟩ | ⟨mantissa, exponent, positive, product, size⟩⟩ :=
    exactProduct_cases left right
  · rw [mulAdd_of_zero product, zero, zero_add]
    exact isRounded_zero_add sign addend
  obtain ⟨sign', ⟨shape, zero'⟩ | ⟨mantissa', exponent', canonical, shape, size'⟩⟩ :=
    decoded_cases addend
  · rw [zero', add_zero] at bounded ⊢
    rw [mulAdd_of_zero_addend product shape]
    exact isRounded_mul left right bounded
  · obtain ⟨whole, least, sum, same⟩ := @exists_add mantissa exponent sign sign' mantissa'
      exponent' positive canonical.positive
    rw [size, size', ← same] at bounded ⊢
    rw [mulAdd_of_finite product shape, sum]
    exact isRounded_normalize _ _ .positive bounded

/-- A finite double above zero decodes to a positive finite number. -/
theorem decoded_of_pos (finite : x.isFinite = true) (above : 0 < value x) :
    ∃ mantissa exponent, ∃ positive : 0 < mantissa,
      decoded x = .finite .positive mantissa exponent positive := by
  obtain ⟨sign, ⟨-, zero⟩ | ⟨mantissa, exponent, canonical, shape, size⟩⟩ := decoded_cases finite
  · exact absurd zero above.ne'
  have positive := canonical.size_pos
  cases sign with
  | negative =>
      rw [size] at above
      simp only [Sign.apply, Int.cast_neg, Int.cast_one, neg_one_mul, neg_pos] at above
      exact absurd above positive.not_gt
  | positive => exact ⟨mantissa, exponent, canonical.positive, shape⟩

/-- Where a product and an addend cancel, the sum is the positive zero. -/
theorem mulAdd_of_cancel (left : x.isFinite = true) (right : y.isFinite = true)
    (addend : z.isFinite = true) (above : 0 < value y) (sign : value x = 0 → x = 0)
    (cancel : value x * value y + value z = 0) : mulAdd x y z = 0 := by
  obtain ⟨sign', ⟨shape, zero⟩ | ⟨mantissa', exponent', canonical, shape, size'⟩⟩ :=
    decoded_cases addend
  · -- Without an addend, there is no product either.
    rw [zero, add_zero, mul_eq_zero, or_iff_left above.ne'] at cancel
    obtain ⟨mantissa, exponent, positive, shape'⟩ := decoded_of_pos right above
    have product : exactProduct (decoded x) (decoded y) = .zero .positive := by
      rw [sign cancel, shape']
      rfl
    rw [mulAdd_of_zero product, shape]
    cases sign' <;> rfl
  · obtain ⟨sign, ⟨-, zero⟩ | ⟨mantissa, exponent, positive, product, size⟩⟩ :=
      exactProduct_cases left right
    · have signed : ((sign'.apply 1 : ℤ) : ℚ) ≠ 0 := by
        cases sign' <;> simp [Sign.apply]
      rw [zero, zero_add, size', mul_eq_zero, or_iff_right signed] at cancel
      exact absurd cancel canonical.size_pos.ne'
    · obtain ⟨whole, least, sum, same⟩ := @exists_add mantissa exponent sign sign' mantissa'
        exponent' positive canonical.positive
      rw [← size, ← size', cancel, mul_eq_zero, or_iff_left (by positivity), Int.cast_eq_zero]
        at same
      rw [mulAdd_of_finite product shape, sum, same]
      rfl

/-! ## What is too large -/

/-- Significands of at most 53 bits are not too large below the greatest exponent. -/
theorem size_lt (few : mantissa < 2 ^ 53) (greatest : exponent ≤ 971) :
    (mantissa * 2 ^ exponent : ℚ) < 2 ^ (1024 : ℤ) := by
  have few : (mantissa : ℚ) < 2 ^ (53 : ℤ) := by exact_mod_cast few
  calc (mantissa * 2 ^ exponent : ℚ)
      < 2 ^ (53 : ℤ) * 2 ^ exponent := by gcongr
    _ ≤ 2 ^ (53 : ℤ) * 2 ^ (971 : ℤ) := by
        gcongr
        · norm_num
    _ = 2 ^ (1024 : ℤ) := by rw [← zpow_add₀ two_ne_zero]; rfl

/-- A significand of at most 53 bits whose size is too large has too large an exponent. -/
theorem IsReduced.encoded_of_large (reduced : IsReduced mantissa exponent) (sign : Sign)
    (positive : 0 < mantissa) (large : (2 ^ (1024 : ℤ) : ℚ) ≤ mantissa * 2 ^ exponent) :
    encoded (.finite sign mantissa exponent positive) = encoded (.infinity sign) := by
  have few : mantissa < 2 ^ 53 := by
    refine (Nat.log2_lt positive.ne').mp ?_
    have normal := reduced.normal
    omega
  have above : 971 < exponent := by
    by_contra small
    exact large.not_gt (size_lt few (not_lt.mp small))
  have biased : 2048 ≤ (exponent + (1023 : Nat) + (52 : Nat)).toNat + 1 := by omega
  have packed : UnpackedFloat.pack .binary64 (.finite sign mantissa exponent positive) =
      UnpackedFloat.pack .binary64 (.infinity sign) := if_pos biased
  rw [encoded, encoded, Float.Model.pack, Float.Model.pack]
  simp only [packed]

/-- Where the rounded size reaches the overflow threshold the core answers the infinity of the
sign. -/
theorem encoded_roundWithAccuracy_of_large (sign : Sign) {accuracy : Accuracy}
    (represents : Represents (.ofMantissaAndAccuracy mantissa accuracy) q) (positive : 0 < q)
    (fits : exponent ≤ Format.binary64.targetExponent (totalExponent mantissa exponent))
    (large : 2 ^ (1024 : ℤ) ≤ roundedSize (q * 2 ^ exponent)) :
    encoded (UnpackedFloat.roundWithAccuracy .binary64 sign mantissa exponent accuracy) =
      encoded (.infinity sign) := by
  obtain ⟨mantissa', exponent', reduced, rounds, shape⟩ :=
    exists_roundWithAccuracy sign represents positive fits
  rw [← rounds] at large
  have nonzero : mantissa' ≠ 0 := by
    rintro rfl
    rw [Nat.cast_zero, zero_mul] at large
    exact large.not_gt (by positivity)
  rw [shape, dif_neg nonzero]
  exact reduced.encoded_of_large sign _ large

/-- Only positive results are rounded to positive numbers. -/
theorem pos_of_large (large : 2 ^ (1024 : ℤ) ≤ rounded q) : 0 < q := by
  by_contra nonpositive
  have below := rounded_mono (not_lt.mp nonpositive)
  rw [rounded_of_nonneg le_rfl, roundedSize_zero] at below
  exact (large.trans below).not_gt (by positivity)

/-- A whole number with an exponent that is too large is encoded as infinity. -/
theorem encoded_normalize_of_large {whole : ℤ} (zeroSign : Sign)
    (large : 2 ^ (1024 : ℤ) ≤ rounded (whole * 2 ^ exponent)) :
    encoded (UnpackedFloat.normalize .binary64 whole exponent zeroSign) = infinity := by
  have positive : 0 < whole := by
    exact_mod_cast pos_of_mul_pos_left (pos_of_large large) (by positivity)
  have back : (whole.toNat : ℚ) = whole := by exact_mod_cast Int.toNat_of_nonneg positive.le
  have some : 0 < whole.toNat := by omega
  rw [rounded_of_nonneg (by positivity), ← back, ← decreaseExponent_eq whole.toNat exponent
    (Format.binary64.targetExponent (totalExponent whole.toNat exponent))] at large
  rw [UnpackedFloat.normalize, Int.compare_eq_gt.mpr positive]
  exact encoded_roundWithAccuracy_of_large .positive (.whole rfl)
    (by exact_mod_cast decreaseExponent_pos some _ _) (decreaseExponent_fits some _) large

/-- A product that is too large is infinite. -/
theorem mul_of_large (left : x.isFinite = true) (right : y.isFinite = true)
    (large : 2 ^ (1024 : ℤ) ≤ rounded (value x * value y)) : x * y = infinity := by
  have above := pos_of_large large
  obtain ⟨sign, ⟨shape, zero⟩ | ⟨mantissa, exponent, canonical, shape, size⟩⟩ := decoded_cases left
  · rw [zero, zero_mul] at above
    exact absurd above (lt_irrefl 0)
  obtain ⟨sign', ⟨shape', zero'⟩ | ⟨mantissa', exponent', canonical', shape', size'⟩⟩ :=
    decoded_cases right
  · rw [zero', mul_zero] at above
    exact absurd above (lt_irrefl 0)
  have positive := Nat.mul_pos canonical.positive canonical'.positive
  have exact_eq : value x * value y =
      (sign * sign').apply 1 * ((mantissa * mantissa' : ℕ) * 2 ^ (exponent + exponent')) := by
    rw [size, size', apply_mul, zpow_add₀ two_ne_zero]
    push_cast
    ring
  have product : x * y = encoded (UnpackedFloat.roundWithAccuracy .binary64 (sign * sign')
      (mantissa * mantissa') (exponent + exponent') .exact) := by
    show encoded (UnpackedFloat.mul .binary64 (decoded x) (decoded y)) = _
    rw [shape, shape']
    rfl
  rw [exact_eq] at above large
  rw [product]
  have nonnegative : (0 : ℚ) ≤ (mantissa * mantissa' : ℕ) * 2 ^ (exponent + exponent') := by
    positivity
  -- A product as large as this is positive.
  generalize sign * sign' = both at above large ⊢
  cases both with
  | negative =>
      have below : ¬ (0 : ℚ) < Sign.negative.apply 1 *
          ((mantissa * mantissa' : ℕ) * 2 ^ (exponent + exponent')) := by
        simpa [Sign.apply] using nonnegative
      exact absurd above below
  | positive =>
      rw [rounded_apply .positive nonnegative] at large
      exact encoded_roundWithAccuracy_of_large .positive (.whole rfl) (by exact_mod_cast positive)
        (canonical.le_targetExponent_mul canonical') (by simpa [Sign.apply] using large)

/-- The value of a finite double is below the overflow threshold, and so is its rounding. -/
theorem rounded_lt_of_isFinite (finite : x.isFinite = true) :
    rounded (value x) < 2 ^ (1024 : ℤ) := by
  rw [← (isRounded_value finite).value_eq]
  obtain ⟨sign, ⟨-, zero⟩ | ⟨mantissa, exponent, canonical, -, size⟩⟩ := decoded_cases finite
  · rw [zero]
    positivity
  · have nonnegative : (0 : ℚ) ≤ mantissa * 2 ^ exponent := by positivity
    refine lt_of_le_of_lt ?_ (size_lt canonical.mantissa_lt canonical.greatest)
    rw [size]
    cases sign with
    | negative => simpa [Sign.apply] using (neg_nonpos.mpr nonnegative).trans nonnegative
    | positive => simp [Sign.apply]

/-- A fused product and sum that is too large is infinite. -/
theorem mulAdd_of_large (left : x.isFinite = true) (right : y.isFinite = true)
    (addend : z.isFinite = true)
    (large : 2 ^ (1024 : ℤ) ≤ rounded (value x * value y + value z)) :
    mulAdd x y z = infinity := by
  obtain ⟨sign, ⟨product, zero⟩ | ⟨mantissa, exponent, positive, product, size⟩⟩ :=
    exactProduct_cases left right
  · rw [zero, zero_add] at large
    exact absurd large (rounded_lt_of_isFinite addend).not_ge
  obtain ⟨sign', ⟨shape, zero'⟩ | ⟨mantissa', exponent', canonical, shape, size'⟩⟩ :=
    decoded_cases addend
  · rw [zero', add_zero] at large
    rw [mulAdd_of_zero_addend product shape]
    exact mul_of_large left right large
  · obtain ⟨whole, least, sum, same⟩ := @exists_add mantissa exponent sign sign' mantissa'
      exponent' positive canonical.positive
    rw [size, size', ← same] at large
    rw [mulAdd_of_finite product shape, sum]
    exact encoded_normalize_of_large .positive large

end PlotLisp.Number
