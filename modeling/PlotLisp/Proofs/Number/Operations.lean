import PlotLisp.Proofs.Number.Significand

/-!
# Arithmetic rounds exact results

The sum, difference, product, or quotient of finite numbers is the exact result rounded, unless it
is too large.
-/

namespace PlotLisp.Number

open Float.Model (UnpackedFloat Format totalExponent)
open Float.Model.UnpackedFloat (Sign Accuracy)

variable {x y : Float} {mantissa : ℕ} {exponent : ℤ}

/-! ## Opposites -/

/-- Negation acts on what a double decodes to, for zeros, infinities and the double that is no
number as well. -/
theorem decoded_neg (x : Float) : decoded (-x) = (decoded x).neg := by
  show UnpackedFloat.unpack .binary64 (UnpackedFloat.pack .binary64 (decoded x).neg) = _
  by_cases finite : x.isFinite = true
  · obtain ⟨sign, ⟨shape, -⟩ | ⟨mantissa, exponent, canonical, shape, -⟩⟩ := decoded_cases finite
    · rw [shape]
      exact unpack_zero _
    · rw [shape]
      exact canonical.unpack_pack _
  · have special : ¬ (decoded x).isFinite = true := finite
    cases shape : decoded x with
    | notANumber => rfl
    | infinity sign => exact unpack_infinite _
    | zero sign => exact absurd rfl (shape ▸ special)
    | finite => exact absurd rfl (shape ▸ special)

/-- The negative of a finite double is finite. -/
theorem isFinite_neg (finite : x.isFinite = true) : (-x).isFinite = true := by
  show (decoded (-x)).isFinite = true
  rw [decoded_neg]
  obtain ⟨sign, ⟨shape, -⟩ | ⟨mantissa, exponent, canonical, shape, -⟩⟩ := decoded_cases finite
  · rw [shape]
    rfl
  · rw [shape]
    rfl

/-- Negation is exact. -/
theorem value_neg (finite : x.isFinite = true) : value (-x) = -value x := by
  obtain ⟨sign, ⟨shape, zero⟩ | ⟨mantissa, exponent, canonical, shape, size⟩⟩ :=
    decoded_cases finite
  · rw [zero, value, decoded_neg, shape, neg_zero]
    rfl
  · rw [size, value, decoded_neg, shape, UnpackedFloat.neg, exactValue_finite]
    cases sign with
    | negative => simp [Sign.apply]
    | positive => simp [Sign.apply]

/-- Negation turns the order of finite doubles around. -/
theorem neg_le_neg (left : x.isFinite = true) (right : y.isFinite = true) (ordered : x ≤ y) :
    -y ≤ -x := by
  rw [le_iff_value left right] at ordered
  rw [le_iff_value (isFinite_neg right) (isFinite_neg left), value_neg left, value_neg right]
  exact neg_le_neg_iff.mpr ordered

/-! ## Products -/

/-- The sign of a product is the product of the signs. -/
theorem apply_mul (sign sign' : Sign) :
    ((sign * sign').apply 1 : ℚ) = sign.apply 1 * sign'.apply 1 := by
  have whole : (sign * sign').apply 1 = sign.apply 1 * sign'.apply 1 := by
    cases sign <;> cases sign' <;> rfl
  exact_mod_cast whole

/-- A product of significands has no fewer bits than rounding leaves. -/
theorem Canonical.le_targetExponent_mul {mantissa' : ℕ} {exponent' : ℤ}
    (left : Canonical mantissa exponent) (right : Canonical mantissa' exponent') :
    exponent + exponent' ≤ Format.binary64.targetExponent
      (totalExponent (mantissa * mantissa') (exponent + exponent')) := by
  have bits : mantissa.log2 + mantissa'.log2 ≤ (mantissa * mantissa').log2 := by
    refine (Nat.le_log2 (Nat.mul_ne_zero left.positive.ne' right.positive.ne')).mpr ?_
    rw [Nat.pow_add]
    exact Nat.mul_le_mul (Nat.log2_self_le left.positive.ne') (Nat.log2_self_le right.positive.ne')
  have normal := left.normal
  have normal' := right.normal
  simp only [Format.targetExponent, totalExponent, Format.mantissaBits, Format.minExponent]
  omega

/-- The product of finite doubles is the exact product rounded, unless that overflows. -/
theorem isRounded_mul (left : x.isFinite = true) (right : y.isFinite = true)
    (bounded : |rounded (value x * value y)| < 2 ^ (1024 : ℤ)) :
    IsRounded (x * y) (value x * value y) := by
  have product : x * y = encoded (UnpackedFloat.mul .binary64 (decoded x) (decoded y)) := rfl
  rw [product]
  obtain ⟨sign, ⟨shape, zero⟩ | ⟨mantissa, exponent, canonical, shape, size⟩⟩ :=
    decoded_cases left
  · obtain ⟨sign', ⟨shape', -⟩ | ⟨mantissa', exponent', canonical', shape', -⟩⟩ :=
      decoded_cases right
    · rw [shape, shape', zero, zero_mul]
      exact isRounded_zero _
    · rw [shape, shape', zero, zero_mul]
      exact isRounded_zero _
  obtain ⟨sign', ⟨shape', zero'⟩ | ⟨mantissa', exponent', canonical', shape', size'⟩⟩ :=
    decoded_cases right
  · rw [shape, shape', zero', mul_zero]
    exact isRounded_zero _
  · have exact_eq : value x * value y =
        (sign * sign').apply 1 * ((mantissa * mantissa' : ℕ) * 2 ^ (exponent + exponent')) := by
      rw [size, size', apply_mul, zpow_add₀ (by norm_num)]
      push_cast
      ring
    have positive := Nat.mul_pos canonical.positive canonical'.positive
    rw [exact_eq] at bounded ⊢
    rw [shape, shape']
    exact isRounded_roundWithAccuracy (sign * sign') (.whole rfl) (by exact_mod_cast positive)
      (canonical.le_targetExponent_mul canonical') bounded

/-! ## Quotients -/

/-- The sign of a quotient is the quotient of the signs. -/
theorem apply_div (sign sign' : Sign) :
    ((sign / sign').apply 1 : ℚ) = sign.apply 1 / sign'.apply 1 := by
  cases sign <;> cases sign' <;> norm_num [Sign.apply] <;> rfl

/-- The numerator of a quotient is shifted until the quotient has enough bits. -/
theorem log2_quotient {numerator divisor : ℕ} (positive : 0 < divisor)
    (many : divisor.log2 + 53 ≤ numerator.log2) : 52 ≤ (numerator / divisor).log2 := by
  have some : numerator ≠ 0 := by
    rintro rfl
    simp at many
  have enough : 2 ^ 52 ≤ numerator / divisor := by
    rw [Nat.le_div_iff_mul_le positive]
    calc 2 ^ 52 * divisor
        ≤ 2 ^ 52 * 2 ^ (divisor.log2 + 1) := Nat.mul_le_mul_left _ Nat.lt_log2_self.le
      _ = 2 ^ (divisor.log2 + 53) := by rw [← Nat.pow_add, Nat.add_comm 52, Nat.add_assoc]
      _ ≤ 2 ^ numerator.log2 := Nat.pow_le_pow_right two_pos many
      _ ≤ numerator := Nat.log2_self_le some
  exact (Nat.le_log2 (Nat.ne_of_gt (lt_of_lt_of_le (by norm_num) enough))).mpr enough

/-- A quotient of significands has enough bits, or it reaches below the least exponent. -/
theorem exists_divCore {mantissa' : ℕ} {exponent' : ℤ} (left : 0 < mantissa)
    (right : 0 < mantissa') :
    ∃ (quotient : ℕ) (least : ℤ) (accuracy : Accuracy) (q : ℚ),
      UnpackedFloat.divCore .binary64 mantissa exponent mantissa' exponent' =
        (quotient, least, accuracy) ∧
      Represents (.ofMantissaAndAccuracy quotient accuracy) q ∧
      q * 2 ^ least = mantissa * 2 ^ exponent / (mantissa' * 2 ^ exponent') ∧
      least ≤ Format.binary64.targetExponent (totalExponent quotient least) := by
  unfold UnpackedFloat.divCore
  generalize aim : min (exponent - exponent') (Format.binary64.targetExponent
    (totalExponent mantissa exponent - totalExponent mantissa' exponent')) = least
  have shift : (exponent - exponent' - least).toNat = exponent - exponent' - least := by omega
  refine ⟨_, _, _, _, rfl, .fraction _ (Nat.mod_lt _ right), ?_, ?_⟩
  · generalize (exponent - exponent' - least).toNat = places at shift ⊢
    have divisor : (mantissa' : ℚ) ≠ 0 := by exact_mod_cast right.ne'
    have whole : (mantissa' * (mantissa <<< places / mantissa' : ℕ) +
        (mantissa <<< places % mantissa' : ℕ) : ℚ) = mantissa * 2 ^ places := by
      exact_mod_cast (Nat.div_add_mod _ _).trans (Nat.shiftLeft_eq _ _)
    -- The dividend was shifted by as many places as its exponent was lowered.
    have scale : (2 ^ exponent : ℚ) = 2 ^ places * 2 ^ least * 2 ^ exponent' := by
      rw [← zpow_natCast, ← zpow_add₀ (by norm_num), ← zpow_add₀ (by norm_num)]
      congr 1
      omega
    have cleared : (((mantissa <<< places / mantissa' : ℕ) : ℚ) +
        (mantissa <<< places % mantissa' : ℕ) / mantissa') * mantissa' =
          mantissa * 2 ^ places := by
      rw [← whole, add_mul, div_mul_cancel₀ _ divisor, mul_comm]
    rw [eq_div_iff (by positivity), scale]
    linear_combination (2 ^ least * 2 ^ exponent' : ℚ) * cleared
  · have bits := log2_shiftLeft left.ne' (exponent - exponent' - least).toNat
    have quotient := @log2_quotient (mantissa <<< (exponent - exponent' - least).toNat) _ right
    simp only [Format.targetExponent, totalExponent, Format.mantissaBits, Format.minExponent]
      at aim ⊢
    omega

/-- The quotient of finite doubles by a nonzero one is the exact quotient rounded, unless that
overflows. -/
theorem isRounded_div (left : x.isFinite = true) (right : y.isFinite = true)
    (nonzero : value y ≠ 0) (bounded : |rounded (value x / value y)| < 2 ^ (1024 : ℤ)) :
    IsRounded (x / y) (value x / value y) := by
  have quotient : x / y = encoded (UnpackedFloat.div .binary64 (decoded x) (decoded y)) := rfl
  rw [quotient]
  obtain ⟨sign', ⟨-, zero'⟩ | ⟨mantissa', exponent', canonical', shape', size'⟩⟩ :=
    decoded_cases right
  · exact absurd zero' nonzero
  obtain ⟨sign, ⟨shape, zero⟩ | ⟨mantissa, exponent, canonical, shape, size⟩⟩ :=
    decoded_cases left
  · rw [shape, shape', zero, zero_div]
    exact isRounded_zero _
  · obtain ⟨quotient, least, accuracy, q, computed, represents, same, fits⟩ :=
      @exists_divCore mantissa exponent mantissa' exponent' canonical.positive canonical'.positive
    have exact_eq : value x / value y = (sign / sign').apply 1 * (q * 2 ^ least) := by
      rw [size, size', apply_div, same, mul_div_mul_comm]
    have positive : 0 < q * 2 ^ least := by
      rw [same]
      exact div_pos canonical.size_pos canonical'.size_pos
    rw [exact_eq] at bounded ⊢
    rw [shape, shape', UnpackedFloat.div, computed]
    exact isRounded_roundWithAccuracy _ represents (pos_of_mul_pos_left positive (by positivity))
      fits bounded

/-! ## Sums -/

/-- Lowering an exponent and shifting the mantissa up leaves the number they stand for as it was. -/
theorem decreaseExponent_eq (mantissa : ℕ) (exponent least : ℤ) :
    ((UnpackedFloat.decreaseExponent mantissa exponent least).1 : ℚ) *
      2 ^ (UnpackedFloat.decreaseExponent mantissa exponent least).2 = mantissa * 2 ^ exponent := by
  simp only [UnpackedFloat.decreaseExponent, Nat.shiftLeft_eq]
  push_cast
  rw [mul_assoc, ← zpow_natCast, ← zpow_add₀ (by norm_num)]
  congr 2
  omega

/-- Where the exponent is not below `least` the lowered one is exactly `least`, so that two addends
come to share it. -/
theorem decreaseExponent_of_le {least : ℤ} (below : least ≤ exponent) :
    ((UnpackedFloat.decreaseExponent mantissa exponent least).1 : ℚ) * 2 ^ least =
      mantissa * 2 ^ exponent := by
  have reached : (UnpackedFloat.decreaseExponent mantissa exponent least).2 = least := by
    simp only [UnpackedFloat.decreaseExponent]
    omega
  rw [← decreaseExponent_eq mantissa exponent least, reached]

/-- Shifting up keeps a mantissa positive. -/
theorem decreaseExponent_pos (positive : 0 < mantissa) (exponent least : ℤ) :
    0 < (UnpackedFloat.decreaseExponent mantissa exponent least).1 := by
  simp only [UnpackedFloat.decreaseExponent, Nat.shiftLeft_eq]
  exact Nat.mul_pos positive (Nat.two_pow_pos _)

/-- The exponent that rounding aims at is reached from below. -/
theorem decreaseExponent_fits (positive : 0 < mantissa) (exponent : ℤ) :
    (UnpackedFloat.decreaseExponent mantissa exponent
      (Format.binary64.targetExponent (totalExponent mantissa exponent))).2 ≤
        Format.binary64.targetExponent (totalExponent
          (UnpackedFloat.decreaseExponent mantissa exponent
            (Format.binary64.targetExponent (totalExponent mantissa exponent))).1
          (UnpackedFloat.decreaseExponent mantissa exponent
            (Format.binary64.targetExponent (totalExponent mantissa exponent))).2) := by
  have bits := log2_shiftLeft positive.ne' (exponent -
    Format.binary64.targetExponent (totalExponent mantissa exponent)).toNat
  simp only [UnpackedFloat.decreaseExponent, Format.targetExponent, totalExponent,
    Format.mantissaBits, Format.minExponent] at bits ⊢
  omega

/-- The core's rounding of an exact mantissa is the nearest double, below the overflow bound. -/
theorem isRounded_round (sign : Sign) (positive : 0 < mantissa)
    (bounded : |rounded (sign.apply 1 * (mantissa * 2 ^ exponent))| < 2 ^ (1024 : ℤ)) :
    IsRounded (encoded (UnpackedFloat.round .binary64 sign mantissa exponent))
      (sign.apply 1 * (mantissa * 2 ^ exponent)) := by
  have same := decreaseExponent_eq mantissa exponent
    (Format.binary64.targetExponent (totalExponent mantissa exponent))
  rw [← same] at bounded ⊢
  exact isRounded_roundWithAccuracy sign (.whole rfl)
    (by exact_mod_cast decreaseExponent_pos positive _ _) (decreaseExponent_fits positive exponent)
    bounded

/-- Normalizing a signed whole number with an exponent rounds it; the sign given for zero plays no
part in the value. -/
theorem isRounded_normalize (whole exponent : ℤ) (zeroSign : Sign)
    (bounded : |rounded (whole * 2 ^ exponent)| < 2 ^ (1024 : ℤ)) :
    IsRounded (encoded (UnpackedFloat.normalize .binary64 whole exponent zeroSign))
      (whole * 2 ^ exponent) := by
  unfold UnpackedFloat.normalize
  rcases lt_trichotomy whole 0 with negative | rfl | positive
  · have size : (whole : ℚ) * 2 ^ exponent =
        Sign.negative.apply 1 * ((-whole).toNat * 2 ^ exponent) := by
      have back : ((-whole).toNat : ℚ) = -whole := by
        exact_mod_cast Int.toNat_of_nonneg (by omega : 0 ≤ -whole)
      rw [back]
      simp [Sign.apply]
    rw [size] at bounded ⊢
    rw [Int.compare_eq_lt.mpr negative]
    exact isRounded_round .negative (by omega) bounded
  · rw [Int.cast_zero, zero_mul]
    exact isRounded_zero zeroSign
  · have size : (whole : ℚ) * 2 ^ exponent =
        Sign.positive.apply 1 * (whole.toNat * 2 ^ exponent) := by
      have back : (whole.toNat : ℚ) = whole := by
        exact_mod_cast Int.toNat_of_nonneg positive.le
      rw [back]
      simp [Sign.apply]
    rw [size] at bounded ⊢
    rw [Int.compare_eq_gt.mpr positive]
    exact isRounded_round .positive (by omega) bounded

/-- A finite double is the encoding of what it decodes to. -/
theorem encoded_decoded (finite : x.isFinite = true) : encoded (decoded x) = x :=
  (decoded_of_isFinite finite).1

/-- A sign applied to a whole number is the rational sign times that number. -/
theorem apply_cast (sign : Sign) (whole : ℕ) :
    ((sign.apply whole : ℤ) : ℚ) = sign.apply 1 * whole := by
  cases sign <;> simp [Sign.apply]

/-- Before it is rounded, a sum is a whole number with the smaller of the two exponents. -/
theorem exists_add (sign sign' : Sign) {mantissa' : ℕ} {exponent' : ℤ} (positive : 0 < mantissa)
    (positive' : 0 < mantissa') :
    ∃ (whole least : ℤ),
      UnpackedFloat.add .binary64 (.finite sign mantissa exponent positive)
        (.finite sign' mantissa' exponent' positive') =
          UnpackedFloat.normalize .binary64 whole least .positive ∧
      (whole * 2 ^ least : ℚ) =
        sign.apply 1 * (mantissa * 2 ^ exponent) + sign'.apply 1 * (mantissa' * 2 ^ exponent') := by
  refine ⟨sign.apply (UnpackedFloat.decreaseExponent mantissa exponent (min exponent exponent')).1 +
    sign'.apply (UnpackedFloat.decreaseExponent mantissa' exponent' (min exponent exponent')).1,
    min exponent exponent', rfl, ?_⟩
  rw [Int.cast_add, apply_cast, apply_cast, add_mul, mul_assoc, mul_assoc,
    decreaseExponent_of_le (min_le_left _ _), decreaseExponent_of_le (min_le_right _ _)]

/-- Added to a zero, a number is the sum. -/
theorem isRounded_zero_add (sign : Sign) (finite : y.isFinite = true) :
    IsRounded (encoded (UnpackedFloat.add .binary64 (.zero sign) (decoded y))) (value y) := by
  obtain ⟨sign', ⟨shape, zero⟩ | ⟨mantissa, exponent, canonical, shape, -⟩⟩ :=
    decoded_cases finite
  · rw [shape, zero, UnpackedFloat.add]
    split
    · exact isRounded_zero _
    · exact isRounded_zero _
  · have same : encoded (UnpackedFloat.add .binary64 (.zero sign) (decoded y)) = y := by
      have back := encoded_decoded finite
      rw [shape] at back ⊢
      exact back
    rw [same]
    exact isRounded_value finite

/-- The sum of finite doubles is the exact sum rounded, unless that overflows. -/
theorem isRounded_add (left : x.isFinite = true) (right : y.isFinite = true)
    (bounded : |rounded (value x + value y)| < 2 ^ (1024 : ℤ)) :
    IsRounded (x + y) (value x + value y) := by
  have sum : x + y = encoded (UnpackedFloat.add .binary64 (decoded x) (decoded y)) := rfl
  obtain ⟨sign, ⟨shape, zero⟩ | ⟨mantissa, exponent, canonical, shape, size⟩⟩ :=
    decoded_cases left
  · rw [sum, shape, zero, zero_add]
    exact isRounded_zero_add sign right
  obtain ⟨sign', ⟨shape', zero'⟩ | ⟨mantissa', exponent', canonical', shape', size'⟩⟩ :=
    decoded_cases right
  · have same : x + y = x := by
      have back := encoded_decoded left
      rw [shape] at back
      rw [sum, shape, shape']
      exact back
    rw [same, zero', add_zero]
    exact isRounded_value left
  · obtain ⟨whole, least, sum', same⟩ := @exists_add mantissa exponent sign sign' mantissa'
      exponent' canonical.positive canonical'.positive
    rw [size, size', ← same] at bounded ⊢
    rw [sum, shape, shape', sum']
    exact isRounded_normalize _ _ .positive bounded

/-- A difference is a sum with the opposite. -/
theorem sub_eq_add (unpacked unpacked' : UnpackedFloat) :
    UnpackedFloat.sub .binary64 unpacked unpacked' =
      UnpackedFloat.add .binary64 unpacked unpacked'.neg := by
  cases unpacked <;> cases unpacked' <;> try rfl
  case finite.finite sign mantissa exponent _ sign' mantissa' exponent' _ =>
    have opposite (whole : ℕ) : (-sign').apply whole = -sign'.apply whole := by
      cases sign' with
      | negative => exact (neg_neg _).symm
      | positive => rfl
    simp only [UnpackedFloat.sub, UnpackedFloat.add, UnpackedFloat.neg, opposite,
      Int.sub_eq_add_neg]

/-- Subtracting is adding the negative, also where that is an infinity or no number. -/
theorem sub_eq_add_opposite (x y : Float) : x - y = x + -y := by
  show encoded (UnpackedFloat.sub .binary64 (decoded x) (decoded y)) =
    encoded (UnpackedFloat.add .binary64 (decoded x) (decoded (-y)))
  rw [decoded_neg, sub_eq_add]

/-- The difference of finite doubles is the exact difference rounded, unless that overflows. -/
theorem isRounded_sub (left : x.isFinite = true) (right : y.isFinite = true)
    (bounded : |rounded (value x - value y)| < 2 ^ (1024 : ℤ)) :
    IsRounded (x - y) (value x - value y) := by
  rw [sub_eq_add_neg, ← value_neg right] at bounded ⊢
  rw [sub_eq_add_opposite]
  exact isRounded_add left (isFinite_neg right) bounded

/-! ## How large results are -/

/-- A finite number whose size is at most a power of two. -/
structure IsWithin (x : Float) (exponent : ℤ) : Prop where
  finite : x.isFinite = true
  small : |value x| ≤ 2 ^ exponent

/-- A power of two on the grid bounds a rounded result as soon as it bounds the exact one. -/
theorem IsRounded.isWithin {exact : ℚ} (rounds : IsRounded x exact) (small : |exact| ≤ 2 ^ exponent)
    (least : -1074 ≤ exponent) : IsWithin x exponent :=
  ⟨rounds.finite, rounds.value_eq ▸ abs_rounded_le small least⟩

/-- The double 2 is exact. -/
theorem value_two : value 2 = 2 := by
  have shape : decoded 2 = .finite .positive (2 ^ 52) (-51) (by decide) := rfl
  rw [value, shape, exactValue_positive]
  norm_num

namespace IsWithin

/-- A bound may always be enlarged. -/
theorem mono {larger : ℤ} (within : IsWithin x exponent) (less : exponent ≤ larger) :
    IsWithin x larger :=
  ⟨within.finite, within.small.trans (zpow_le_zpow_right₀ one_le_two less)⟩

/-- The exact sum of two bounded numbers stays below twice the bound. -/
theorem sum_small (left : IsWithin x exponent) (right : IsWithin y exponent) :
    |value x + value y| ≤ 2 ^ (exponent + 1) := by
  rw [zpow_add_one₀ two_ne_zero, mul_two]
  exact (abs_add_le _ _).trans (add_le_add left.small right.small)

/-- A sum of bounded numbers never overflows, so it is the exact sum rounded. -/
theorem isRounded_add (left : IsWithin x exponent) (right : IsWithin y exponent)
    (greatest : exponent ≤ 1022) : IsRounded (x + y) (value x + value y) := by
  refine Number.isRounded_add left.finite right.finite (abs_rounded_lt ?_)
  exact (left.sum_small right).trans (zpow_le_zpow_right₀ one_le_two (by omega))

/-- The computed sum of two bounded numbers stays below twice the bound. -/
theorem add (left : IsWithin x exponent) (right : IsWithin y exponent) (least : -1075 ≤ exponent)
    (greatest : exponent ≤ 1022) : IsWithin (x + y) (exponent + 1) :=
  (left.isRounded_add right greatest).isWithin (left.sum_small right) (by omega)

/-- The exact difference of two bounded numbers stays below twice the bound. -/
theorem difference_small (left : IsWithin x exponent) (right : IsWithin y exponent) :
    |value x - value y| ≤ 2 ^ (exponent + 1) := by
  rw [zpow_add_one₀ two_ne_zero, mul_two]
  exact (abs_sub _ _).trans (add_le_add left.small right.small)

/-- A difference of bounded numbers never overflows, so it is the exact difference rounded. -/
theorem isRounded_sub (left : IsWithin x exponent) (right : IsWithin y exponent)
    (greatest : exponent ≤ 1022) : IsRounded (x - y) (value x - value y) := by
  refine Number.isRounded_sub left.finite right.finite (abs_rounded_lt ?_)
  exact (left.difference_small right).trans (zpow_le_zpow_right₀ one_le_two (by omega))

/-- The computed difference of two bounded numbers stays below twice the bound. -/
theorem sub (left : IsWithin x exponent) (right : IsWithin y exponent) (least : -1075 ≤ exponent)
    (greatest : exponent ≤ 1022) : IsWithin (x - y) (exponent + 1) :=
  (left.isRounded_sub right greatest).isWithin (left.difference_small right) (by omega)

/-- Halving a number halves its bound, short of the subnormal range. -/
theorem half (within : IsWithin x exponent) (least : -1073 ≤ exponent)
    (greatest : exponent ≤ 1024) : IsWithin (x / 2) (exponent - 1) := by
  have small : |value x / value 2| ≤ 2 ^ (exponent - 1) := by
    rw [value_two, abs_div, abs_two, zpow_sub_one₀ two_ne_zero, ← div_eq_mul_inv]
    exact div_le_div_of_nonneg_right within.small zero_le_two
  refine (isRounded_div within.finite rfl (by rw [value_two]; exact two_ne_zero)
    (abs_rounded_lt ?_)).isWithin small (by omega)
  exact small.trans (zpow_le_zpow_right₀ one_le_two (by omega))

/-- In each of its cases, the number halfway between two numbers is computed without overflow. -/
theorem midpoint (left : IsWithin x 1022) (right : IsWithin y 1022) :
    IsWithin (midpoint x y) 1023 := by
  have halfLeft := left.half (by norm_num) (by norm_num)
  have halfRight := right.half (by norm_num) (by norm_num)
  unfold Number.midpoint
  split_ifs
  · exact ((left.add right (by norm_num) (by norm_num)).half (by norm_num) (by norm_num)).mono
      (by norm_num)
  · exact left.add (halfRight.mono (by norm_num)) (by norm_num) (by norm_num)
  · exact (halfLeft.mono (by norm_num)).add right (by norm_num) (by norm_num)
  · exact (halfLeft.add halfRight (by norm_num) (by norm_num)).mono (by norm_num)

end IsWithin

/-! ## How close numbers are -/

/-- A positive finite double is a canonical mantissa scaled by its exponent. -/
theorem exists_size (finite : x.isFinite = true) (positive : 0 < value x) :
    ∃ mantissa exponent, Canonical mantissa exponent ∧ value x = mantissa * 2 ^ exponent := by
  obtain ⟨sign, ⟨-, zero⟩ | ⟨mantissa, exponent, canonical, -, size⟩⟩ := decoded_cases finite
  · exact absurd zero positive.ne'
  · have above := canonical.size_pos
    cases sign with
    | negative =>
        rw [size] at positive
        simp only [Sign.apply, Int.cast_neg, Int.cast_one, neg_one_mul] at positive
        linarith
    | positive => exact ⟨mantissa, exponent, canonical, by simpa [Sign.apply] using size⟩

/-- The distance between two numbers is not small in relation to the larger of them. -/
theorem value_le_mul_sub (left : x.isFinite = true) (right : y.isFinite = true)
    (nonnegative : 0 ≤ value x) (less : value x < value y) :
    value y ≤ 2 ^ 54 * (value y - value x) := by
  rcases nonnegative.eq_or_lt with zero | positive
  · rw [← zero] at less ⊢
    linarith
  · obtain ⟨mantissa, exponent, canonical, size⟩ := exists_size left positive
    obtain ⟨mantissa', exponent', canonical', size'⟩ := exists_size right (positive.trans less)
    rw [size, size'] at less ⊢
    exact canonical.size_le_mul_sub canonical' less

/-- The distance between two numbers is not small in relation to their sizes. -/
theorem abs_value_le_mul_sub (left : x.isFinite = true) (right : y.isFinite = true)
    (less : value x < value y) :
    max |value x| |value y| ≤ 2 ^ 54 * (value y - value x) := by
  rcases le_or_gt 0 (value x) with nonnegative | negative
  · have larger := value_le_mul_sub left right nonnegative less
    rw [abs_of_nonneg nonnegative, abs_of_pos (nonnegative.trans_lt less), max_eq_right less.le]
    exact larger
  rcases le_or_gt (value y) 0 with nonpositive | positive
  · have larger := value_le_mul_sub (isFinite_neg right) (isFinite_neg left)
      (by rw [value_neg right]; linarith) (by rw [value_neg left, value_neg right]; linarith)
    rw [value_neg left, value_neg right] at larger
    rw [abs_of_neg negative, abs_of_nonpos nonpositive, max_eq_left (by linarith)]
    linarith
  · rw [abs_of_neg negative, abs_of_pos positive, max_le_iff]
    constructor <;> linarith

end PlotLisp.Number
