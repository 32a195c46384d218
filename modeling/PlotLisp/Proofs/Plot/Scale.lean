import PlotLisp.Plot.Frame
import PlotLisp.Proofs.Number.Operations

/-!
# The scale of an axis

The scale of an axis is the side of the frame divided by the span of the data, or the side itself
where the data have no span. Span and scale are rounded, and so is what is drawn with them. Where
neither the data nor their span are extreme, nothing overflows, the order of the data is kept, and
the ends of the range are drawn apart.
-/

namespace PlotLisp.Frame

open Number (value IsRounded IsWithin)

variable {lower upper x y : Float}

/-- The side of a frame is exact. -/
theorem value_side : value side = 20 := by
  have shape : Number.decoded side = .finite .positive (5 * 2 ^ 50) (-48) (by decide) := rfl
  rw [value, shape, Number.exactValue_positive]
  norm_num

/-- The ends of a range whose scale can be computed: they are not too large, and they are the same
or not too close. -/
structure IsScalable (lower upper : Float) : Prop where
  lowerWithin : IsWithin lower 1017
  upperWithin : IsWithin upper 1017
  apart : value lower = value upper ∨ 2 ^ (-1017 : ℤ) ≤ value upper - value lower

namespace IsScalable

/-- The span is computed without overflow. -/
theorem span (scalable : IsScalable lower upper) :
    IsRounded (upper - lower) (value upper - value lower) :=
  scalable.upperWithin.isRounded_sub scalable.lowerWithin (by norm_num)

/-- Without a span, the scale is the side of the frame. -/
theorem scale_of_eq (scalable : IsScalable lower upper) (same : value lower = value upper) :
    scale (upper - lower) = side := by
  refine if_neg ?_
  rw [Number.lt_iff_value rfl scalable.span.finite, scalable.span.value_eq, same, sub_self]
  simp [Number.rounded]

/-- The span is rounded by a small part of itself. -/
theorem span_near (scalable : IsScalable lower upper)
    (apart : 2 ^ (-1017 : ℤ) ≤ value upper - value lower) :
    |value (upper - lower) - (value upper - value lower)| ≤
      2 ^ (-53 : ℤ) * |value upper - value lower| := by
  have positive : 0 < value upper - value lower := lt_of_lt_of_le (by positivity) apart
  rw [scalable.span.value_eq]
  refine Number.abs_rounded_sub_le_mul ?_
  rw [abs_of_pos positive]
  exact (zpow_le_zpow_right₀ one_le_two (by norm_num)).trans apart

/-- The span is neither too small nor too large to divide by. -/
theorem span_bounds (scalable : IsScalable lower upper)
    (apart : 2 ^ (-1017 : ℤ) ≤ value upper - value lower) :
    2 ^ (-1018 : ℤ) ≤ value (upper - lower) ∧ value (upper - lower) ≤ 2 ^ (1018 : ℤ) := by
  constructor
  · have positive : 0 < value upper - value lower := lt_of_lt_of_le (by positivity) apart
    have near := scalable.span_near apart
    rw [abs_of_pos positive] at near
    have half : 2 ^ (-53 : ℤ) * (value upper - value lower) ≤
        1 / 2 * (value upper - value lower) := by
      gcongr
      norm_num
    have below := (abs_le.mp (near.trans half)).1
    calc (2 ^ (-1018 : ℤ) : ℚ)
        = 1 / 2 * 2 ^ (-1017 : ℤ) := by
          rw [show (-1018 : ℤ) = -1017 - 1 from rfl, zpow_sub_one₀ two_ne_zero]
          ring
      _ ≤ 1 / 2 * (value upper - value lower) := by gcongr
      _ ≤ value (upper - lower) := by linarith
  · have within := scalable.upperWithin.sub scalable.lowerWithin (by norm_num) (by norm_num)
    exact (le_abs_self _).trans within.small

/-- A quotient by a number of this size is normal, and it does not overflow. -/
theorem quotient_bounds {divisor : ℚ} (least : 2 ^ (-1018 : ℤ) ≤ divisor)
    (greatest : divisor ≤ 2 ^ (1018 : ℤ)) :
    2 ^ (-1022 : ℤ) ≤ 20 / divisor ∧ 20 / divisor ≤ 2 ^ (1023 : ℤ) := by
  have positive : 0 < divisor := lt_of_lt_of_le (by positivity) least
  constructor
  · rw [le_div_iff₀ positive]
    calc 2 ^ (-1022 : ℤ) * divisor
        ≤ 2 ^ (-1022 : ℤ) * 2 ^ (1018 : ℤ) := by gcongr
      _ = 2 ^ (-4 : ℤ) := by rw [← zpow_add₀ two_ne_zero]; rfl
      _ ≤ 20 := by norm_num
  · rw [div_le_iff₀ positive]
    calc (20 : ℚ)
        ≤ 2 ^ (5 : ℤ) := by norm_num
      _ = 2 ^ (1023 : ℤ) * 2 ^ (-1018 : ℤ) := by rw [← zpow_add₀ two_ne_zero]; rfl
      _ ≤ 2 ^ (1023 : ℤ) * divisor := by gcongr

/-- Two small relative errors, of a span and of a quotient by it, stay small together. -/
theorem product_bounds {span computed quotient scale : ℚ} (positive : 0 < span)
    (near : |computed - span| ≤ 2 ^ (-53 : ℤ) * |span|) (divided : quotient * computed = 20)
    (near' : |scale - quotient| ≤ 2 ^ (-53 : ℤ) * |quotient|) :
    0 < scale ∧ 19 ≤ span * scale ∧ span * scale ≤ 21 := by
  have tiny : (2 : ℚ) ^ (-53 : ℤ) ≤ 1 / 1000 := by norm_num
  obtain ⟨below, above⟩ := abs_le.mp
    (near.trans (mul_le_mul_of_nonneg_right tiny (abs_nonneg _)))
  obtain ⟨below', above'⟩ := abs_le.mp
    (near'.trans (mul_le_mul_of_nonneg_right tiny (abs_nonneg _)))
  rw [abs_of_pos positive] at below above
  have computedPositive : 0 < computed := by linarith
  have quotientPositive : 0 < quotient := pos_of_mul_pos_left (by linarith) computedPositive.le
  rw [abs_of_pos quotientPositive] at below' above'
  have least : quotient * computed ≤ quotient * (span * (1001 / 1000)) :=
    mul_le_mul_of_nonneg_left (by linarith) quotientPositive.le
  have greatest : quotient * (span * (999 / 1000)) ≤ quotient * computed :=
    mul_le_mul_of_nonneg_left (by linarith) quotientPositive.le
  have least' : span * (quotient * (999 / 1000)) ≤ span * scale :=
    mul_le_mul_of_nonneg_left (by linarith) positive.le
  have greatest' : span * scale ≤ span * (quotient * (1001 / 1000)) :=
    mul_le_mul_of_nonneg_left (by linarith) positive.le
  refine ⟨by linarith, by linarith, by linarith⟩

/-- The scale is finite and positive, and its product with the span is close to the side. -/
theorem scale_of_apart (scalable : IsScalable lower upper)
    (apart : 2 ^ (-1017 : ℤ) ≤ value upper - value lower) :
    (scale (upper - lower)).isFinite = true ∧ 0 < value (scale (upper - lower)) ∧
      19 ≤ (value upper - value lower) * value (scale (upper - lower)) ∧
      (value upper - value lower) * value (scale (upper - lower)) ≤ 21 := by
  have span := scalable.span
  obtain ⟨least, greatest⟩ := scalable.span_bounds apart
  have computed : 0 < value (upper - lower) := lt_of_lt_of_le (by positivity) least
  have defined : scale (upper - lower) = side / (upper - lower) :=
    if_pos ((Number.lt_iff_value rfl span.finite).mpr (by rwa [Number.value_zero]))
  obtain ⟨normal, small⟩ := quotient_bounds least greatest
  have size := abs_of_pos (lt_of_lt_of_le (by positivity) normal)
  rw [← value_side] at normal small size
  have divided := Number.isRounded_div (x := side) rfl span.finite computed.ne'
    (Number.abs_rounded_lt (size.trans_le small))
  have multiplied : value side / value (upper - lower) * value (upper - lower) = 20 :=
    (div_mul_cancel₀ _ computed.ne').trans value_side
  have positive : 0 < value upper - value lower := lt_of_lt_of_le (by positivity) apart
  rw [defined]
  refine ⟨divided.finite, product_bounds positive (scalable.span_near apart) multiplied ?_⟩
  rw [divided.value_eq]
  exact Number.abs_rounded_sub_le_mul (normal.trans_eq size.symm)

end IsScalable

/-! ## What is drawn on an axis -/

/-- Whether a number is no larger in size than an end of a range. -/
structure IsReached (lower upper x : Float) : Prop where
  finite : x.isFinite = true
  small : |value x| ≤ max |value lower| |value upper|

/-- A number between the ends of a range is no larger in size than one of them. -/
theorem IsReached.of_between (scalable : IsScalable lower upper) (finite : x.isFinite = true)
    (least : lower ≤ x) (greatest : x ≤ upper) : IsReached lower upper x := by
  rw [Number.le_iff_value scalable.lowerWithin.finite finite] at least
  rw [Number.le_iff_value finite scalable.upperWithin.finite] at greatest
  exact ⟨finite, abs_le_max_abs_abs least greatest⟩

/-- The opposite of a number in reach is in reach. -/
theorem IsReached.neg (reached : IsReached lower upper x) : IsReached lower upper (-x) :=
  ⟨Number.isFinite_neg reached.finite, by
    rw [Number.value_neg reached.finite, abs_neg]
    exact reached.small⟩

namespace IsScalable

/-- The lower end of a range is in reach. -/
theorem isReached_lower (scalable : IsScalable lower upper) : IsReached lower upper lower :=
  ⟨scalable.lowerWithin.finite, le_max_left _ _⟩

/-- The upper end of a range is in reach. -/
theorem isReached_upper (scalable : IsScalable lower upper) : IsReached lower upper upper :=
  ⟨scalable.upperWithin.finite, le_max_right _ _⟩

/-- The scale of an axis is finite and not negative, also where the data have no span. -/
theorem scale_finite (scalable : IsScalable lower upper) :
    (scale (upper - lower)).isFinite = true ∧ 0 ≤ value (scale (upper - lower)) := by
  rcases scalable.apart with same | apart
  · rw [scalable.scale_of_eq same, value_side]
    exact ⟨rfl, by norm_num⟩
  · obtain ⟨finite, positive, -, -⟩ := scalable.scale_of_apart apart
    exact ⟨finite, positive.le⟩

/-- No number of the range is drawn too far away, since no two numbers are too close. -/
theorem product_small (scalable : IsScalable lower upper) (reached : IsReached lower upper x) :
    |value x * value (scale (upper - lower))| ≤ 2 ^ (1022 : ℤ) := by
  rw [abs_mul, abs_of_nonneg scalable.scale_finite.2]
  rcases scalable.apart with same | apart
  · rw [scalable.scale_of_eq same, value_side]
    have small : |value x| ≤ 2 ^ (1017 : ℤ) :=
      reached.small.trans (max_le scalable.lowerWithin.small scalable.upperWithin.small)
    calc |value x| * 20
        ≤ 2 ^ (1017 : ℤ) * 2 ^ (5 : ℤ) := by
          gcongr
          norm_num
      _ = 2 ^ (1022 : ℤ) := by rw [← zpow_add₀ two_ne_zero]; rfl
  · obtain ⟨-, positive, -, bounded⟩ := scalable.scale_of_apart apart
    have less : value lower < value upper := by
      have above : (0 : ℚ) < 2 ^ (-1017 : ℤ) := by positivity
      linarith
    have close := Number.abs_value_le_mul_sub scalable.lowerWithin.finite
      scalable.upperWithin.finite less
    calc |value x| * value (scale (upper - lower))
        ≤ 2 ^ 54 * (value upper - value lower) * value (scale (upper - lower)) :=
          mul_le_mul_of_nonneg_right (reached.small.trans close) positive.le
      _ = 2 ^ 54 * ((value upper - value lower) * value (scale (upper - lower))) := mul_assoc _ _ _
      _ ≤ 2 ^ 54 * 21 := by gcongr
      _ ≤ 2 ^ (59 : ℤ) := by norm_num
      _ ≤ 2 ^ (1022 : ℤ) := zpow_le_zpow_right₀ one_le_two (by norm_num)

/-- What is drawn of a number in reach is the exact product with the scale, rounded. -/
theorem isRounded_mul (scalable : IsScalable lower upper) (reached : IsReached lower upper x) :
    IsRounded (x * scale (upper - lower)) (value x * value (scale (upper - lower))) := by
  refine Number.isRounded_mul reached.finite scalable.scale_finite.1 (Number.abs_rounded_lt ?_)
  exact (scalable.product_small reached).trans (zpow_le_zpow_right₀ one_le_two (by norm_num))

/-- What is drawn of a number in reach is far from overflowing. -/
theorem isWithin_mul (scalable : IsScalable lower upper) (reached : IsReached lower upper x) :
    IsWithin (x * scale (upper - lower)) 1022 :=
  (scalable.isRounded_mul reached).isWithin (scalable.product_small reached) (by norm_num)

/-- Numbers are drawn in their order. -/
theorem mul_le_mul (scalable : IsScalable lower upper) (first : IsReached lower upper x)
    (second : IsReached lower upper y) (ordered : x ≤ y) :
    x * scale (upper - lower) ≤ y * scale (upper - lower) := by
  have drawn := scalable.isRounded_mul first
  have drawn' := scalable.isRounded_mul second
  rw [Number.le_iff_value first.finite second.finite] at ordered
  rw [Number.le_iff_value drawn.finite drawn'.finite, drawn.value_eq, drawn'.value_eq]
  exact Number.rounded_mono (mul_le_mul_of_nonneg_right ordered scalable.scale_finite.2)

/-- The ends of a range are drawn apart, unless they are almost neighbours: their products with the
scale differ by nineteen, and each is rounded by eight at most. -/
theorem mul_lt_mul (scalable : IsScalable lower upper) (less : value lower < value upper)
    (wide : max |value lower| |value upper| ≤ 2 ^ 52 * (value upper - value lower)) :
    value (lower * scale (upper - lower)) < value (upper * scale (upper - lower)) := by
  obtain ⟨-, positive, least, greatest⟩ := scalable.scale_of_apart
    (scalable.apart.resolve_left less.ne)
  have error {x : Float} (reached : IsReached lower upper x) :
      |value (x * scale (upper - lower)) - value x * value (scale (upper - lower))| ≤ 8 := by
    rw [(scalable.isRounded_mul reached).value_eq]
    have few : |value x * value (scale (upper - lower))| < 2 ^ ((4 : ℤ) + 53) := by
      rw [abs_mul, abs_of_pos positive]
      calc |value x| * value (scale (upper - lower))
          ≤ 2 ^ 52 * (value upper - value lower) * value (scale (upper - lower)) :=
            mul_le_mul_of_nonneg_right (reached.small.trans wide) positive.le
        _ = 2 ^ 52 * ((value upper - value lower) * value (scale (upper - lower))) :=
            mul_assoc _ _ _
        _ ≤ 2 ^ 52 * 21 := by gcongr
        _ < 2 ^ ((4 : ℤ) + 53) := by norm_num
    refine (Number.abs_rounded_sub_le_of_lt few (by norm_num)).trans ?_
    norm_num
  have below := (abs_le.mp (error scalable.isReached_upper)).1
  have above := (abs_le.mp (error scalable.isReached_lower)).2
  linarith

/-! The ordinates of the scene grow downward: the opposites of the numbers are drawn. -/

/-- Larger numbers are drawn higher up. -/
theorem neg_mul_le_neg_mul (scalable : IsScalable lower upper) (first : IsReached lower upper x)
    (second : IsReached lower upper y) (ordered : x ≤ y) :
    -y * scale (upper - lower) ≤ -x * scale (upper - lower) :=
  scalable.mul_le_mul second.neg first.neg (Number.neg_le_neg first.finite second.finite ordered)

/-- Opposites are drawn at opposite places, without any further rounding. -/
theorem value_neg_mul (scalable : IsScalable lower upper) (reached : IsReached lower upper x) :
    value (-x * scale (upper - lower)) = -value (x * scale (upper - lower)) := by
  rw [(scalable.isRounded_mul reached.neg).value_eq, (scalable.isRounded_mul reached).value_eq,
    Number.value_neg reached.finite, neg_mul, Number.rounded_neg]

end IsScalable

end PlotLisp.Frame
