import PlotLisp.Number.Text
import PlotLisp.Proofs.Number.Ratio

/-!
# Significant digits

A number is rounded to the grid of its last significant digit. A carry out of the first digit
leaves a power of ten, and the next coarser grid has the same one next to the number. So a second
rounding, to the places that the rounded number asks for, changes nothing.
-/

namespace PlotLisp.Number

variable {count : ℕ} {q r : ℚ} {x : Float}

/-! ## Rounding of sizes -/

/-- The place of the last of a count of digits, where the first one is that of the size. -/
def lastPlace (count : ℕ) (r : ℚ) : ℤ :=
  Int.log 10 r - (count - 1)

/-- The digits of a size up to the last place, rounded. -/
def significand (count : ℕ) (r : ℚ) : ℕ :=
  roundEven (r / 10 ^ lastPlace count r)

/-- A number rounded to a count of significant digits, ties to the even digit. -/
def significant (count : ℕ) (q : ℚ) : ℚ :=
  if q < 0 then -(significand count (-q) * 10 ^ lastPlace count (-q))
  else significand count q * 10 ^ lastPlace count q

/-- Less than half a unit away there is no other whole number as near. -/
theorem roundEven_eq_of_abs_sub_lt {whole : ℕ} (nonnegative : 0 ≤ q)
    (near : |q - whole| < 1 / 2) : roundEven q = whole := by
  have error := abs_le.mp (abs_roundEven_sub_le nonnegative)
  have distance := abs_lt.mp near
  have less : (roundEven q : ℚ) < whole + 1 := by linarith
  have more : (whole : ℚ) < roundEven q + 1 := by linarith
  norm_cast at less more
  omega

/-- A carry reaches the same number from the next coarser grid. -/
theorem roundEven_div_ten {whole : ℕ} (nonnegative : 0 ≤ q)
    (carried : roundEven q = 10 * whole) : roundEven (q / 10) = whole := by
  have error := abs_le.mp (abs_roundEven_sub_le nonnegative)
  rw [carried] at error
  push_cast at error
  refine roundEven_eq_of_abs_sub_lt (by positivity) (abs_lt.mpr ⟨?_, ?_⟩) <;> linarith

/-- Up to the last place there are as many digits as were asked for. -/
theorem scaled_bounds (positive : 0 < r) (some : 0 < count) :
    ((10 ^ (count - 1) : ℕ) : ℚ) ≤ r / 10 ^ lastPlace count r ∧
      r / 10 ^ lastPlace count r < (10 ^ count : ℕ) := by
  obtain ⟨least, less⟩ := log_ten_bounds positive
  have first : Int.log 10 r = (count - 1 : ℕ) + lastPlace count r := by
    unfold lastPlace
    omega
  have next : Int.log 10 r + 1 = count + lastPlace count r := by
    unfold lastPlace
    omega
  rw [first, zpow_add₀ (by norm_num), zpow_natCast] at least
  rw [next, zpow_add₀ (by norm_num), zpow_natCast] at less
  rw [le_div_iff₀ (by positivity), div_lt_iff₀ (by positivity)]
  exact ⟨by exact_mod_cast least, by exact_mod_cast less⟩

/-- Rounding keeps the count of digits, or it carries. -/
theorem significand_bounds (positive : 0 < r) (some : 0 < count) :
    10 ^ (count - 1) ≤ significand count r ∧ significand count r ≤ 10 ^ count := by
  obtain ⟨least, less⟩ := scaled_bounds positive some
  exact ⟨(roundEven_natCast _).ge.trans (roundEven_mono least),
    (roundEven_mono less.le).trans_eq (roundEven_natCast _)⟩

/-! ## Decimals -/

/-- The size that a decimal stands for. -/
def Decimal.size (decimal : Decimal) : ℚ :=
  decimal.digits * 10 ^ decimal.exponent

/-- The rational number that a decimal stands for. -/
def Decimal.value (decimal : Decimal) : ℚ :=
  if decimal.negative then -decimal.size else decimal.size

/-- The count of a decimal's digits determines the place of the first one. -/
theorem Decimal.log_size {decimal : Decimal} (some : 0 < count)
    (least : 10 ^ (count - 1) ≤ decimal.digits) (less : decimal.digits < 10 ^ count) :
    Int.log 10 decimal.size = decimal.exponent + (count - 1) := by
  have above : (10 : ℚ) ^ (count - 1) ≤ decimal.digits := by exact_mod_cast least
  have below : (decimal.digits : ℚ) < 10 ^ count := by exact_mod_cast less
  have nonzero : (0 : ℚ) < decimal.digits := lt_of_lt_of_le (by positivity) above
  have first : decimal.exponent + (count - 1) = (count - 1 : ℕ) + decimal.exponent := by omega
  have next : (count - 1 : ℕ) + decimal.exponent + 1 = count + decimal.exponent := by omega
  rw [first]
  refine log_ten_eq (by unfold Decimal.size; positivity) ?_ ?_
  · rw [zpow_add₀ (by norm_num), zpow_natCast, Decimal.size]
    gcongr
  · rw [next, zpow_add₀ (by norm_num), zpow_natCast, Decimal.size]
    gcongr

/-! ## Rounding of numbers -/

/-- A finite number other than zero has an exact size, and its sign bit is the sign of its
value. -/
theorem exactSize_spec (finite : x.isFinite = true) (nonzero : value x ≠ 0) :
    (exactSize x).IsPositive ∧ (exactSize x).value = |value x| ∧
      (isNegative x = true ↔ value x < 0) := by
  obtain ⟨-, zero | ⟨mantissa, exponent, canonical, shape⟩⟩ := decoded_of_isFinite finite
  · exact absurd (congrArg exactValue zero) nonzero
  · have size : exactSize x = .ofBinary mantissa exponent := by rw [exactSize, shape]; rfl
    have signed : value x = exactValue _ := congrArg exactValue shape
    have positive := canonical.size_pos
    rw [size]
    refine ⟨Ratio.isPositive_ofBinary canonical.positive exponent, ?_⟩
    rw [Ratio.value_ofBinary, signed]
    cases isNegative x with
    | true => simp [signOf, abs_of_pos positive, positive]
    | false => simp [signOf, abs_of_pos positive, positive.le]

/-- A nonzero finite double is its size under the sign that its bit gives. -/
theorem value_eq (finite : x.isFinite = true) (nonzero : value x ≠ 0) :
    value x = if isNegative x then -|value x| else |value x| := by
  obtain ⟨-, -, sign⟩ := exactSize_spec finite nonzero
  split
  case isTrue negative => rw [abs_of_neg (sign.mp negative), neg_neg]
  case isFalse positive => rw [abs_of_nonneg (not_lt.mp (mt sign.mpr positive))]

/-- The rounded number has exactly the count of digits, and they are nearest on its own grid. -/
theorem roundedTo_spec (finite : x.isFinite = true) (nonzero : value x ≠ 0) (some : 0 < count) :
    (roundedTo count x).negative = isNegative x ∧
      10 ^ (count - 1) ≤ (roundedTo count x).digits ∧ (roundedTo count x).digits < 10 ^ count ∧
      (roundedTo count x).digits = roundEven (|value x| / 10 ^ (roundedTo count x).exponent) ∧
      (roundedTo count x).size =
        significand count |value x| * 10 ^ lastPlace count |value x| := by
  obtain ⟨positive, size, -⟩ := exactSize_spec finite nonzero
  have digits : ((exactSize x).scaled (-lastPlace count |value x|)).rounded =
      significand count |value x| := by
    rw [Ratio.rounded_eq (positive.scaled _), Ratio.value_scaled, size, zpow_neg, significand,
      div_eq_mul_inv]
  obtain ⟨least, most⟩ := significand_bounds (abs_pos.mpr nonzero) some
  have place : (exactSize x).decimalExponent - (count - 1 : ℤ) = lastPlace count |value x| := by
    rw [Ratio.decimalExponent_eq positive, size, lastPlace]
  unfold roundedTo
  dsimp only
  rw [place, digits]
  split
  case isTrue carried =>
    -- The digits are a power of ten now, which the coarser grid has, too.
    have power : significand count |value x| = 10 * 10 ^ (count - 1) := by
      rw [carried, ← pow_succ', Nat.sub_add_cancel some]
      rfl
    refine ⟨rfl, le_rfl, Nat.pow_lt_pow_right (by norm_num) (by omega), ?_, ?_⟩
    · have coarser := roundEven_div_ten (by positivity) power
      rw [div_div, ← zpow_add_one₀ (by norm_num)] at coarser
      exact coarser.symm
    · rw [Decimal.size, power, zpow_add_one₀ (by norm_num)]
      simp only [powerOfTen, Nat.pow_eq]
      push_cast
      ring
  case isFalse kept => exact ⟨rfl, least, lt_of_le_of_ne most kept, rfl, rfl⟩

/-- Rounding to significant digits computes the rounding of the exact rational value. -/
theorem value_roundedTo (finite : x.isFinite = true) (nonzero : value x ≠ 0) (some : 0 < count) :
    (roundedTo count x).value = significant count (value x) := by
  obtain ⟨sign, -, -, -, size⟩ := roundedTo_spec finite nonzero some
  obtain ⟨-, -, negative⟩ := exactSize_spec finite nonzero
  rw [Decimal.value, size, sign, significant]
  by_cases below : value x < 0
  · rw [if_pos (negative.mpr below), if_pos below, abs_of_neg below]
  · rw [if_neg (mt negative.mp below), if_neg below, abs_of_nonneg (not_lt.mp below)]

/-- The size of the rounded value is the size of the decimal that is computed. -/
theorem abs_significant (finite : x.isFinite = true) (nonzero : value x ≠ 0) (some : 0 < count) :
    |significant count (value x)| = (roundedTo count x).size := by
  have nonnegative : 0 ≤ (roundedTo count x).size := by
    unfold Decimal.size
    positivity
  rw [← value_roundedTo finite nonzero some, Decimal.value]
  split <;> simp [abs_of_nonneg nonnegative]

/-- The place of the first digit, a carry taken into account. -/
theorem log_significant (finite : x.isFinite = true) (nonzero : value x ≠ 0) (some : 0 < count) :
    Int.log 10 |significant count (value x)| = (roundedTo count x).exponent + (count - 1) := by
  obtain ⟨-, least, less, -, -⟩ := roundedTo_spec finite nonzero some
  rw [abs_significant finite nonzero some, Decimal.log_size some least less]

/-- The number rounded to the places that the rounded number asks for is the rounded number. -/
theorem roundedAt_eq_roundedTo (finite : x.isFinite = true) (nonzero : value x ≠ 0)
    (some : 0 < count) {places : ℕ} (asked : (roundedTo count x).exponent = -places) :
    roundedAt places x = roundedTo count x := by
  obtain ⟨sign, -, -, nearest, -⟩ := roundedTo_spec finite nonzero some
  obtain ⟨positive, size, -⟩ := exactSize_spec finite nonzero
  have digits : ((exactSize x).scaled places).rounded = (roundedTo count x).digits := by
    rw [nearest, Ratio.rounded_eq (positive.scaled _), Ratio.value_scaled, size, asked, zpow_neg,
      div_inv_eq_mul]
  rw [roundedAt, digits, ← sign, ← asked]

end PlotLisp.Number
