import PlotLisp.Proofs.Number.Order

/-!
# Rounding of rational numbers

A result is rounded to the nearest multiple of a power of two, to the even one of two that are as
near. The power is chosen so that 53 bits remain, but it is never smaller than the least positive
number. Rounding keeps the order, and it keeps what is a multiple already.
-/

namespace PlotLisp.Number

variable {q r s : ℚ} {whole : ℕ} {exponent : ℤ}

/-! ## Whole numbers -/

/-- The whole number nearest to a number that is not negative, and the even one of two. -/
def roundEven (q : ℚ) : ℕ :=
  if q - ⌊q⌋₊ < 1 / 2 then ⌊q⌋₊
  else if 1 / 2 < q - ⌊q⌋₊ then ⌊q⌋₊ + 1
  else ⌊q⌋₊ + ⌊q⌋₊ % 2

/-- Rounding moves to one of the two neighbouring whole numbers. -/
theorem roundEven_bounds (q : ℚ) : ⌊q⌋₊ ≤ roundEven q ∧ roundEven q ≤ ⌊q⌋₊ + 1 := by
  unfold roundEven
  split_ifs <;> omega

/-- A whole number is its own rounding. -/
@[simp] theorem roundEven_natCast (whole : ℕ) : roundEven whole = whole := by
  simp [roundEven]

/-- Rounding to the nearest whole number keeps the order. -/
theorem roundEven_mono (ordered : q ≤ r) : roundEven q ≤ roundEven r := by
  rcases (Nat.floor_le_floor ordered).lt_or_eq with less | same
  · exact ((roundEven_bounds q).2.trans less).trans (roundEven_bounds r).1
  · -- Within one unit, the larger fraction is not rounded down when the smaller is not.
    have fractions : q - ⌊q⌋₊ ≤ r - ⌊q⌋₊ := sub_le_sub_right ordered _
    unfold roundEven
    rw [← same]
    split_ifs
    all_goals first | omega | linarith

/-- Rounding moves a rational by half a unit at the most. -/
theorem abs_roundEven_sub_le (nonnegative : 0 ≤ q) : |roundEven q - q| ≤ 1 / 2 := by
  have least := Nat.floor_le nonnegative
  have less := Nat.lt_floor_add_one q
  have parity : ((⌊q⌋₊ % 2 : ℕ) : ℚ) ≤ 1 := by
    exact_mod_cast Nat.le_of_lt_succ (Nat.mod_lt _ (by norm_num))
  have parity' : (0 : ℚ) ≤ (⌊q⌋₊ % 2 : ℕ) := Nat.cast_nonneg _
  unfold roundEven
  rw [abs_le]
  split_ifs <;> push_cast at parity parity' ⊢ <;> constructor <;> linarith

/-! ## Sizes -/

/-- The exponent of the power of two whose multiples the sizes next to this one are rounded to. -/
def gridExponent (r : ℚ) : ℤ :=
  max (Int.log 2 r - 52) (-1074)

/-- A size that is not negative, rounded. -/
def roundedSize (r : ℚ) : ℚ :=
  roundEven (r / 2 ^ gridExponent r) * 2 ^ gridExponent r

/-- A larger rational has a grid that is as coarse or coarser. -/
theorem gridExponent_mono (positive : 0 < r) (ordered : r ≤ s) :
    gridExponent r ≤ gridExponent s :=
  max_le_max_right _ (Int.sub_le_sub_right (Int.log_mono_right positive ordered) _)

/-- A size has at most 53 bits in front of the grid. -/
theorem lt_grid (r : ℚ) : r < 2 ^ (gridExponent r + 53) := by
  refine (Int.lt_zpow_succ_log_self (b := 2) (by norm_num) r).trans_le ?_
  rw [Nat.cast_ofNat]
  refine zpow_le_zpow_right₀ (by norm_num) ?_
  unfold gridExponent
  omega

/-- Above the finest grid, a size has 53 bits. -/
theorem grid_le (positive : 0 < r) (coarse : -1074 < gridExponent r) :
    2 ^ (gridExponent r + 52) ≤ r := by
  have exponent : gridExponent r + 52 = Int.log 2 r := by
    unfold gridExponent at coarse ⊢
    omega
  rw [exponent]
  simpa using Int.zpow_log_le_self (b := 2) (by norm_num) positive

/-- A rational of fewer than 53 bits before `exponent` has a grid at least that fine. -/
theorem gridExponent_le (positive : 0 < r) (below : r < 2 ^ (exponent + 53))
    (least : -1074 ≤ exponent) : gridExponent r ≤ exponent := by
  have log := (Int.lt_zpow_iff_log_lt (b := 2) (by norm_num) positive).mp (by simpa using below)
  unfold gridExponent
  omega

/-- A significand is rounded to one of at most 53 bits, or to the next power of two. -/
theorem roundEven_le_of_grid (r : ℚ) : roundEven (r / 2 ^ gridExponent r) ≤ 2 ^ 53 := by
  have below : r / 2 ^ gridExponent r ≤ (2 ^ 53 : ℕ) := by
    rw [div_le_iff₀ (by positivity)]
    refine (lt_grid r).le.trans_eq ?_
    rw [zpow_add₀ (by norm_num)]
    push_cast
    ring
  exact (roundEven_mono below).trans_eq (roundEven_natCast _)

/-- Above the subnormal range a rounded mantissa uses all of its 53 bits. -/
theorem le_roundEven_of_grid (positive : 0 < r) (coarse : -1074 < gridExponent r) :
    2 ^ 52 ≤ roundEven (r / 2 ^ gridExponent r) := by
  have above : ((2 ^ 52 : ℕ) : ℚ) ≤ r / 2 ^ gridExponent r := by
    rw [le_div_iff₀ (by positivity)]
    refine Eq.trans_le ?_ (grid_le positive coarse)
    rw [zpow_add₀ (by norm_num)]
    push_cast
    ring
  exact (roundEven_natCast _).ge.trans (roundEven_mono above)

/-- The rounding of a size is no negative number. -/
theorem roundedSize_nonneg (r : ℚ) : 0 ≤ roundedSize r := by
  unfold roundedSize
  positivity

/-- Zero is its own rounding. -/
@[simp] theorem roundedSize_zero : roundedSize 0 = 0 := by
  simp [roundedSize, show roundEven 0 = 0 from by simpa using roundEven_natCast 0]

/-- Rounding a size keeps the order, also across the boundary where the grid becomes coarser. -/
theorem roundedSize_mono (nonnegative : 0 ≤ r) (ordered : r ≤ s) :
    roundedSize r ≤ roundedSize s := by
  rcases nonnegative.eq_or_lt with rfl | positive
  · rw [roundedSize_zero]
    exact roundedSize_nonneg s
  rcases (gridExponent_mono positive ordered).eq_or_lt with same | finer
  · unfold roundedSize
    rw [same]
    gcongr
    exact roundEven_mono (by gcongr)
  · -- A power of two lies between the sizes, and it is on both grids.
    have coarse : -1074 < gridExponent s := lt_of_le_of_lt (le_max_right _ _) finer
    have upper := roundEven_le_of_grid r
    have lower := le_roundEven_of_grid (positive.trans_le ordered) coarse
    calc roundedSize r
        ≤ (2 ^ 53 : ℕ) * 2 ^ gridExponent r := by
          unfold roundedSize
          gcongr
      _ = (2 ^ 52 : ℕ) * 2 ^ (gridExponent r + 1) := by
          rw [zpow_add_one₀ (by norm_num)]
          push_cast
          ring
      _ ≤ (2 ^ 52 : ℕ) * 2 ^ gridExponent s := by
          gcongr
          · norm_num
          · omega
      _ ≤ roundedSize s := by
          unfold roundedSize
          gcongr

/-- What has at most 53 bits in front of the finest grid is not rounded. -/
theorem roundedSize_of_lt (few : whole < 2 ^ 53) (least : -1074 ≤ exponent) :
    roundedSize (whole * 2 ^ exponent) = whole * 2 ^ exponent := by
  rcases Nat.eq_zero_or_pos whole with rfl | positive
  · simp
  have size : (0 : ℚ) < whole * 2 ^ exponent := by positivity
  have finer : gridExponent (whole * 2 ^ exponent) ≤ exponent := by
    refine gridExponent_le size ?_ least
    rw [add_comm exponent, zpow_add₀ (by norm_num)]
    have bound : (whole : ℚ) < 2 ^ (53 : ℤ) := by exact_mod_cast few
    gcongr
  obtain ⟨places, gap⟩ := Int.eq_ofNat_of_zero_le (sub_nonneg.mpr finer)
  have multiple : (whole * 2 ^ exponent : ℚ) / 2 ^ gridExponent (whole * 2 ^ exponent) =
      (whole * 2 ^ places : ℕ) := by
    rw [mul_div_assoc, ← zpow_sub₀ (by norm_num), gap]
    push_cast
    rw [zpow_natCast]
  rw [roundedSize, multiple, roundEven_natCast, ← multiple, div_mul_cancel₀ _ (by positivity)]

/-- The error is at most half a step of the grid. -/
theorem abs_roundedSize_sub_le (nonnegative : 0 ≤ r) :
    |roundedSize r - r| ≤ 2 ^ (gridExponent r - 1) := by
  have step : (0 : ℚ) < 2 ^ gridExponent r := by positivity
  have steps := abs_roundEven_sub_le (div_nonneg nonnegative step.le)
  calc |roundedSize r - r|
      = |roundEven (r / 2 ^ gridExponent r) - r / 2 ^ gridExponent r| * 2 ^ gridExponent r := by
        rw [← abs_of_pos step, ← abs_mul, abs_of_pos step, sub_mul,
          div_mul_cancel₀ _ step.ne', roundedSize]
    _ ≤ 1 / 2 * 2 ^ gridExponent r := by gcongr
    _ = 2 ^ (gridExponent r - 1) := by
        rw [zpow_sub_one₀ (by norm_num)]
        ring

/-! ## Signed numbers -/

/-- A number rounded to 53 bits, the exponent being unbounded above. -/
def rounded (r : ℚ) : ℚ :=
  if r < 0 then -roundedSize (-r) else roundedSize r

/-- A non-negative rational is rounded as a size. -/
theorem rounded_of_nonneg (nonnegative : 0 ≤ r) : rounded r = roundedSize r :=
  if_neg nonnegative.not_gt

/-- Rounding commutes with negation. -/
theorem rounded_neg (r : ℚ) : rounded (-r) = -rounded r := by
  unfold rounded
  rcases lt_trichotomy r 0 with negative | rfl | positive
  · rw [if_neg (by linarith), if_pos negative, neg_neg]
  · simp
  · rw [if_pos (by linarith), if_neg positive.not_gt, neg_neg]

/-- The size of a rounding is the rounding of the size. -/
theorem abs_rounded (r : ℚ) : |rounded r| = roundedSize |r| := by
  rcases le_total 0 r with nonnegative | nonpositive
  · rw [rounded_of_nonneg nonnegative, abs_of_nonneg nonnegative,
      abs_of_nonneg (roundedSize_nonneg r)]
  · have opposite : r = -(-r) := (neg_neg r).symm
    rw [opposite, rounded_neg, abs_neg, abs_neg, abs_of_nonneg (neg_nonneg.mpr nonpositive),
      rounded_of_nonneg (neg_nonneg.mpr nonpositive), abs_of_nonneg (roundedSize_nonneg _)]

/-- Rounding to the doubles keeps the order of all rationals. -/
theorem rounded_mono : Monotone rounded := by
  intro r s ordered
  rcases le_or_gt 0 r with nonnegative | negative
  · rw [rounded_of_nonneg nonnegative, rounded_of_nonneg (nonnegative.trans ordered)]
    exact roundedSize_mono nonnegative ordered
  rcases le_or_gt 0 s with nonnegative | negative'
  · rw [rounded_of_nonneg nonnegative, rounded, if_pos negative]
    exact (neg_nonpos.mpr (roundedSize_nonneg _)).trans (roundedSize_nonneg s)
  · rw [rounded, rounded, if_pos negative, if_pos negative', neg_le_neg_iff]
    exact roundedSize_mono (by linarith) (by linarith)

/-- Rounding moves a rational by half a step of its own grid at the most. -/
theorem abs_rounded_sub_le (r : ℚ) : |rounded r - r| ≤ 2 ^ (gridExponent |r| - 1) := by
  rcases le_total 0 r with nonnegative | nonpositive
  · rw [rounded_of_nonneg nonnegative, abs_of_nonneg nonnegative]
    exact abs_roundedSize_sub_le nonnegative
  · have error := abs_roundedSize_sub_le (neg_nonneg.mpr nonpositive)
    rw [← rounded_of_nonneg (neg_nonneg.mpr nonpositive), rounded_neg, neg_sub_neg,
      abs_sub_comm] at error
    rwa [abs_of_nonpos nonpositive]

/-- Rounding does not leave a range whose ends are powers of two. -/
theorem abs_rounded_le (bounded : |r| ≤ 2 ^ exponent) (least : -1074 ≤ exponent) :
    |rounded r| ≤ 2 ^ exponent := by
  have power := @roundedSize_of_lt 1 exponent (by norm_num) least
  rw [Nat.cast_one, one_mul] at power
  rw [abs_rounded, ← power]
  exact roundedSize_mono (abs_nonneg r) bounded

/-- Results of this size are not too large. -/
theorem abs_rounded_lt (bounded : |r| ≤ 2 ^ (1023 : ℤ)) : |rounded r| < 2 ^ (1024 : ℤ) :=
  (abs_rounded_le bounded (by norm_num)).trans_lt (zpow_lt_zpow_right₀ (by norm_num) (by norm_num))

/-- The error of a number of at most 53 bits in front of a grid. -/
theorem abs_rounded_sub_le_of_lt (below : |r| < 2 ^ (exponent + 53)) (least : -1074 ≤ exponent) :
    |rounded r - r| ≤ 2 ^ (exponent - 1) := by
  rcases (abs_nonneg r).eq_or_lt with zero | positive
  · rw [abs_eq_zero.mp zero.symm]
    simp only [rounded, lt_irrefl, if_false, roundedSize_zero, sub_self, abs_zero]
    positivity
  · refine (abs_rounded_sub_le r).trans (zpow_le_zpow_right₀ (by norm_num) ?_)
    exact Int.sub_le_sub_right (gridExponent_le positive below least) 1

/-- The error of a number that is not too small is small in relation to the number. -/
theorem abs_rounded_sub_le_mul (normal : 2 ^ (-1022 : ℤ) ≤ |r|) :
    |rounded r - r| ≤ 2 ^ (-53 : ℤ) * |r| := by
  have positive : 0 < |r| := lt_of_lt_of_le (by positivity) normal
  refine (abs_rounded_sub_le r).trans ?_
  have log : -1022 ≤ Int.log 2 |r| :=
    (Int.zpow_le_iff_le_log (by norm_num) positive).mp (by rwa [Nat.cast_ofNat])
  have exponent : gridExponent |r| - 1 = -53 + Int.log 2 |r| := by
    unfold gridExponent
    omega
  rw [exponent, zpow_add₀ (by norm_num)]
  gcongr
  simpa using Int.zpow_log_le_self (b := 2) (by norm_num) positive

end PlotLisp.Number
