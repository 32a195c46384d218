import PlotLisp.Proofs.Number.Fused

/-!
# Whole numbers

Every whole number up to `2 ^ 53` in size is a number, and it is not rounded. So arithmetic on
whole numbers is exact as long as its results are not larger. Counting by ones stands still there.
-/

namespace PlotLisp.Number

open Float.Model (UnpackedFloat)
open Float.Model.UnpackedFloat (Sign)

variable {x y z : Float} {n m k : ℤ} {count : ℕ}

/-- The whole numbers up to this size are all exact. -/
def largestExact : ℕ := 9007199254740992

/-- Whole numbers of at most 53 bits are on the grid of the doubles. -/
theorem roundedSize_natCast (small : count ≤ largestExact) : roundedSize count = count := by
  rcases Nat.lt_or_eq_of_le small with less | full
  · have same := @roundedSize_of_lt count 0 less (by norm_num)
    rwa [zpow_zero, mul_one] at same
  · have power := @roundedSize_of_lt 1 53 (by norm_num) (by norm_num)
    have same : (count : ℚ) = (1 : ℕ) * 2 ^ (53 : ℤ) := by
      rw [full, largestExact]
      norm_num
    rw [same]
    exact power

/-- A whole number that is not too large is not rounded. -/
theorem rounded_intCast (small : |n| ≤ largestExact) : rounded n = n := by
  rcases Int.eq_nat_or_neg n with ⟨count, rfl | rfl⟩
  · rw [abs_of_nonneg (Int.natCast_nonneg count)] at small
    rw [Int.cast_natCast, rounded_of_nonneg (Nat.cast_nonneg count),
      roundedSize_natCast (by exact_mod_cast small)]
  · rw [abs_neg, abs_of_nonneg (Int.natCast_nonneg count)] at small
    rw [Int.cast_neg, Int.cast_natCast, rounded_neg, rounded_of_nonneg (Nat.cast_nonneg count),
      roundedSize_natCast (by exact_mod_cast small)]

/-- Rounding a small whole number stays far below the overflow threshold. -/
theorem abs_rounded_intCast_lt (small : |n| ≤ largestExact) :
    |rounded n| < 2 ^ (1024 : ℤ) := by
  refine abs_rounded_lt ((?_ : _ ≤ (2 : ℚ) ^ (53 : ℤ)).trans
    (zpow_le_zpow_right₀ one_le_two (by norm_num)))
  rw [← Int.cast_abs]
  calc ((|n| : ℤ) : ℚ)
      ≤ (largestExact : ℤ) := by exact_mod_cast small
    _ = 2 ^ (53 : ℤ) := by rw [largestExact]; norm_num

/-- A finite number that stands for a whole number. -/
structure IsWhole (x : Float) (n : ℤ) : Prop where
  finite : x.isFinite = true
  value_eq : value x = n

/-- A result that is exactly a small whole number is not changed by rounding. -/
theorem IsRounded.isWhole (rounds : IsRounded x n) (small : |n| ≤ largestExact) : IsWhole x n :=
  ⟨rounds.finite, rounds.value_eq.trans (rounded_intCast small)⟩

/-- A nonzero whole number has only one double; zero has two. -/
theorem IsWhole.eq (left : IsWhole x n) (right : IsWhole y n) (nonzero : n ≠ 0) : x = y :=
  eq_of_value_eq left.finite right.finite (left.value_eq.trans right.value_eq.symm)
    (by rw [right.value_eq]; exact_mod_cast nonzero)

/-! ## Counting -/

/-- The double 1 is exact. -/
theorem value_one : value 1 = 1 := by
  have shape : decoded 1 = .finite .positive (2 ^ 52) (-52) (by decide) := rfl
  rw [value, shape, exactValue_positive]
  norm_num

/-- Converting a small count to a double is exact. -/
theorem isWhole_toFloat (small : count ≤ largestExact) : IsWhole count.toUInt64.toFloat count := by
  have word : count.toUInt64.toNat = count := by
    rw [largestExact] at small
    simp
    omega
  have bounded := abs_rounded_intCast_lt (n := count) (by simpa using small)
  have whole : count.toUInt64.toFloat =
      encoded (UnpackedFloat.normalize .binary64 count 0 .positive) := by
    show encoded (UnpackedFloat.ofNat .binary64 count.toUInt64.toNat) = _
    rw [word]
    rfl
  have rounds := isRounded_normalize count 0 .positive (by simpa using bounded)
  rw [whole]
  refine IsRounded.isWhole ?_ (by simpa using small)
  simpa using rounds

/-- A whole number that is not too large is written as a number exactly. -/
theorem isWhole_ofNat (small : count ≤ largestExact) : IsWhole (Float.ofNat count) count := by
  rcases Nat.lt_or_eq_of_le small with less | rfl
  · have written : Float.ofNat count = count.toUInt64.toFloat * 1 := by
      show Float.ofScientific count false 0 = _
      unfold Float.ofScientific
      rw [dif_pos ⟨less, by decide⟩]
      rfl
    have whole := isWhole_toFloat small
    have bounded := abs_rounded_intCast_lt (n := count) (by simpa using small)
    have product : value count.toUInt64.toFloat * value 1 = (count : ℤ) := by
      rw [whole.value_eq, value_one, mul_one]
    have rounds := isRounded_mul whole.finite (y := 1) rfl (by rwa [product])
    rw [written]
    rw [product] at rounds
    exact rounds.isWhole (by simpa using small)
  · have shape : decoded (Float.ofNat largestExact) = .finite .positive (2 ^ 52) 1 (by decide) :=
      rfl
    refine ⟨congrArg UnpackedFloat.isFinite shape, ?_⟩
    rw [value, shape, exactValue_positive, largestExact]
    norm_num

/-- Converting a small integer to a double is exact. -/
theorem isWhole_ofInt (small : |n| ≤ largestExact) : IsWhole (Float.ofInt n) n := by
  cases n with
  | ofNat count =>
      refine isWhole_ofNat ?_
      rw [Int.ofNat_eq_natCast, abs_of_nonneg (Int.natCast_nonneg count)] at small
      exact_mod_cast small
  | negSucc count =>
      rw [Int.negSucc_eq, abs_neg, abs_of_nonneg (by omega)] at small
      have opposite := @isWhole_ofNat (count + 1) (by omega)
      refine ⟨isFinite_neg opposite.finite, ?_⟩
      show value (-Float.ofNat (count + 1)) = _
      rw [value_neg opposite.finite, opposite.value_eq, Int.negSucc_eq]
      push_cast
      rfl

/-- Below the last of the exact whole numbers, adding one leads to the next of them. -/
theorem ofNat_add_one (less : count < largestExact) :
    Float.ofNat count + 1 = Float.ofNat (count + 1) := by
  have whole := isWhole_ofNat less.le
  have next := isWhole_ofNat (Nat.succ_le_of_lt less)
  have small : |((count + 1 : ℕ) : ℤ)| ≤ largestExact := by
    rw [abs_of_nonneg (Int.natCast_nonneg _)]
    exact_mod_cast less
  have sum : value (Float.ofNat count) + value 1 = ((count + 1 : ℕ) : ℤ) := by
    rw [whole.value_eq, value_one]
    push_cast
    rfl
  have bounded := abs_rounded_intCast_lt small
  rw [← sum] at bounded
  have rounds := isRounded_add whole.finite (y := 1) rfl bounded
  rw [sum] at rounds
  exact (rounds.isWhole small).eq next (by omega)

/-- The last of the exact whole numbers is so large that adding one is lost in rounding. -/
theorem ofNat_largestExact_add_one :
    Float.ofNat largestExact + 1 = Float.ofNat largestExact :=
  rfl

/-! ## Fused products and sums -/

/-- A fused product and sum of whole numbers is exact while it stays small. -/
theorem IsWhole.mulAdd (left : IsWhole x n) (right : IsWhole y m) (addend : IsWhole z k)
    (small : |n * m + k| ≤ largestExact) : IsWhole (mulAdd x y z) (n * m + k) := by
  have sum : value x * value y + value z = (n * m + k : ℤ) := by
    rw [left.value_eq, right.value_eq, addend.value_eq]
    push_cast
    rfl
  have bounded := abs_rounded_intCast_lt small
  rw [← sum] at bounded
  have rounds := isRounded_mulAdd left.finite right.finite addend.finite bounded
  rw [sum] at rounds
  exact rounds.isWhole small

end PlotLisp.Number
