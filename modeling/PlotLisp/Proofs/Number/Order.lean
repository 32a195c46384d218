import PlotLisp.Proofs.Number.Encoding

/-!
# The order of finite numbers

A finite number stands for a rational number, and finite numbers are compared as the rational
numbers that they stand for. So the comparisons are total and transitive there, which they are
not on all numbers. Every finite number lies between the infinities.
-/

namespace PlotLisp.Number

open Float.Model (UnpackedFloat)
open Float.Model.UnpackedFloat (Sign)

variable {x y : Float} {mantissa mantissa' : Nat} {exponent exponent' : Int}

/-- The rational number that a sign, a significand, and an exponent stand for, and zero for the
special kinds. -/
def exactValue : UnpackedFloat → ℚ
  | .finite sign mantissa exponent _ => sign.apply mantissa * 2 ^ exponent
  | _ => 0

/-- The rational number that a finite number stands for. -/
def value (x : Float) : ℚ :=
  exactValue (decoded x)

/-- The double 0 stands for the rational 0. -/
@[simp] theorem value_zero : value 0 = 0 :=
  rfl

/-- Both zeros stand for the rational 0. -/
@[simp] theorem exactValue_zero (sign : Sign) : exactValue (.zero sign) = 0 :=
  rfl

/-- A positive finite number is its mantissa scaled by its exponent. -/
@[simp] theorem exactValue_positive (positive : 0 < mantissa) :
    exactValue (.finite .positive mantissa exponent positive) = mantissa * 2 ^ exponent :=
  rfl

/-- A negative finite number is the negative of its mantissa scaled by its exponent. -/
@[simp] theorem exactValue_negative (positive : 0 < mantissa) :
    exactValue (.finite .negative mantissa exponent positive) = -(mantissa * 2 ^ exponent) := by
  simp [exactValue, Sign.apply]

/-- A finite number is its sign applied to its scaled mantissa, in one formula for both signs. -/
theorem exactValue_finite (sign : Sign) (positive : 0 < mantissa) :
    exactValue (.finite sign mantissa exponent positive) =
      sign.apply 1 * (mantissa * 2 ^ exponent) := by
  cases sign <;> simp [Sign.apply]

/-- A finite number is a zero, or a canonical significand and exponent give its size. -/
theorem decoded_cases (finite : x.isFinite = true) :
    ∃ sign : Sign, (decoded x = .zero sign ∧ value x = 0) ∨
      ∃ mantissa exponent, ∃ canonical : Canonical mantissa exponent,
        decoded x = .finite sign mantissa exponent canonical.positive ∧
          value x = sign.apply 1 * (mantissa * 2 ^ exponent) := by
  refine ⟨signOf (isNegative x), ?_⟩
  obtain ⟨-, zero | ⟨mantissa, exponent, canonical, shape⟩⟩ := decoded_of_isFinite finite
  · exact .inl ⟨zero, congrArg exactValue zero⟩
  · refine .inr ⟨mantissa, exponent, canonical, shape, ?_⟩
    rw [value, shape, exactValue_finite]

/-! ## Significands and exponents -/

namespace Canonical

/-- A canonical mantissa has at most 53 bits. -/
theorem mantissa_lt (canonical : Canonical mantissa exponent) : mantissa < 2 ^ 53 := by
  refine (Nat.log2_lt (Nat.ne_of_gt canonical.positive)).mp ?_
  have normal := canonical.normal
  omega

/-- Above the least exponent, all bits of a significand are in use. -/
theorem le_mantissa (canonical : Canonical mantissa exponent) (above : -1074 < exponent) :
    2 ^ 52 ≤ mantissa := by
  refine (Nat.le_log2 (Nat.ne_of_gt canonical.positive)).mp ?_
  have normal := canonical.normal
  omega

/-- A canonical number is never zero. -/
theorem size_pos (canonical : Canonical mantissa exponent) :
    (0 : ℚ) < mantissa * 2 ^ exponent :=
  mul_pos (by exact_mod_cast canonical.positive) (by positivity)

/-- A larger exponent decides, since the significands have as many bits as they can. -/
theorem size_lt_of_exponent_lt (left : Canonical mantissa exponent)
    (right : Canonical mantissa' exponent') (less : exponent < exponent') :
    (mantissa * 2 ^ exponent : ℚ) < mantissa' * 2 ^ exponent' := by
  have least := left.least
  have below : (mantissa : ℚ) < 2 ^ 53 := by exact_mod_cast left.mantissa_lt
  have above : (2 ^ 52 : ℚ) ≤ mantissa' := by exact_mod_cast right.le_mantissa (by omega)
  calc (mantissa * 2 ^ exponent : ℚ)
      < 2 ^ 53 * 2 ^ exponent := by gcongr
    _ = 2 ^ 52 * 2 ^ (exponent + 1) := by
        rw [zpow_add_one₀ (by norm_num)]
        ring
    _ ≤ 2 ^ 52 * 2 ^ exponent' := by
        gcongr
        · norm_num
        · omega
    _ ≤ mantissa' * 2 ^ exponent' := by gcongr

/-- Sizes are compared by their exponents first, and by their significands then. -/
theorem compare_size (left : Canonical mantissa exponent)
    (right : Canonical mantissa' exponent') :
    (compare exponent exponent').then (compare mantissa mantissa') =
      compare (mantissa * 2 ^ exponent : ℚ) (mantissa' * 2 ^ exponent') := by
  rcases lt_trichotomy exponent exponent' with less | same | greater
  · rw [compare_lt_iff_lt.mpr less,
      compare_lt_iff_lt.mpr (left.size_lt_of_exponent_lt right less)]
    rfl
  · subst same
    have positive : (0 : ℚ) < 2 ^ exponent := by positivity
    rw [compare_eq_iff_eq.mpr rfl, Ordering.eq_then]
    rcases lt_trichotomy mantissa mantissa' with less | same | greater
    · rw [compare_lt_iff_lt.mpr less, eq_comm, compare_lt_iff_lt]
      gcongr
    · rw [same, compare_eq_iff_eq.mpr rfl, compare_eq_iff_eq.mpr rfl]
    · rw [compare_gt_iff_gt.mpr greater, eq_comm, compare_gt_iff_gt]
      gcongr
  · rw [compare_gt_iff_gt.mpr greater,
      compare_gt_iff_gt.mpr (right.size_lt_of_exponent_lt left greater)]
    rfl

/-- The distance to a smaller size is not small in relation to the size. -/
theorem size_le_mul_sub (left : Canonical mantissa exponent)
    (right : Canonical mantissa' exponent')
    (less : (mantissa * 2 ^ exponent : ℚ) < mantissa' * 2 ^ exponent') :
    (mantissa' * 2 ^ exponent' : ℚ) ≤
      2 ^ 54 * (mantissa' * 2 ^ exponent' - mantissa * 2 ^ exponent) := by
  have positive : (0 : ℚ) < 2 ^ exponent := by positivity
  rcases lt_trichotomy exponent exponent' with below | same | above
  · -- The larger size has all its bits, and the smaller one stays below them.
    have least := left.least
    have few : (mantissa : ℚ) ≤ 2 ^ 53 - 1 := by
      have bound : ((mantissa + 1 : ℕ) : ℚ) ≤ (2 ^ 53 : ℕ) := by exact_mod_cast left.mantissa_lt
      push_cast at bound
      linarith
    have many : (2 ^ 52 : ℚ) ≤ mantissa' := by exact_mod_cast right.le_mantissa (by omega)
    have step : (2 * 2 ^ exponent : ℚ) ≤ 2 ^ exponent' := by
      rw [mul_comm, ← zpow_add_one₀ two_ne_zero]
      exact zpow_le_zpow_right₀ one_le_two (by omega)
    have smaller : (mantissa * 2 ^ exponent : ℚ) ≤ (2 ^ 52 - 1 / 2) * 2 ^ exponent' := by
      calc (mantissa * 2 ^ exponent : ℚ)
          ≤ (2 ^ 53 - 1) * 2 ^ exponent := by gcongr
        _ = (2 ^ 52 - 1 / 2) * (2 * 2 ^ exponent) := by ring
        _ ≤ (2 ^ 52 - 1 / 2) * 2 ^ exponent' := mul_le_mul_of_nonneg_left step (by norm_num)
    calc (mantissa' * 2 ^ exponent' : ℚ)
        ≤ 2 ^ 54 * (mantissa' - (2 ^ 52 - 1 / 2)) * 2 ^ exponent' := by
          gcongr
          linarith
      _ = 2 ^ 54 * (mantissa' * 2 ^ exponent' - (2 ^ 52 - 1 / 2) * 2 ^ exponent') := by ring
      _ ≤ 2 ^ 54 * (mantissa' * 2 ^ exponent' - mantissa * 2 ^ exponent) := by gcongr
  · subst same
    have apart : (mantissa + 1 : ℚ) ≤ mantissa' := by
      have bound : mantissa + 1 ≤ mantissa' := by
        exact_mod_cast lt_of_mul_lt_mul_right less positive.le
      exact_mod_cast bound
    have few : (mantissa' : ℚ) ≤ 2 ^ 53 := by exact_mod_cast right.mantissa_lt.le
    rw [← sub_mul, ← mul_assoc]
    gcongr
    linarith
  · -- With the larger exponent the first size could not be the smaller one.
    exact absurd less (right.size_lt_of_exponent_lt left above).not_gt

end Canonical

/-! ## Comparisons -/

/-- The order `<` of doubles is the comparison of what they decode to. -/
theorem lt_iff_compare : x < y ↔ (decoded x).compare (decoded y) = some .lt := by
  show decide ((decoded x).lt (decoded y) = true) = true ↔ _
  rw [decide_eq_true_iff, UnpackedFloat.lt, beq_iff_eq]

/-- The order `≤` of doubles is the comparison of what they decode to, with no order at all where
one is no number. -/
theorem le_iff_compare :
    x ≤ y ↔ ((decoded x).compare (decoded y)).any Ordering.isLE = true := by
  show decide ((decoded x).le (decoded y) = true) = true ↔ _
  rw [decide_eq_true_iff]
  rfl

/-- The equality test of doubles is the comparison of what they decode to, so the two zeros are
equal. -/
theorem beq_iff_compare : (x == y) = true ↔ (decoded x).compare (decoded y) = some .eq := by
  show ((decoded x).compare (decoded y) == some .eq) = true ↔ _
  rw [beq_iff_eq]

/-- Negating both sides of a comparison of rationals turns it around. -/
theorem compare_neg_neg (a b : ℚ) : compare (-a) (-b) = (compare a b).swap := by
  rcases lt_trichotomy a b with less | same | greater
  · rw [compare_lt_iff_lt.mpr less, compare_gt_iff_gt.mpr (neg_lt_neg less)]
    rfl
  · rw [same, compare_eq_iff_eq.mpr rfl, compare_eq_iff_eq.mpr rfl]
    rfl
  · rw [compare_gt_iff_gt.mpr greater, compare_lt_iff_lt.mpr (neg_lt_neg greater)]
    rfl

/-- Finite numbers are compared as what they stand for. -/
theorem compare_decoded (left : x.isFinite = true) (right : y.isFinite = true) :
    (decoded x).compare (decoded y) = some (compare (value x) (value y)) := by
  unfold value
  obtain ⟨-, zero | ⟨mantissa, exponent, canonical, finite⟩⟩ := decoded_of_isFinite left <;>
    obtain ⟨-, zero' | ⟨mantissa', exponent', canonical', finite'⟩⟩ := decoded_of_isFinite right
  · rw [zero, zero']
    rfl
  · rw [zero, finite']
    have positive := canonical'.size_pos
    cases signOf (isNegative y) with
    | negative =>
        rw [exactValue_zero, exactValue_negative, compare_gt_iff_gt.mpr (by simpa using positive)]
        rfl
    | positive =>
        rw [exactValue_zero, exactValue_positive, compare_lt_iff_lt.mpr positive]
        rfl
  · rw [finite, zero']
    have positive := canonical.size_pos
    cases signOf (isNegative x) with
    | negative =>
        rw [exactValue_zero, exactValue_negative, compare_lt_iff_lt.mpr (by simpa using positive)]
        rfl
    | positive =>
        rw [exactValue_zero, exactValue_positive, compare_gt_iff_gt.mpr positive]
        rfl
  · rw [finite, finite']
    have positive := canonical.size_pos
    have positive' := canonical'.size_pos
    have sizes := canonical.compare_size canonical'
    -- Different signs decide by themselves; for the same sign the sizes do.
    cases signOf (isNegative x) with
    | negative =>
        cases signOf (isNegative y) with
        | negative =>
            rw [exactValue_negative, exactValue_negative, compare_neg_neg, ← sizes]
            rfl
        | positive =>
            rw [exactValue_negative, exactValue_positive, compare_lt_iff_lt.mpr (by linarith)]
            rfl
    | positive =>
        cases signOf (isNegative y) with
        | negative =>
            rw [exactValue_positive, exactValue_negative, compare_gt_iff_gt.mpr (by linarith)]
            rfl
        | positive =>
            rw [exactValue_positive, exactValue_positive, ← sizes]
            rfl

/-- Finite doubles are ordered strictly as the rationals they stand for. -/
theorem lt_iff_value (left : x.isFinite = true) (right : y.isFinite = true) :
    x < y ↔ value x < value y := by
  rw [lt_iff_compare, compare_decoded left right, Option.some_inj, compare_lt_iff_lt]

/-- Finite doubles are ordered as the rationals they stand for. -/
theorem le_iff_value (left : x.isFinite = true) (right : y.isFinite = true) :
    x ≤ y ↔ value x ≤ value y := by
  rw [le_iff_compare, compare_decoded left right, Option.any_some, Ordering.isLE_iff_ne_gt]
  exact compare_le_iff_le

/-- Finite doubles test equal exactly when they stand for one rational. -/
theorem beq_iff_value (left : x.isFinite = true) (right : y.isFinite = true) :
    (x == y) = true ↔ value x = value y := by
  rw [beq_iff_compare, compare_decoded left right, Option.some_inj, compare_eq_iff_eq]

/-- A size determines its significand and its exponent. -/
theorem Canonical.eq_of_size_eq (left : Canonical mantissa exponent)
    (right : Canonical mantissa' exponent')
    (same : (mantissa * 2 ^ exponent : ℚ) = mantissa' * 2 ^ exponent') :
    mantissa = mantissa' ∧ exponent = exponent' := by
  have compared := left.compare_size right
  rw [compare_eq_iff_eq.mpr same, Ordering.then_eq_eq, compare_eq_iff_eq, compare_eq_iff_eq]
    at compared
  exact compared.symm

/-- Finite numbers of one value other than zero are the same number. -/
theorem eq_of_value_eq (left : x.isFinite = true) (right : y.isFinite = true)
    (same : value x = value y) (nonzero : value y ≠ 0) : x = y := by
  obtain ⟨sign, ⟨-, zero⟩ | ⟨mantissa, exponent, canonical, shape, size⟩⟩ := decoded_cases left
  · exact absurd (same.symm.trans zero) nonzero
  obtain ⟨sign', ⟨-, zero⟩ | ⟨mantissa', exponent', canonical', shape', size'⟩⟩ :=
    decoded_cases right
  · exact absurd zero nonzero
  rw [size, size'] at same
  have positive := canonical.size_pos
  have positive' := canonical'.size_pos
  have determined : sign = sign' ∧ (mantissa * 2 ^ exponent : ℚ) = mantissa' * 2 ^ exponent' := by
    cases sign with
    | negative =>
        cases sign' with
        | negative => exact ⟨rfl, by simpa [Sign.apply] using same⟩
        | positive =>
            simp only [Sign.apply, Int.cast_neg, Int.cast_one, neg_one_mul, one_mul] at same
            linarith
    | positive =>
        cases sign' with
        | negative =>
            simp only [Sign.apply, Int.cast_neg, Int.cast_one, neg_one_mul, one_mul] at same
            linarith
        | positive => exact ⟨rfl, by simpa [Sign.apply] using same⟩
  obtain ⟨rfl, sizes⟩ := determined
  obtain ⟨rfl, rfl⟩ := canonical.eq_of_size_eq canonical' sizes
  rw [← (decoded_of_isFinite left).1, ← (decoded_of_isFinite right).1, shape, shape']

/-! ## Special kinds -/

/-- A finite double is a number. -/
theorem isNaN_of_isFinite (finite : x.isFinite = true) : x.isNaN = false := by
  have value : (decoded x).isFinite = true := finite
  show (decoded x).isNaN = false
  cases shape : decoded x with
  | notANumber =>
      rw [shape] at value
      cases value
  | infinity sign => rfl
  | zero sign => rfl
  | finite sign mantissa exponent positive => rfl

/-- The positive infinity decodes to itself. -/
theorem decoded_infinity : decoded infinity = .infinity .positive :=
  rfl

/-- Its negation decodes to the negative infinity. -/
theorem decoded_neg_infinity : decoded (-infinity) = .infinity .negative :=
  rfl

/-- Every finite double lies below the infinity. -/
theorem lt_infinity (finite : x.isFinite = true) : x < infinity := by
  rw [lt_iff_compare, decoded_infinity]
  obtain ⟨-, zero | ⟨mantissa, exponent, canonical, shape⟩⟩ := decoded_of_isFinite finite
  · rw [zero]
    rfl
  · rw [shape]
    cases signOf (isNegative x) <;> rfl

/-- Every finite double lies above the negative infinity. -/
theorem neg_infinity_lt (finite : x.isFinite = true) : -infinity < x := by
  rw [lt_iff_compare, decoded_neg_infinity]
  obtain ⟨-, zero | ⟨mantissa, exponent, canonical, shape⟩⟩ := decoded_of_isFinite finite
  · rw [zero]
    rfl
  · rw [shape]
    cases signOf (isNegative x) <;> rfl

/-! ## The ends of a range -/

/-- Of two finite doubles `least` takes the second only where it is strictly smaller. -/
theorem least_of_isFinite (left : x.isFinite = true) (right : y.isFinite = true) :
    least x y = if value y < value x then y else x := by
  simp only [least, lt_iff_value right left]

/-- Of two finite doubles `greatest` takes the second only where it is strictly larger. -/
theorem greatest_of_isFinite (left : x.isFinite = true) (right : y.isFinite = true) :
    greatest x y = if -value y < -value x then y else x := by
  simp only [greatest, lt_iff_value left right, neg_lt_neg_iff]

/-- A fold that keeps the one of two finite numbers with the smaller key ends with an element of
the smallest key. -/
theorem foldl_choose (key : Float → ℚ) {choose : Float → Float → Float}
    (chooses : ∀ {x y : Float}, x.isFinite = true → y.isFinite = true →
      choose x y = if key y < key x then y else x)
    (numbers : List Float) (finite : ∀ number ∈ numbers, number.isFinite = true)
    (first : x.isFinite = true) :
    numbers.foldl choose x ∈ x :: numbers ∧
      ∀ number ∈ x :: numbers, key (numbers.foldl choose x) ≤ key number := by
  induction numbers generalizing x with
  | nil => simp
  | cons next rest inductionHypothesis =>
      obtain ⟨here, further⟩ := List.forall_mem_cons.mp finite
      rw [List.foldl_cons, chooses first here]
      -- The better of the first two numbers stands for both of them.
      split
      case isTrue less =>
        obtain ⟨member, smallest⟩ := inductionHypothesis further here
        refine ⟨List.mem_cons_of_mem _ member, List.forall_mem_cons.mpr ⟨?_, smallest⟩⟩
        exact (smallest next List.mem_cons_self).trans less.le
      case isFalse notLess =>
        obtain ⟨member, smallest⟩ := inductionHypothesis further first
        obtain ⟨self, others⟩ := List.forall_mem_cons.mp smallest
        refine ⟨?_, ?_⟩
        · rcases List.mem_cons.mp member with same | among
          · exact List.mem_cons.mpr (.inl same)
          · exact List.mem_cons_of_mem _ (List.mem_cons_of_mem _ among)
        · refine List.forall_mem_cons.mpr ⟨self, List.forall_mem_cons.mpr ⟨?_, others⟩⟩
          exact self.trans (not_lt.mp notLess)

/-- The least of some finite numbers is found by a fold from infinity. -/
theorem foldl_least (numbers : List Float) (nonempty : numbers ≠ [])
    (finite : ∀ number ∈ numbers, number.isFinite = true) :
    numbers.foldl least infinity ∈ numbers ∧
      ∀ number ∈ numbers, value (numbers.foldl least infinity) ≤ value number := by
  cases numbers with
  | nil => exact absurd rfl nonempty
  | cons first rest =>
      obtain ⟨here, further⟩ := List.forall_mem_cons.mp finite
      rw [List.foldl_cons, least, if_pos (lt_infinity here)]
      exact foldl_choose value least_of_isFinite rest further here

/-- The greatest of some finite numbers is found by a fold from negative infinity. -/
theorem foldl_greatest (numbers : List Float) (nonempty : numbers ≠ [])
    (finite : ∀ number ∈ numbers, number.isFinite = true) :
    numbers.foldl greatest (-infinity) ∈ numbers ∧
      ∀ number ∈ numbers, value number ≤ value (numbers.foldl greatest (-infinity)) := by
  cases numbers with
  | nil => exact absurd rfl nonempty
  | cons first rest =>
      obtain ⟨here, further⟩ := List.forall_mem_cons.mp finite
      rw [List.foldl_cons, greatest, if_pos (neg_infinity_lt here)]
      obtain ⟨member, smallest⟩ := foldl_choose (-value ·) greatest_of_isFinite rest further here
      exact ⟨member, fun number among => neg_le_neg_iff.mp (smallest number among)⟩

/-- A clamped number lies between the bounds. -/
theorem clamp_between {lower upper : Float} (finite : x.isFinite = true)
    (lowerFinite : lower.isFinite = true) (upperFinite : upper.isFinite = true)
    (ordered : lower ≤ upper) :
    (clamp lower upper x).isFinite = true ∧ lower ≤ clamp lower upper x ∧
      clamp lower upper x ≤ upper := by
  unfold clamp
  split_ifs with below above
  · exact ⟨lowerFinite, (le_iff_value lowerFinite lowerFinite).mpr le_rfl, ordered⟩
  · exact ⟨upperFinite, ordered, (le_iff_value upperFinite upperFinite).mpr le_rfl⟩
  · rw [lt_iff_value finite lowerFinite, not_lt] at below
    rw [lt_iff_value upperFinite finite, not_lt] at above
    exact ⟨finite, (le_iff_value lowerFinite finite).mpr below,
      (le_iff_value finite upperFinite).mpr above⟩

end PlotLisp.Number
