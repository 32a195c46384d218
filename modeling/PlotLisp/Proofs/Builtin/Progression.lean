import PlotLisp.Proofs.Builtin.Sampling
import PlotLisp.Proofs.Session.Fusion

/-!
# Ranges of whole numbers

Between whole numbers that are not too large, no sample is rounded. The range is the arithmetic
progression from the first number on, up to the last number inclusive, and it may be cut in two at
any of its elements.
-/

namespace PlotLisp.Sequence

open Number

/-- The numbers from `first` up to `last` in steps of `increment`. -/
def progression (first last increment : ℤ) : List ℤ :=
  (List.range ((last - first) / increment + 1).toNat).map fun step : ℕ =>
    first + step * increment

/-- A list is the whole progression between two numbers: nothing is missed, repeated, or out of
order. -/
structure IsProgression (first last increment : ℤ) (elements : List ℤ) : Prop where
  length_eq : (elements.length : ℤ) = (last - first) / increment + 1
  element : ∀ (step : ℕ) (inside : step < elements.length),
    elements[step] = first + step * increment
  starts : elements.head? = some first
  ends : last ∈ elements ↔ increment ∣ last - first
  increasing : elements.Pairwise (· < ·)
  complete : ∀ n, n ∈ elements ↔ first ≤ n ∧ n ≤ last ∧ increment ∣ n - first

/-- A list of whole numbers as a value. -/
def wholeNumbers (elements : List ℤ) : Expression :=
  .list (elements.map fun n => .number (Float.ofInt n))

/-- The numbers of a range and the one after them are exact. -/
structure IsExact (first last increment : ℤ) : Prop where
  ordered : first ≤ last
  positive : 1 ≤ increment
  least : -largestExact ≤ first
  greatest : last + increment ≤ largestExact
  span : last - first + increment ≤ largestExact

variable {first last increment middle : ℤ} {x y z : Float} {steps : ℕ}

/-! ## Progressions -/

/-- The number of elements follows from the ends and the increment. -/
theorem length_progression (first last increment : ℤ) :
    (progression first last increment).length = ((last - first) / increment + 1).toNat := by
  simp [progression]

/-- The steps that stay within the range are those of the progression. -/
theorem lt_length_iff (ordered : first ≤ last) (positive : 1 ≤ increment) :
    steps < (progression first last increment).length ↔ first + steps * increment ≤ last := by
  have quotient : 0 ≤ (last - first) / increment := Int.ediv_nonneg (by omega) (by omega)
  rw [length_progression, Int.lt_toNat, Int.lt_add_one_iff, Int.le_ediv_iff_mul_le (by omega)]
  constructor <;> intro within <;> linarith

/-- The progression misses no number of its residue between the ends and holds no other. -/
theorem mem_progression_iff (ordered : first ≤ last) (positive : 1 ≤ increment) (n : ℤ) :
    n ∈ progression first last increment ↔ first ≤ n ∧ n ≤ last ∧ increment ∣ n - first := by
  have inside (step : ℕ) := @lt_length_iff first last increment step ordered positive
  rw [length_progression] at inside
  simp only [progression, List.mem_map, List.mem_range, inside]
  constructor
  · rintro ⟨step, within, rfl⟩
    exact ⟨le_add_of_nonneg_right (by positivity), within, step, by ring⟩
  · rintro ⟨above, below, step, multiple⟩
    have nonnegative : 0 ≤ step := by
      by_contra negative
      nlinarith
    lift step to ℕ using nonnegative
    have element : first + step * increment = n := by linarith
    exact ⟨step, element.trans_le below, element⟩

/-- The closed form has every property of a progression: its count, its elements, both ends, and
its order. -/
theorem isProgression (ordered : first ≤ last) (positive : 1 ≤ increment) :
    IsProgression first last increment (progression first last increment) := by
  have quotient : 0 ≤ (last - first) / increment := Int.ediv_nonneg (by omega) (by omega)
  have complete := @mem_progression_iff first last increment ordered positive
  refine ⟨?length, ?element, ?starts, ?ends, ?increasing, complete⟩
  case length =>
    rw [length_progression]
    omega
  case element =>
    intro step inside
    simp [progression]
  case starts =>
    obtain ⟨more, count⟩ : ∃ more, ((last - first) / increment + 1).toNat = more + 1 :=
      ⟨((last - first) / increment).toNat, by omega⟩
    simp [progression, count, List.range_succ_eq_map]
  case ends =>
    rw [complete]
    exact ⟨fun inside => inside.2.2, fun divides => ⟨ordered, le_rfl, divides⟩⟩
  case increasing =>
    rw [progression, List.pairwise_map]
    refine List.pairwise_lt_range.imp fun {step later} less => ?_
    have less : (step : ℤ) < later := by exact_mod_cast less
    have scaled := mul_lt_mul_of_pos_right less (by omega : 0 < increment)
    omega

/-- A progression goes on behind each of its elements. -/
theorem progression_append (positive : 1 ≤ increment) {step : ℕ}
    (element : middle = first + step * increment) (inside : middle + increment ≤ last) :
    progression first middle increment ++ progression (middle + increment) last increment =
      progression first last increment := by
  have front : ((middle - first) / increment + 1).toNat = step + 1 := by
    have multiple : middle - first = step * increment := by linarith
    rw [multiple, Int.mul_ediv_cancel _ (by omega)]
    omega
  have counts : ((last - first) / increment + 1).toNat =
      (step + 1) + ((last - (middle + increment)) / increment + 1).toNat := by
    have split : last - first = last - (middle + increment) + (step + 1) * increment := by
      rw [element]
      ring
    have quotient : 0 ≤ (last - (middle + increment)) / increment :=
      Int.ediv_nonneg (by omega) (by omega)
    rw [split, Int.add_mul_ediv_right _ _ (by omega)]
    omega
  unfold progression
  rw [front, counts, @List.range_add (step + 1), List.map_append, List.map_map]
  congr 1
  refine List.map_congr_left fun more _ => ?_
  simp only [Function.comp_apply, element]
  push_cast
  ring

/-- Joining two lists of whole numbers joins the numbers. -/
theorem children_wholeNumbers_append (front back : List ℤ) :
    Expression.list ((wholeNumbers front).children ++ (wholeNumbers back).children) =
      wholeNumbers (front ++ back) :=
  congrArg Expression.list List.map_append.symm

/-! ## Exact samples -/

namespace IsExact

/-- Bounds on the sizes of the ends and on the span keep all of the computation exact. -/
theorem of_sizes (ordered : first ≤ last) (positive : 1 ≤ increment)
    (small : |first| ≤ largestExact) (greatest : |last| + increment ≤ largestExact)
    (span : last - first + increment ≤ largestExact) : IsExact first last increment where
  ordered := ordered
  positive := positive
  least := (abs_le.mp small).1
  greatest := (add_le_add_left (le_abs_self last) _).trans greatest
  span := span

/-- Up to the first one beyond the range, neither the numbers nor the steps are too large. -/
theorem small (exact : IsExact first last increment)
    (within : steps ≤ (progression first last increment).length) :
    |steps * increment + first| ≤ largestExact ∧ steps ≤ largestExact := by
  have positive := exact.positive
  have least := exact.least
  have greatest := exact.greatest
  have span := exact.span
  have nonnegative : 0 ≤ steps * increment := by positivity
  have bound : steps * increment ≤ last - first + increment := by
    cases steps with
    | zero =>
        have ordered := exact.ordered
        push_cast
        linarith
    | succ before =>
        have inside := (lt_length_iff exact.ordered positive).mp within
        push_cast
        linarith
  have few : (steps : ℤ) ≤ steps * increment :=
    le_mul_of_one_le_right (Int.natCast_nonneg steps) positive
  exact ⟨abs_le.mpr ⟨by linarith, by linarith⟩, by exact_mod_cast few.trans (bound.trans span)⟩

/-- The first part of a range. -/
theorem front (exact : IsExact first last increment) (after : first ≤ middle)
    (inside : middle + increment ≤ last) : IsExact first middle increment := by
  obtain ⟨ordered, positive, least, greatest, span⟩ := exact
  exact ⟨after, positive, least, by omega, by omega⟩

/-- The part behind an element. -/
theorem back (exact : IsExact first last increment) (after : first ≤ middle)
    (inside : middle + increment ≤ last) : IsExact (middle + increment) last increment := by
  obtain ⟨ordered, positive, least, greatest, span⟩ := exact
  exact ⟨inside, positive, by omega, greatest, by omega⟩

end IsExact

/-! ## Ranges -/

section

variable (low : IsWhole x first) (step : IsWhole z increment) (exact : IsExact first last increment)

include low step exact

/-- A sample is the exact element, and it is never the negative zero. -/
theorem sample_eq (within : steps ≤ (progression first last increment).length) :
    (⟨x, y, z⟩ : Interval).sample (Interval.counted steps) =
      Float.ofInt (first + steps * increment) := by
  obtain ⟨small, few⟩ := exact.small within
  have count := Interval.isWhole_counted steps
  rw [Nat.min_eq_left few] at count
  have whole : IsWhole ((⟨x, y, z⟩ : Interval).sample (Interval.counted steps))
      (steps * increment + first) := count.mulAdd step low small
  rw [add_comm] at small whole
  rcases eq_or_ne (first + steps * increment) 0 with zero | nonzero
  · rw [zero]
    refine mulAdd_of_cancel count.finite step.finite low.finite ?_ ?_ ?_
    · rw [step.value_eq]
      exact_mod_cast exact.positive
    · intro none
      rw [count.value_eq, Int.cast_natCast, Nat.cast_eq_zero] at none
      rw [none]
      rfl
    · rw [count.value_eq, step.value_eq, low.value_eq]
      rw [add_comm] at zero
      exact_mod_cast zero
  · exact whole.eq (isWhole_ofInt small) nonzero

/-- The samples that the loop takes are the elements of the progression, written as numbers. -/
theorem taken_eq :
    (⟨x, y, z⟩ : Interval).taken (progression first last increment).length =
      (progression first last increment).map Float.ofInt :=
  calc (⟨x, y, z⟩ : Interval).taken (progression first last increment).length
      = (List.range (progression first last increment).length).map fun earlier : ℕ =>
          Float.ofInt (first + earlier * increment) :=
        List.map_congr_left fun _ member =>
          sample_eq low step exact (List.mem_range.mp member).le
    _ = (progression first last increment).map Float.ofInt := by
        rw [length_progression, progression, List.map_map]
        rfl

variable (high : IsWhole y last)

include high

/-- Whole ends in order with a positive increment pass all three checks. -/
theorem isValid_of_isWhole : (⟨x, y, z⟩ : Interval).IsValid where
  first_finite := low.finite
  last_finite := high.finite
  increment_finite := step.finite
  ordered := by
    rw [low.value_eq, high.value_eq]
    exact_mod_cast exact.ordered
  positive := by
    rw [step.value_eq]
    exact_mod_cast exact.positive

/-- A sample lies beyond the range exactly when the progression has run out of elements. -/
theorem exceeds_iff_length_le (within : steps ≤ (progression first last increment).length) :
    (⟨x, y, z⟩ : Interval).Exceeds steps ↔ (progression first last increment).length ≤ steps := by
  have small := (exact.small within).1
  rw [add_comm] at small
  have sample := isWhole_ofInt small
  rw [Interval.Exceeds, sample_eq low step exact within,
    lt_iff_value high.finite sample.finite, high.value_eq, sample.value_eq, Int.cast_lt, ← not_le,
    ← lt_length_iff exact.ordered exact.positive, not_lt]

/-- The loop ends after as many rounds as the progression has elements. -/
theorem endsAfter_length :
    (⟨x, y, z⟩ : Interval).EndsAfter (progression first last increment).length where
  inside earlier less := by
    rw [exceeds_iff_length_le low step exact high less.le]
    exact less.not_ge
  beyond := (exceeds_iff_length_le low step exact high le_rfl).mpr le_rfl

/-- The range procedure answers with the progression. -/
theorem call_range :
    (Builtin.range.call [.number x, .number y, .number z]).run =
      some (.ok (wholeNumbers (progression first last increment))) := by
  have called := Interval.call_arguments (isValid_of_isWhole low step exact high)
  rw [(endsAfter_length low step exact high).samples_eq (isValid_of_isWhole low step exact high),
    taken_eq low step exact, Option.map_some, List.map_map] at called
  exact called

end

/-- The elements of a range are written exactly. -/
theorem isWhole_of_mem (exact : IsExact first last increment) {n : ℤ}
    (member : n ∈ progression first last increment) : IsWhole (Float.ofInt n) n := by
  obtain ⟨above, below, -⟩ := (mem_progression_iff exact.ordered exact.positive n).mp member
  obtain ⟨-, positive, least, greatest, -⟩ := exact
  exact isWhole_ofInt (abs_le.mpr ⟨by omega, by omega⟩)

/-- A range of whole numbers that are not too large is the whole progression between its ends, and
the ranges up to an element and from the next one on join to it. -/
theorem range_samples_progression (low : IsWhole x first) (high : IsWhole y last)
    (step : IsWhole z increment) (ordered : first ≤ last) (positive : 1 ≤ increment)
    (small : |first| ≤ largestExact) (greatest : |last| + increment ≤ largestExact)
    (span : last - first + increment ≤ largestExact) :
    ∃ elements : List ℤ,
      (Builtin.range.call [.number x, .number y, .number z]).run =
        some (.ok (wholeNumbers elements)) ∧
      IsProgression first last increment elements ∧
      (∀ n ∈ elements, IsWhole (Float.ofInt n) n) ∧
      (elements.map Float.ofInt).Pairwise (· < ·) ∧
      ∀ (middle : ℤ) (u v : Float), IsWhole u middle → IsWhole v (middle + increment) →
        (∃ k : ℕ, middle = first + k * increment) → middle + increment ≤ last →
        ∃ front back,
          (Builtin.range.call [.number x, .number u, .number z]).run = some (.ok front) ∧
          (Builtin.range.call [.number v, .number y, .number z]).run = some (.ok back) ∧
          (Builtin.join.call [front, back]).run = some (.ok (wholeNumbers elements)) := by
  have exact := IsExact.of_sizes ordered positive small greatest span
  have whole := isProgression ordered positive
  refine ⟨_, call_range low step exact high, whole, fun n => isWhole_of_mem exact, ?growing,
    ?cut⟩
  case growing =>
    refine List.pairwise_map.mpr (whole.increasing.imp_of_mem fun {n later} left right less => ?_)
    have number := isWhole_of_mem exact left
    have number' := isWhole_of_mem exact right
    rw [lt_iff_value number.finite number'.finite, number.value_eq, number'.value_eq]
    exact_mod_cast less
  case cut =>
    rintro middle u v atMiddle next ⟨k, element⟩ inside
    have after : first ≤ middle := by
      rw [element]
      exact le_add_of_nonneg_right (by positivity)
    -- Both parts are ranges of whole numbers between the same bounds, so they are exact as well.
    refine ⟨_, _, call_range low step (exact.front after inside) atMiddle,
      call_range next step (exact.back after inside) high, ?_⟩
    rw [Builtin.call_join rfl rfl, children_wholeNumbers_append,
      progression_append positive element inside]
    rfl

/-- From `-3` to `7` by twos, cut at `1`: the last end is an element, and zero is stepped over. -/
theorem range_by_twos_samples_progression :
    IsWhole (Float.ofInt (-3)) (-3) ∧ IsWhole (Float.ofInt 7) 7 ∧ IsWhole (Float.ofInt 2) 2 ∧
      ∃ elements : List ℤ,
        (Builtin.range.call [.number (Float.ofInt (-3)), .number (Float.ofInt 7),
          .number (Float.ofInt 2)]).run = some (.ok (wholeNumbers elements)) ∧
        IsProgression (-3) 7 2 elements ∧
        ∃ front back,
          (Builtin.range.call [.number (Float.ofInt (-3)), .number (Float.ofInt 1),
            .number (Float.ofInt 2)]).run = some (.ok front) ∧
          (Builtin.range.call [.number (Float.ofInt 3), .number (Float.ofInt 7),
            .number (Float.ofInt 2)]).run = some (.ok back) ∧
          (Builtin.join.call [front, back]).run = some (.ok (wholeNumbers elements)) := by
  have low := isWhole_ofInt (n := -3) (by decide)
  have high := isWhole_ofInt (n := 7) (by decide)
  have step := isWhole_ofInt (n := 2) (by decide)
  obtain ⟨elements, called, whole, -, -, cut⟩ := range_samples_progression low high step
    (by decide) (by decide) (by decide) (by decide) (by decide)
  exact ⟨low, high, step, elements, called, whole, cut 1 (Float.ofInt 1) (Float.ofInt 3)
    (isWhole_ofInt (by decide)) (isWhole_ofInt (by decide)) ⟨2, by decide⟩ (by decide)⟩

end PlotLisp.Sequence
