import PlotLisp.Proofs.Outcome
import PlotLisp.Proofs.Number.Whole

/-!
# When sampling an interval ends

The loop counts its rounds in a number, which stands still at the last exact whole number. A sample
is the exact one rounded, so later samples are no smaller. Hence the loop ends if and only if the
sample at the last distinct step exceeds the interval, and it takes the samples up to the first one
that does.
-/

namespace PlotLisp.Sequence.Interval

open Number

/-- What the arguments of a sampling are checked for: finite ends in order, and a finite positive
increment. -/
structure IsValid (interval : Interval) : Prop where
  first_finite : interval.first.isFinite = true
  last_finite : interval.last.isFinite = true
  increment_finite : interval.increment.isFinite = true
  ordered : value interval.first ≤ value interval.last
  positive : 0 < value interval.increment

/-- The number that has counted some rounds of the loop. -/
def counted (rounds : ℕ) : Float :=
  Float.ofNat (min rounds largestExact)

/-- Whether the sample after some rounds exceeds the interval. -/
def Exceeds (interval : Interval) (rounds : ℕ) : Prop :=
  interval.last < interval.sample (counted rounds)

/-- The loop ends after this many rounds: the next sample is the first that exceeds the interval. -/
structure EndsAfter (interval : Interval) (rounds : ℕ) : Prop where
  inside : ∀ earlier < rounds, ¬ interval.Exceeds earlier
  beyond : interval.Exceeds rounds

/-- The samples that the loop takes in some rounds. -/
def taken (interval : Interval) (rounds : ℕ) : List Float :=
  (List.range rounds).map fun earlier => interval.sample (counted earlier)

variable {interval : Interval} {rounds earlier later fuel : ℕ} {numbers : List Float}

/-! ## Counting rounds -/

/-- The counter is exact up to the last exact whole number, where it stands still. -/
theorem isWhole_counted (rounds : ℕ) : IsWhole (counted rounds) (min rounds largestExact : ℕ) :=
  isWhole_ofNat (Nat.min_le_right _ _)

/-- A round adds one to the number, also where this is lost in rounding. -/
theorem counted_add_one (rounds : ℕ) : counted rounds + 1 = counted (rounds + 1) := by
  unfold counted
  rcases Nat.lt_or_ge rounds largestExact with less | above
  · rw [Nat.min_eq_left less.le, Nat.min_eq_left less]
    exact ofNat_add_one less
  · rw [Nat.min_eq_right above, Nat.min_eq_right (Nat.le_succ_of_le above)]
    exact ofNat_largestExact_add_one

/-- From the last exact whole number on, the counter no longer moves. -/
theorem counted_of_le (above : largestExact ≤ rounds) : counted rounds = lastStep := by
  unfold counted
  rw [Nat.min_eq_right above]
  rfl

/-! ## What a sample is -/

/-- The exact sample after some rounds, by the number that counts them. -/
def exactSample (interval : Interval) (rounds : ℕ) : ℚ :=
  (min rounds largestExact : ℕ) * value interval.increment + value interval.first

/-- Exact samples never decrease, since the increment is positive. -/
theorem exactSample_mono (valid : interval.IsValid) : Monotone interval.exactSample := by
  intro earlier later ordered
  have counts : ((min earlier largestExact : ℕ) : ℚ) ≤ (min later largestExact : ℕ) := by
    exact_mod_cast min_le_min_right _ ordered
  exact add_le_add_left (mul_le_mul_of_nonneg_right counts valid.positive.le) _

/-- A sample exceeds the interval where the exact one does so when it is rounded. -/
theorem exceeds_iff (valid : interval.IsValid) :
    interval.Exceeds rounds ↔ value interval.last < rounded (interval.exactSample rounds) := by
  have whole := isWhole_counted rounds
  have exact_eq : value (counted rounds) * value interval.increment + value interval.first =
      interval.exactSample rounds := by
    rw [whole.value_eq, exactSample, Int.cast_natCast]
  have step : interval.sample (counted rounds) =
    mulAdd (counted rounds) interval.increment interval.first := rfl
  rw [Exceeds, step]
  rcases lt_or_ge (rounded (interval.exactSample rounds)) (2 ^ (1024 : ℤ)) with small | large
  · -- The sample is no smaller than the first end, so that it is not too large either way.
    have above : value interval.first ≤ interval.exactSample rounds :=
      le_add_of_nonneg_left (mul_nonneg (Nat.cast_nonneg _) valid.positive.le)
    have least := rounded_lt_of_isFinite (isFinite_neg valid.first_finite)
    rw [value_neg valid.first_finite, rounded_neg] at least
    have bounded := abs_lt.mpr ⟨(neg_lt.mp least).trans_le (rounded_mono above), small⟩
    rw [← exact_eq] at bounded ⊢
    have rounds :=
      isRounded_mulAdd whole.finite valid.increment_finite valid.first_finite bounded
    rw [lt_iff_value valid.last_finite rounds.finite, rounds.value_eq]
  · have infinite := mulAdd_of_large whole.finite valid.increment_finite valid.first_finite
      (by rwa [exact_eq])
    have below := rounded_lt_of_isFinite valid.last_finite
    rw [← (isRounded_value valid.last_finite).value_eq] at below
    rw [infinite]
    exact iff_of_true (lt_infinity valid.last_finite) (below.trans_le large)

/-- Once a sample has exceeded the interval, all later ones do. -/
theorem Exceeds.mono (valid : interval.IsValid) (ordered : earlier ≤ later)
    (exceeds : interval.Exceeds earlier) : interval.Exceeds later := by
  rw [exceeds_iff valid] at exceeds ⊢
  exact exceeds.trans_le (rounded_mono (exactSample_mono valid ordered))

/-- If any sample exceeds the interval, the one at the last distinct step does. -/
theorem exists_exceeds_iff (valid : interval.IsValid) :
    (∃ rounds, interval.Exceeds rounds) ↔ interval.Exceeds largestExact := by
  refine ⟨fun ⟨rounds, exceeds⟩ => ?_, fun exceeds => ⟨_, exceeds⟩⟩
  rcases Nat.le_total rounds largestExact with below | above
  · exact exceeds.mono valid below
  · rw [Exceeds, counted_of_le above] at exceeds
    rwa [Exceeds, counted_of_le le_rfl]

/-- A loop that ever exceeds its interval has a first round in which it does. -/
theorem exists_endsAfter (exceeds : interval.Exceeds later) :
    ∃ rounds ≤ later, interval.EndsAfter rounds := by
  classical
  exact ⟨Nat.find ⟨later, exceeds⟩, Nat.find_min' _ exceeds, fun _ => Nat.find_min _,
    Nat.find_spec ⟨later, exceeds⟩⟩

/-- A loop ends only once. -/
theorem EndsAfter.unique (ends : interval.EndsAfter rounds) (ends' : interval.EndsAfter later) :
    rounds = later := by
  rcases Nat.lt_trichotomy rounds later with less | same | more
  · exact absurd ends.beyond (ends'.inside rounds less)
  · exact same
  · exact absurd ends'.beyond (ends.inside later more)

/-! ## The loop -/

/-- From any round on, the loop takes one sample after the other until one exceeds the interval. -/
theorem samplesWithin_eq (ends : interval.EndsAfter later) (ordered : rounds ≤ later)
    (enough : later < rounds + fuel) :
    interval.samplesWithin fuel (counted rounds) (interval.taken rounds).reverse =
      some (interval.taken later) := by
  induction fuel generalizing rounds with
  | zero => omega
  | succ fuel inductionHypothesis =>
      rw [samplesWithin]
      rcases ordered.eq_or_lt with rfl | less
      · have beyond : interval.last < interval.sample (counted rounds) := ends.beyond
        rw [if_pos beyond, List.reverse_reverse]
      · have inside : ¬ interval.last < interval.sample (counted rounds) := ends.inside rounds less
        have next : interval.sample (counted rounds) :: (interval.taken rounds).reverse =
            (interval.taken (rounds + 1)).reverse := by
          simp [taken, List.range_succ]
        rw [if_neg inside, counted_add_one, next]
        exact inductionHypothesis less (by omega)

/-- The samples of an interval are those of the rounds before the loop ends. -/
theorem EndsAfter.samples_eq (valid : interval.IsValid) (ends : interval.EndsAfter rounds) :
    interval.samples = some (interval.taken rounds) := by
  have last := (exists_exceeds_iff valid).mp ⟨rounds, ends.beyond⟩
  obtain ⟨rounds', few, ends'⟩ := exists_endsAfter last
  obtain rfl := ends.unique ends'
  have enough : rounds < 0 + distinctSteps := by
    rw [largestExact] at few
    rw [distinctSteps]
    omega
  rw [Exceeds, counted_of_le le_rfl] at last
  rw [samples, if_pos last]
  exact samplesWithin_eq ends (Nat.zero_le _) enough

/-- There are no samples if and only if the loop never ends. -/
theorem samples_eq_none_iff (valid : interval.IsValid) :
    interval.samples = none ↔ ∀ rounds, ¬ interval.Exceeds rounds := by
  constructor
  · intro nothing rounds exceeds
    obtain ⟨rounds, -, ends⟩ := exists_endsAfter exceeds
    rw [ends.samples_eq valid] at nothing
    cases nothing
  · intro never
    have last := never largestExact
    rw [Exceeds, counted_of_le le_rfl] at last
    rw [samples, if_neg last]

/-! ## Calls -/

/-- The arguments that describe an interval. -/
def arguments (interval : Interval) : List Expression :=
  [.number interval.first, .number interval.last, .number interval.increment]

/-- A check passes just when its condition holds. -/
theorem check_eq_ok_iff {condition : Bool} {fault : Fault} :
    check condition fault = .ok () ↔ condition = true := by
  cases condition <;> simp

/-- What the three checks ask for. -/
theorem isValid_iff :
    interval.IsValid ↔
      (interval.first.isFinite && interval.last.isFinite && interval.increment.isFinite) = true ∧
        ¬ interval.last < interval.first ∧ ¬ interval.increment ≤ 0 := by
  constructor
  · intro valid
    refine ⟨by simp [valid.first_finite, valid.last_finite, valid.increment_finite], ?_, ?_⟩
    · rw [lt_iff_value valid.last_finite valid.first_finite]
      exact valid.ordered.not_gt
    · rw [le_iff_value valid.increment_finite rfl, value_zero]
      exact valid.positive.not_ge
  · rintro ⟨finite, ordered, positive⟩
    simp only [Bool.and_eq_true] at finite
    obtain ⟨⟨first, last⟩, increment⟩ := finite
    rw [lt_iff_value last first, not_lt] at ordered
    rw [le_iff_value increment rfl, value_zero, not_le] at positive
    exact ⟨first, last, increment, ordered, positive⟩

/-- The checks let exactly the valid intervals through. -/
theorem interval_arguments_iff :
    Sequence.interval interval.arguments = .ok interval ↔ interval.IsValid := by
  have checked : Sequence.interval interval.arguments = (do
      check (interval.first.isFinite && interval.last.isFinite && interval.increment.isFinite)
        (.outsideDomain "range" .notFinite)
      check (¬ interval.last < interval.first) (.outsideDomain "range" .emptyInterval)
      check (¬ interval.increment ≤ 0) (.outsideDomain "range" .noProgress)
      return interval) := rfl
  rw [checked, isValid_iff]
  constructor
  · intro passed
    obtain ⟨_, finite, passed⟩ := bind_eq_ok_iff.mp passed
    obtain ⟨_, ordered, passed⟩ := bind_eq_ok_iff.mp passed
    obtain ⟨_, positive, -⟩ := bind_eq_ok_iff.mp passed
    exact ⟨check_eq_ok_iff.mp finite, of_decide_eq_true (check_eq_ok_iff.mp ordered),
      of_decide_eq_true (check_eq_ok_iff.mp positive)⟩
  · rintro ⟨finite, ordered, positive⟩
    rw [finite, decide_eq_true ordered, decide_eq_true positive]
    rfl

/-- A call gives the samples of the interval, or it does not end. -/
theorem call_arguments (valid : interval.IsValid) :
    (Builtin.range.call interval.arguments).run =
      interval.samples.map fun numbers => .ok (.list (numbers.map .number)) := by
  have computed : Builtin.range.call interval.arguments =
      Builtin.computeRange interval.arguments := rfl
  rw [computed, Builtin.computeRange, interval_arguments_iff.mpr valid, Attempt.run_bind]
  show ((Attempt.ofOption interval.samples >>= fun samples =>
    pure (Expression.list (samples.map .number)) : Attempt Expression)).run = _
  rw [Attempt.run_bind]
  cases interval.samples <;> rfl

/-- A call ends if and only if the sample at the last exact whole number of increments exceeds the
interval when it is rounded. -/
theorem call_ends_iff (valid : interval.IsValid) :
    (Builtin.range.call interval.arguments).run ≠ none ↔
      value interval.last <
        rounded (largestExact * value interval.increment + value interval.first) := by
  rw [call_arguments valid, Ne, Option.map_eq_none_iff, samples_eq_none_iff valid]
  push Not
  rw [exists_exceeds_iff valid, exceeds_iff valid, exactSample, Nat.min_self]

/-- Increments that are lost in rounding do not end a sampling. -/
theorem lost_increments_never_end :
    (Builtin.range.call (arguments ⟨1e16, 1e16, 5e-324⟩)).run = none := by
  decide +kernel

end PlotLisp.Sequence.Interval
