import PlotLisp.Proofs.Number.Significant
import PlotLisp.Proofs.Number.Text

/-!
# Positional and scientific notation

Both notations of a size are unambiguous: no needless zero stands in front of the whole part or at
the end of the fraction, and an exponent is padded to two digits and no further. A signed text
of either notation reads back as the size that it is a notation of.
-/

namespace PlotLisp.Number

open Float.Model (UnpackedFloat)

variable {size : ℚ} {negative : Bool} {text : List Char} {x : Float} {count : ℕ} {r : ℚ}
  {first : ℤ}

/-! ## Notations of sizes -/

/-- Digits before and behind a point that denote a size, without a needless zero: only a zero
alone begins with one, and the fraction does not end in one. -/
structure Denotes (whole fraction : List Char) (size : ℚ) : Prop where
  nonempty : whole ≠ []
  digits : ∀ c ∈ whole ++ fraction, c.isDigit = true
  leading : whole.head? = some '0' → whole = ['0']
  trailing : fraction.getLast? ≠ some '0'
  exact : Nat.ofDigitChars 10 (whole ++ fraction) 0 * 10 ^ (-fraction.length : ℤ) = size

/-- Positional notation: the point stands only where a fraction is behind it. -/
def IsPositional (size : ℚ) (text : List Char) : Prop :=
  ∃ whole fraction, Denotes whole fraction size ∧ text = whole ++ Decimal.pointed fraction

/-- Scientific notation: a mantissa, the letter, the sign of the exponent, and its digits, at
least two and no more than needed then. -/
def IsScientific (exponent : ℤ) (size : ℚ) (text : List Char) : Prop :=
  ∃ mantissa digits, IsPositional (size / 10 ^ exponent) mantissa ∧
    text = mantissa ++ 'e' :: (if exponent < 0 then '-' else '+') :: digits ∧
    (∀ c ∈ digits, c.isDigit = true) ∧ 2 ≤ digits.length ∧
    (2 < digits.length → digits.head? ≠ some '0') ∧
    Nat.ofDigitChars 10 digits 0 = exponent.natAbs

namespace Decimal

variable {decimal : Decimal} {fuel : ℕ}

/-! ## Dropped zeros -/

/-- Dropping zeros at the end changes nothing in the size of a decimal. -/
theorem size_trimmedWithin (fuel : ℕ) (decimal : Decimal) :
    (trimmedWithin fuel decimal).size = decimal.size := by
  induction fuel generalizing decimal with
  | zero => rfl
  | succ fuel inductionHypothesis =>
      unfold trimmedWithin
      split
      case isFalse => rfl
      case isTrue zero =>
        have digits : (decimal.digits : ℚ) = (decimal.digits / 10 : ℕ) * 10 := by
          exact_mod_cast (Nat.div_mul_cancel (Nat.dvd_of_mod_eq_zero zero.2)).symm
        rw [inductionHypothesis, Decimal.size, Decimal.size, zpow_add_one₀ (by norm_num), digits]
        ring

/-- Dropping zeros never turns a fraction's exponent positive. -/
theorem exponent_trimmedWithin (fraction : decimal.exponent ≤ 0) :
    (trimmedWithin fuel decimal).exponent ≤ 0 := by
  induction fuel generalizing decimal with
  | zero => exact fraction
  | succ fuel inductionHypothesis =>
      unfold trimmedWithin
      split
      · exact inductionHypothesis (by dsimp only; omega)
      · exact fraction

/-- As many steps as there are places drop every zero at the end. -/
theorem trimmedWithin_last (fraction : decimal.exponent ≤ 0)
    (enough : decimal.exponent.natAbs ≤ fuel) :
    (trimmedWithin fuel decimal).exponent = 0 ∨ (trimmedWithin fuel decimal).digits % 10 ≠ 0 := by
  induction fuel generalizing decimal with
  | zero => exact .inl (by rw [trimmedWithin]; omega)
  | succ fuel inductionHypothesis =>
      unfold trimmedWithin
      split
      case isTrue => exact inductionHypothesis (by dsimp only; omega) (by dsimp only; omega)
      case isFalse kept =>
        rcases not_and_or.mp kept with whole | last
        · exact .inl (by omega)
        · exact .inr last

/-- A decimal that ends at the point or behind it, and not with a zero there, is written in
positional notation. -/
theorem isPositional_unsignedText (fraction : decimal.exponent ≤ 0)
    (last : decimal.exponent = 0 ∨ decimal.digits % 10 ≠ 0) :
    IsPositional decimal.size decimal.unsignedText := by
  obtain ⟨whole, behind, written, some, digits, exact⟩ := decimal.exists_unsignedText
  obtain ⟨leading, places, value⟩ := exact fraction
  refine ⟨whole, behind, ⟨some, digits, leading, fun zero => ?_, ?_⟩, written⟩
  · obtain ⟨front, rfl⟩ := List.getLast?_eq_some_iff.mp zero
    rcases last with whole | last
    · simp at places
      omega
    · rw [← List.append_assoc, Nat.ofDigitChars_append] at value
      simp [Nat.ofDigitChars_cons] at value
      omega
  · rw [value, places, Decimal.size]

/-- The text of a trimmed decimal without trailing places is in positional notation and denotes the
decimal. -/
theorem isPositional_trimmed (fraction : decimal.exponent ≤ 0) :
    IsPositional decimal.size decimal.trimmed.unsignedText := by
  have trimmed := isPositional_unsignedText (exponent_trimmedWithin fraction)
    (trimmedWithin_last fraction le_rfl)
  rwa [size_trimmedWithin] at trimmed

/-- A decimal is written as its sign and the text of its size. -/
theorem text_trimmed (decimal : Decimal) :
    decimal.trimmed.text = if decimal.negative then '-' :: decimal.trimmed.unsignedText
      else decimal.trimmed.unsignedText := by
  rw [text, trimmed, negative_trimmedWithin]

end Decimal

/-- The written exponent has its sign, at least two digits, and no zero before more than two. -/
theorem exponentText_spec (exponent : ℤ) :
    ∃ digits, exponentText exponent = (if exponent < 0 then '-' else '+') :: digits ∧
      (∀ c ∈ digits, c.isDigit = true) ∧ 2 ≤ digits.length ∧
      (2 < digits.length → digits.head? ≠ some '0') ∧
      Nat.ofDigitChars 10 digits 0 = exponent.natAbs := by
  refine ⟨_, rfl, fun c => Decimal.isDigit_of_mem_padded, ?_, ?_, ?_⟩
  · rw [List.length_append, List.length_replicate]
    omega
  · intro long zero
    rw [List.length_append, List.length_replicate] at long
    rw [Nat.sub_eq_zero_of_le (by omega), List.replicate_zero, List.nil_append] at zero
    have none := Decimal.eq_zero_of_head?_toDigits zero
    simp [none] at long
  · simp [Nat.ofDigitChars_append]

/-! ## Reading back -/

/-- A written exponent is read back, both with its plus and with its minus sign. -/
theorem Decimal.readExponent_signed {exponent : ℤ} {digits : List Char} (some : digits ≠ [])
    (all : ∀ c ∈ digits, c.isDigit = true)
    (exact : Nat.ofDigitChars 10 digits 0 = exponent.natAbs) :
    Decimal.readExponent ('e' :: (if exponent < 0 then '-' else '+') :: digits) =
      .some exponent := by
  have whole := @Decimal.spanDigits_append digits [] all (by simp)
  rw [List.append_nil] at whole
  have nonempty : digits.isEmpty = false := by simpa using some
  split
  case isTrue below =>
    simp [Decimal.readExponent, Decimal.readSign, whole, nonempty, exact, abs_of_neg below]
  case isFalse above =>
    simp [Decimal.readExponent, Decimal.readSign, whole, nonempty, exact,
      abs_of_nonneg (not_lt.mp above)]

/-- A signed notation and what scales it read back as the size that they denote together. -/
theorem Denotes.read {whole fraction behind : List Char} {exponent : ℤ}
    (denotes : Denotes whole fraction size) (ends : ∀ first ∈ behind.head?, first = 'e')
    (scale : Decimal.readExponent behind = some exponent) (negative : Bool) :
    ∃ decimal, Decimal.read? (if negative then
          '-' :: (whole ++ (Decimal.pointed fraction ++ behind))
        else whole ++ (Decimal.pointed fraction ++ behind)) = some decimal ∧
      decimal.negative = negative ∧ decimal.size = size * 10 ^ exponent := by
  have before : ∀ c ∈ whole, c.isDigit = true := fun c member =>
    denotes.digits c (List.mem_append_left _ member)
  have after : ∀ c ∈ fraction, c.isDigit = true := fun c member =>
    denotes.digits c (List.mem_append_right _ member)
  refine ⟨_, Decimal.read?_signed denotes.nonempty before (Decimal.stops_pointed ends)
    (Decimal.readFraction_pointed after ends) scale, rfl, ?_⟩
  rw [← denotes.exact, mul_assoc, ← zpow_add₀ (by norm_num), neg_add_eq_sub]
  rfl

/-- Positional notation is read back with its size and sign. -/
theorem IsPositional.read (written : IsPositional size text) (negative : Bool) :
    ∃ decimal, Decimal.read? (if negative then '-' :: text else text) = some decimal ∧
      decimal.negative = negative ∧ decimal.size = size := by
  obtain ⟨whole, fraction, denotes, rfl⟩ := written
  have read := @denotes.read _ _ _ [] 0 (by simp) rfl negative
  rwa [List.append_nil, zpow_zero, mul_one] at read

/-- Scientific notation is read back with its size and sign, whatever the exponent. -/
theorem IsScientific.read {exponent : ℤ} (written : IsScientific exponent size text)
    (negative : Bool) :
    ∃ decimal, Decimal.read? (if negative then '-' :: text else text) = some decimal ∧
      decimal.negative = negative ∧ decimal.size = size := by
  obtain ⟨-, digits, ⟨whole, fraction, denotes, rfl⟩, rfl, all, several, -, exact⟩ := written
  have scale := Decimal.readExponent_signed (List.length_pos_iff.mp (by omega)) all exact
  obtain ⟨decimal, read, sign, scaled⟩ := denotes.read (by simp) scale negative
  rw [← List.append_assoc] at read
  exact ⟨decimal, read, sign, by rw [scaled, div_mul_cancel₀ _ (by positivity)]⟩

/-! ## Significant digits -/

/-- Both branches write the same rounded number, each with the places of its notation. -/
theorem toList_significantText (finite : x.isFinite = true) (nonzero : value x ≠ 0)
    (some : 0 < max count 1) (place : first = Int.log 10 |significant (max count 1) (value x)|) :
    (significantText x count).toList =
      if -4 ≤ first ∧ first < max count 1 then (roundedTo (max count 1) x).trimmed.text
      else Decimal.text (Decimal.trimmed
        { roundedTo (max count 1) x with exponent := -((max count 1 - 1 : ℕ) : ℤ) }) ++
          'e' :: exponentText first := by
  have log := log_significant finite nonzero some
  rw [← place] at log
  have different : ¬ (x == 0) = true := by rwa [beq_iff_value finite rfl, value_zero]
  rw [significantText, if_neg different, if_neg (by rw [finite]; decide)]
  dsimp only
  rw [← log]
  split
  case isTrue outside => rw [if_neg (by omega), String.toList_ofList]
  case isFalse inside =>
    have asked : (roundedTo (max count 1) x).exponent =
        -((max count 1 - 1 - first).toNat : ℤ) := by omega
    rw [if_pos (by omega), String.toList_ofList,
      roundedAt_eq_roundedTo finite nonzero some asked]

/-- The text is a notation of the rounded size, with the sign of the number in front. -/
theorem exists_notation (finite : x.isFinite = true) (nonzero : value x ≠ 0)
    (rounded : r = significant (max count 1) (value x)) (place : first = Int.log 10 |r|) :
    ∃ written, (significantText x count).toList =
        (if isNegative x then '-' :: written else written) ∧
      if -4 ≤ first ∧ first < max count 1 then IsPositional |r| written
        else IsScientific first |r| written := by
  subst rounded
  have some : 0 < max count 1 := by omega
  obtain ⟨sign, -⟩ := roundedTo_spec finite nonzero some
  have size := abs_significant finite nonzero some
  have log := log_significant finite nonzero some
  rw [← place] at log
  rw [toList_significantText finite nonzero some place]
  by_cases inside : -4 ≤ first ∧ first < max count 1
  · have exponent : (roundedTo (max count 1) x).exponent ≤ 0 := by omega
    have written := Decimal.isPositional_trimmed exponent
    rw [← size] at written
    simp only [if_pos inside, Decimal.text_trimmed, sign]
    exact ⟨_, rfl, written⟩
  · -- In scientific notation the same digits are written with the point behind the first.
    set mantissa : Decimal :=
      { roundedTo (max count 1) x with exponent := -((max count 1 - 1 : ℕ) : ℤ) }
    have places : mantissa.exponent = -((max count 1 - 1 : ℕ) : ℤ) := rfl
    have scaled : mantissa.size = |significant (max count 1) (value x)| / 10 ^ first := by
      have exponent : mantissa.exponent = (roundedTo (max count 1) x).exponent - first := by omega
      rw [size, Decimal.size, Decimal.size, mul_div_assoc, ← zpow_sub₀ (by norm_num), exponent]
    have written := Decimal.isPositional_trimmed (show mantissa.exponent ≤ 0 by omega)
    rw [scaled] at written
    obtain ⟨digits, text, parts⟩ := exponentText_spec first
    simp only [if_neg inside, Decimal.text_trimmed, text]
    refine ⟨_, ?_, _, digits, written, rfl, parts⟩
    have signed : mantissa.negative = isNegative x := sign
    rw [signed]
    split <;> rfl

/-- A number with significant digits is the number rounded to that many of them, in positional
notation where the first digit stands between the fourth place behind the point and the last of
the digits, and in scientific notation elsewhere. The text reads back as the rounded number, with
the sign of the number. -/
theorem significantText_writes_rounded (x : Float) (count : ℕ) (finite : x.isFinite = true)
    (nonzero : value x ≠ 0) (rounded : r = significant (max count 1) (value x))
    (place : first = Int.log 10 |r|) :
    ∃ written : List Char,
      (significantText x count).toList = (if value x < 0 then '-' :: written else written) ∧
      (if -4 ≤ first ∧ first < max count 1 then IsPositional |r| written
        else IsScientific first |r| written) ∧
      ∃ decimal, Decimal.read? (significantText x count).toList = some decimal ∧
        decimal.value = r ∧ (decimal.negative = true ↔ value x < 0) := by
  obtain ⟨-, -, negative⟩ := exactSize_spec finite nonzero
  obtain ⟨written, text, shape⟩ := exists_notation finite nonzero rounded place
  obtain ⟨decimal, read, signed, sized⟩ : ∃ decimal,
      Decimal.read? (if isNegative x then '-' :: written else written) = some decimal ∧
        decimal.negative = isNegative x ∧ decimal.size = |r| := by
    split at shape
    · exact shape.read _
    · exact shape.read _
  have exact : decimal.value = r := by
    have some : 0 < max count 1 := by omega
    obtain ⟨sign, -⟩ := roundedTo_spec finite nonzero some
    rw [Decimal.value, sized, signed, ← sign, rounded, abs_significant finite nonzero some,
      ← value_roundedTo finite nonzero some, Decimal.value]
  exact ⟨written, by simp only [text, negative], shape, decimal, text ▸ read, exact,
    signed ▸ negative⟩

/-- To two digits, a number next to ten is rounded up to ten, and so ten has no place behind the
point. -/
theorem nearly_ten_is_written_as_ten :
    value 9.96875 = 319 / 32 ∧ significant 2 (319 / 32) = 10 ∧
      ∃ written, (significantText 9.96875 2).toList = written ∧ IsPositional 10 written ∧
        ∃ decimal, Decimal.read? (significantText 9.96875 2).toList = some decimal ∧
          decimal.value = 10 ∧ ¬ decimal.negative = true := by
  have number : value 9.96875 = 319 / 32 := by
    have shape : decoded 9.96875 = .finite .positive 5611907348168704 (-49) (by decide) := rfl
    rw [value, shape, exactValue_positive]
    norm_num
  have carried : significant 2 (319 / 32) = 10 := by
    have log : Int.log 10 (319 / 32 : ℚ) = 0 := log_ten_eq (by norm_num) (by norm_num) (by norm_num)
    have digits : significand 2 (319 / 32) = 100 := by
      refine roundEven_eq_of_abs_sub_lt (by positivity) ?_
      norm_num [lastPlace, log, abs_lt]
    norm_num [significant, digits, lastPlace, log]
  have place : Int.log 10 |(10 : ℚ)| = 1 := by
    rw [abs_of_pos (by norm_num)]
    exact log_ten_eq (by norm_num) (by norm_num) (by norm_num)
  obtain ⟨written, text, shape, decimal, read, exact, sign⟩ :=
    significantText_writes_rounded 9.96875 2 (by decide) (by rw [number]; norm_num)
      ((congrArg (significant 2) number).trans carried).symm place.symm
  rw [number, if_neg (by norm_num)] at text
  rw [if_pos (by decide), abs_of_pos (by norm_num)] at shape
  rw [number] at sign
  exact ⟨number, carried, written, text, shape, decimal, read, exact, mt sign.mp (by norm_num)⟩

end PlotLisp.Number
