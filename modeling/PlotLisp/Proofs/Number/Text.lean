import Mathlib.Data.List.TakeDrop
import Mathlib.Tactic.IntervalCases
import PlotLisp.Atom
import PlotLisp.Proofs.Number.Exact

/-!
# Written numbers read back

The written form of a finite number is the notation of some decimal: the first one of a
search that reads back as the number, or the one with all its digits, which always does.
-/

namespace PlotLisp.Number

open Float.Model (UnpackedFloat)
open Float.Model.UnpackedFloat (Sign)

namespace Decimal

/-- Digits end where something else begins. -/
theorem spanDigits_append {digits tail : List Char} (all : ∀ c ∈ digits, c.isDigit = true)
    (stops : ∀ first ∈ tail.head?, first.isDigit = false) :
    spanDigits (digits ++ tail) = (digits, tail) := by
  rw [spanDigits, List.span_eq_takeWhile_dropWhile, List.takeWhile_append_of_pos all,
    List.dropWhile_append_of_pos all]
  cases tail with
  | nil => simp
  | cons first rest => simp [stops first rfl]

/-- Only a minus sign in front of digits makes a decimal negative. -/
theorem readSign_signed {negative : Bool} {first : Char} {rest : List Char}
    (digit : first.isDigit = true) :
    readSign (if negative then '-' :: first :: rest else first :: rest) =
      (negative, first :: rest) := by
  cases negative with
  | true => rfl
  | false =>
      unfold readSign
      split
      · next same => cases same; cases digit
      · next same => cases same; cases digit
      · rfl

/-- Digits with a fraction behind them, or with nothing, are a numeral, and so they are with an
exponent. -/
theorem read?_signed {negative : Bool} {whole tail fraction behind : List Char} {exponent : Int}
    (some : whole ≠ []) (digits : ∀ c ∈ whole, c.isDigit = true)
    (stops : ∀ first ∈ tail.head?, first.isDigit = false)
    (rest : readFraction tail = (fraction, behind))
    (scale : readExponent behind = .some exponent) :
    read? (if negative then '-' :: (whole ++ tail) else whole ++ tail) =
      .some ⟨negative, Nat.ofDigitChars 10 (whole ++ fraction) 0, exponent - fraction.length⟩ := by
  obtain ⟨first, others, rfl⟩ := List.exists_cons_of_ne_nil some
  have sign := @readSign_signed negative first (others ++ tail) (digits first List.mem_cons_self)
  rw [← List.cons_append] at sign
  simp only [read?, sign, spanDigits_append digits stops, rest, scale]
  simp

/-- A fraction behind its point; without digits there is no point. -/
def pointed (fraction : List Char) : List Char :=
  if fraction = [] then [] else '.' :: fraction

/-- The reader of fractions takes back exactly the written digits, and stops at the exponent or at
the end. -/
theorem readFraction_pointed {fraction behind : List Char}
    (digits : ∀ c ∈ fraction, c.isDigit = true) (ends : ∀ first ∈ behind.head?, first = 'e') :
    readFraction (pointed fraction ++ behind) = (fraction, behind) := by
  unfold pointed
  split
  · next empty =>
      subst empty
      unfold readFraction
      split
      · next point => cases ends '.' (by rw [← List.nil_append behind, point]; rfl)
      · rfl
  · exact spanDigits_append digits fun first member => ends first member ▸ rfl

/-- What follows the whole digits of a numeral starts with a point or the exponent's letter, never
with a digit. -/
theorem stops_pointed {fraction behind : List Char} (ends : ∀ first ∈ behind.head?, first = 'e') :
    ∀ first ∈ (pointed fraction ++ behind).head?, first.isDigit = false := by
  unfold pointed
  split
  · exact fun first member => ends first member ▸ rfl
  · rintro _ ⟨⟩
    rfl

/-- Digits written behind zeros that pad them are digits throughout. -/
theorem isDigit_of_mem_padded {digits zeros : Nat} {c : Char}
    (member : c ∈ List.replicate zeros '0' ++ Nat.toDigits 10 digits) : c.isDigit = true := by
  rcases List.mem_append.mp member with padding | written
  · exact List.eq_of_mem_replicate padding ▸ rfl
  · exact Nat.isDigit_of_mem_toDigits (by decide) (by decide) written

/-- Only zero is written with a zero in front. -/
theorem eq_zero_of_head?_toDigits {n : Nat} (zero : (Nat.toDigits 10 n).head? = some '0') :
    n = 0 := by
  induction n using Nat.strongRecOn with
  | ind n inductionHypothesis =>
      by_cases single : n < 10
      · rw [Nat.toDigits_of_lt_base single] at zero
        by_contra nonzero
        revert zero
        interval_cases n <;> simp_all
      · rw [Nat.toDigits_of_base_le (by decide) (by omega),
          List.head?_append_of_ne_nil _ Nat.toDigits_ne_nil] at zero
        have := inductionHypothesis (n / 10) (by omega) zero
        omega

/-- The digits before the point, without a needless zero in front, and those behind it. A decimal
that does not end left of the point has all its digits written. -/
theorem exists_unsignedText (decimal : Decimal) :
    ∃ whole fraction, decimal.unsignedText = whole ++ pointed fraction ∧ whole ≠ [] ∧
      (∀ c ∈ whole ++ fraction, c.isDigit = true) ∧
      (decimal.exponent ≤ 0 → (whole.head? = some '0' → whole = ['0']) ∧
        -(fraction.length : Int) = decimal.exponent ∧
        Nat.ofDigitChars 10 (whole ++ fraction) 0 = decimal.digits) := by
  obtain ⟨negative, digits, zeros | places⟩ := decimal
  · refine ⟨Nat.toDigits 10 digits ++ List.replicate zeros '0', [], (List.append_nil _).symm,
      ?_, ?_, ?_⟩
    · exact List.append_ne_nil_of_left_ne_nil Nat.toDigits_ne_nil _
    · intro c member
      rw [List.append_nil] at member
      exact isDigit_of_mem_padded (List.mem_append.mpr (List.mem_append.mp member).symm)
    · intro (fraction : (zeros : Int) ≤ 0)
      obtain rfl : zeros = 0 := by omega
      rw [List.replicate_zero, List.append_nil]
      refine ⟨fun zero => ?_, rfl, ?_⟩
      · rw [eq_zero_of_head?_toDigits zero]
        rfl
      · rw [List.append_nil, Nat.ofDigitChars_toDigits (by decide) (by decide)]
  · let written := Nat.toDigits 10 digits
    let padded := List.replicate (places + 2 - written.length) '0' ++ written
    have long : places + 2 ≤ padded.length := by
      simp only [padded, List.length_append, List.length_replicate]
      omega
    have behind : (padded.drop (padded.length - (places + 1))).length = places + 1 := by
      rw [List.length_drop]
      omega
    have some : padded.drop (padded.length - (places + 1)) ≠ [] := by
      intro empty
      rw [empty] at behind
      cases behind
    refine ⟨padded.take (padded.length - (places + 1)), padded.drop (padded.length - (places + 1)),
      ?_, ?_, ?_, ?_⟩
    · rw [pointed, if_neg some]
      rfl
    · intro empty
      have length := congrArg List.length empty
      rw [List.length_take, List.length_nil] at length
      omega
    · rw [List.take_append_drop]
      exact fun c => isDigit_of_mem_padded
    · intro _
      refine ⟨?_, ?_⟩
      · intro zero
        rw [List.head?_take, if_neg (by omega)] at zero
        -- Zeros are put in front of few digits only, and then one of them is left of the point.
        by_cases few : written.length < places + 2
        · have single : padded.length - (places + 1) = 1 := by
            simp only [padded, List.length_append, List.length_replicate]
            omega
          rw [single, List.take_one, zero]
          rfl
        · have none : places + 2 - written.length = 0 := by omega
          simp only [padded, none, List.replicate_zero, List.nil_append, written] at zero
          have short : written.length = 1 := by
            simp [written, eq_zero_of_head?_toDigits zero]
          omega
      · rw [List.take_append_drop, behind]
        refine ⟨rfl, ?_⟩
        simp [padded, written, Nat.ofDigitChars_append]

/-- A written fraction consists of its digits and at most the point. -/
theorem mem_pointed {fraction : List Char} {c : Char} (member : c ∈ pointed fraction) :
    c = '.' ∨ c ∈ fraction := by
  unfold pointed at member
  split at member
  · cases member
  · exact List.mem_cons.mp member

/-- The notation of a decimal begins with a digit, behind a minus sign if it is negative,
and has nothing in it but digits and a point. -/
theorem unsignedText_eq_cons (decimal : Decimal) :
    ∃ first rest, decimal.unsignedText = first :: rest ∧ first.isDigit = true ∧
      ∀ c ∈ rest, c = '.' ∨ c.isDigit = true := by
  obtain ⟨whole, fraction, written, some, digits, -⟩ := decimal.exists_unsignedText
  obtain ⟨first, others, rfl⟩ := List.exists_cons_of_ne_nil some
  refine ⟨first, others ++ pointed fraction, written, digits first List.mem_cons_self, ?_⟩
  intro c member
  rcases List.mem_append.mp member with before | behind
  · exact .inr (digits c (List.mem_cons_of_mem _ (List.mem_append_left _ before)))
  · exact (mem_pointed behind).imp_right fun inside =>
      digits c (List.mem_append_right _ inside)

/-- A decimal that ends at the point or behind it reads back as itself. -/
theorem read?_text {decimal : Decimal} (fraction : decimal.exponent ≤ 0) :
    read? decimal.text = some decimal := by
  obtain ⟨whole, behind, written, some, digits, exact⟩ := decimal.exists_unsignedText
  obtain ⟨-, places, value⟩ := exact fraction
  have before : ∀ c ∈ whole, c.isDigit = true := fun c member =>
    digits c (List.mem_append_left _ member)
  have after : ∀ c ∈ behind, c.isDigit = true := fun c member =>
    digits c (List.mem_append_right _ member)
  have read := @read?_signed decimal.negative whole _ behind [] 0 some before
    (stops_pointed (by simp)) (readFraction_pointed after (by simp)) rfl
  rw [List.append_nil, zero_sub, places, value] at read
  rw [text, written, read]

end Decimal

section ExactDecimal

variable {x : Float} {sign : Sign} {mantissa : Nat} {exponent : Int} {positive : 0 < mantissa}

/-- Either zero has the exact decimal without digits, under its own sign. -/
theorem exactDecimal_zero (zero : decoded x = .zero sign) :
    exactDecimal x = ⟨isNegative x, 0, 0⟩ := by
  rw [exactDecimal, zero]
  rfl

/-- The exact decimal of a number without binary places is its mantissa shifted into place. -/
theorem exactDecimal_whole (number : decoded x = .finite sign mantissa exponent positive)
    (whole : 0 ≤ exponent) :
    exactDecimal x = ⟨isNegative x, mantissa <<< exponent.toNat, 0⟩ := by
  rw [exactDecimal, number]
  exact if_pos whole

/-- A number with binary places becomes a decimal by multiplying with as many fives. -/
theorem exactDecimal_fraction (number : decoded x = .finite sign mantissa exponent positive)
    (fraction : ¬ 0 ≤ exponent) :
    exactDecimal x = ⟨isNegative x, mantissa * Nat.pow 5 (-exponent).toNat, exponent⟩ := by
  rw [exactDecimal, number]
  exact if_neg fraction

end ExactDecimal

/-- All digits of a finite number read back as the number. -/
theorem read?_exactDecimal {x : Float} (finite : x.isFinite = true) :
    read? (exactDecimal x).text = some x := by
  obtain ⟨same, zero | ⟨mantissa, exponent, canonical, number⟩⟩ := decoded_of_isFinite finite
  · rw [read?, exactDecimal_zero zero, Decimal.read?_text (Int.le_refl 0), Option.map_some]
    exact congrArg some ((neg_encoded_zero (isNegative x)).trans (zero ▸ same))
  · have signed := (canonical.neg_encoded (isNegative x)).trans (number ▸ same)
    by_cases whole : 0 ≤ exponent
    · rw [read?, exactDecimal_whole number whole, Decimal.read?_text (Int.le_refl 0),
        Option.map_some, Decimal.toFloat]
      simp only [canonical.ofScientific_whole whole, signed]
    · have below : exponent ≤ 0 := by omega
      have places : exponent = -((-exponent).toNat : Int) := by omega
      rw [read?, exactDecimal_fraction number whole, Decimal.read?_text below, Option.map_some,
        Decimal.toFloat]
      simp only [canonical.ofScientific_fraction places (by omega), signed]

/-- The exact decimal carries the sign of its number. -/
theorem negative_exactDecimal (x : Float) : (exactDecimal x).negative = isNegative x := by
  unfold exactDecimal
  split
  split <;> rfl

/-- Dropping zeros leaves the sign alone. -/
theorem negative_trimmedWithin (count : Nat) (decimal : Decimal) :
    (Decimal.trimmedWithin count decimal).negative = decimal.negative := by
  induction count generalizing decimal with
  | zero => rfl
  | succ count inductionHypothesis =>
      unfold Decimal.trimmedWithin
      split
      · exact inductionHypothesis _
      · rfl

/-- Both neighbours on a decimal grid carry the sign they were asked for. -/
theorem negative_of_mem_neighbours {negative : Bool} {value : Ratio} {last : Int}
    {decimal : Decimal} (member : decimal ∈ neighbours negative value last) :
    decimal.negative = negative := by
  unfold neighbours at member
  dsimp only at member
  split at member
  all_goals
    simp only [List.mem_cons, List.not_mem_nil, or_false] at member
    rcases member with rfl | rfl <;> rfl

/-- What a search finds carries the sign of the number searched for. -/
theorem negative_of_search {x : Float} {value : Ratio} {count : Nat} {last : Int}
    {decimal : Decimal} (found : search x value count last = some decimal) :
    decimal.negative = isNegative x := by
  induction count generalizing last with
  | zero => cases found
  | succ count inductionHypothesis =>
      unfold search at found
      split at found
      · next first =>
          cases found
          obtain ⟨candidate, neighbour, rfl⟩ := List.mem_map.mp (List.mem_of_find?_eq_some first)
          exact (negative_trimmedWithin _ candidate).trans (negative_of_mem_neighbours neighbour)
      · exact inductionHypothesis found

/-- The shortest decimal carries the sign of its number, the negative zero's included. -/
theorem negative_shortest (x : Float) : (shortest x).negative = isNegative x := by
  rw [shortest]
  cases found : search x (exactSize x) enoughDigits (exactSize x).decimalExponent with
  | some decimal => exact negative_of_search found
  | none => exact negative_exactDecimal x

/-- The search gives only what reads back. -/
theorem readsBack_of_search {x : Float} {value : Ratio} {count : Nat} {last : Int}
    {decimal : Decimal} (found : search x value count last = some decimal) :
    readsBack x decimal = true := by
  induction count generalizing last with
  | zero => cases found
  | succ count inductionHypothesis =>
      unfold search at found
      split at found
      · next first =>
          cases found
          exact List.find?_some first
      · exact inductionHypothesis found

/-- Reading the shortest text of a finite double gives back that very double. -/
theorem read?_shortest {x : Float} (finite : x.isFinite = true) :
    read? (shortest x).text = some x := by
  rw [shortest]
  cases found : search x (exactSize x) enoughDigits (exactSize x).decimalExponent with
  | some decimal => exact of_decide_eq_true (readsBack_of_search found)
  | none => exact read?_exactDecimal finite

/-- Only the two zeros equal zero. -/
theorem exactDecimal_of_eq_zero {x : Float} (finite : x.isFinite = true)
    (zero : (x == 0) = true) : exactDecimal x = ⟨isNegative x, 0, 0⟩ := by
  obtain ⟨-, zero | ⟨mantissa, exponent, canonical, number⟩⟩ := decoded_of_isFinite finite
  · exact exactDecimal_zero zero
  · have compared : ((decoded x).compare (.zero .positive) == some .eq) = true := zero
    have different : ∀ sign, ((UnpackedFloat.finite sign mantissa exponent
        canonical.positive).compare (.zero .positive) == some .eq) = false := by
      rintro (_ | _) <;> rfl
    rw [number, different] at compared
    cases compared

/-- The written form of a finite number is the notation of a decimal that has its sign
and reads back as the number. -/
theorem exists_decimal {x : Float} (finite : x.isFinite = true) :
    ∃ decimal : Decimal, decimal.negative = isNegative x ∧
      (text x).toList = decimal.text ∧ read? decimal.text = some x := by
  have special : (decoded x).isNaN = false ∧ (decoded x).isInf = false := by
    obtain ⟨-, zero | ⟨mantissa, exponent, canonical, number⟩⟩ := decoded_of_isFinite finite
    · rw [zero]
      exact ⟨rfl, rfl⟩
    · rw [number]
      exact ⟨rfl, rfl⟩
  have number : x.isNaN = false := special.1
  have bounded : x.isInf = false := special.2
  rw [text, if_neg (Bool.not_eq_true _ ▸ number), if_neg (Bool.not_eq_true _ ▸ bounded)]
  split
  · next zero =>
      refine ⟨exactDecimal x, negative_exactDecimal x, ?_, read?_exactDecimal finite⟩
      rw [exactDecimal_of_eq_zero finite zero]
      cases isNegative x <;> rfl
  · exact ⟨shortest x, negative_shortest x, String.toList_ofList, read?_shortest finite⟩

/-- The written form of a finite number denotes the number, bit for bit. -/
theorem numeral?_text {x : Float} (finite : x.isFinite = true) :
    Atom.numeral? (text x) = some x := by
  obtain ⟨decimal, -, written, readBack⟩ := exists_decimal finite
  rw [Atom.numeral?, written, readBack]

/-! ## Words that are no numerals -/

namespace Decimal

/-- The characters of numerals. -/
def isNumeric (character : Char) : Bool :=
  character.isDigit || character == '-' || character == '+' || character == '.' ||
    character == 'e' || character == 'E'

variable {input : List Char} {c : Char}

/-- What the reader of a sign takes is a character of numerals. -/
theorem mem_readSign (member : c ∈ input) :
    isNumeric c = true ∨ c ∈ (readSign input).2 := by
  unfold readSign
  split
  · rcases List.mem_cons.mp member with rfl | behind
    · exact .inl rfl
    · exact .inr behind
  · rcases List.mem_cons.mp member with rfl | behind
    · exact .inl rfl
    · exact .inr behind
  · exact .inr member

/-- What the reader of digits takes are characters of numerals. -/
theorem mem_spanDigits (member : c ∈ input) :
    isNumeric c = true ∨ c ∈ (spanDigits input).2 := by
  rw [spanDigits, List.span_eq_takeWhile_dropWhile]
  rw [← List.takeWhile_append_dropWhile (p := Char.isDigit) (l := input)] at member
  refine (List.mem_append.mp member).imp_left fun digits => ?_
  rw [isNumeric, List.all_eq_true.mp List.all_takeWhile c digits]
  rfl

/-- What the reader of a fraction takes are characters of numerals. -/
theorem mem_readFraction (member : c ∈ input) :
    isNumeric c = true ∨ c ∈ (readFraction input).2 := by
  unfold readFraction
  split
  · rcases List.mem_cons.mp member with rfl | digits
    · exact .inl rfl
    · exact mem_spanDigits digits
  · exact .inr member

/-- Where an exponent is read nothing is left behind, so every character belongs to numerals. -/
theorem isNumeric_of_readExponent {exponent : Int} (read : readExponent input = some exponent)
    (member : c ∈ input) : isNumeric c = true := by
  unfold readExponent at read
  split at read
  · cases member
  · next letter rest =>
      split at read
      · next marked =>
          rcases List.mem_cons.mp member with rfl | behind
          · rcases marked with rfl | rfl <;> rfl
          · refine (mem_readSign behind).elim id fun unsigned => ?_
            refine (mem_spanDigits unsigned).elim id fun left => ?_
            dsimp only at read
            split at read
            · cases read
            · next complete => simp_all
      · cases read

/-- A numeral has no other characters. -/
theorem isNumeric_of_read? {decimal : Decimal} (read : read? input = some decimal) :
    ∀ c ∈ input, isNumeric c = true := by
  intro c member
  unfold read? at read
  dsimp only at read
  split at read
  · cases read
  · obtain ⟨exponent, found, -⟩ := Option.map_eq_some_iff.mp read
    refine (mem_readSign member).elim id fun unsigned => ?_
    refine (mem_spanDigits unsigned).elim id fun behind => ?_
    exact (mem_readFraction behind).elim id (isNumeric_of_readExponent found)

end Decimal

end PlotLisp.Number
