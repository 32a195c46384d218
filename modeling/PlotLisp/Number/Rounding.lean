import PlotLisp.Number.Decimal

/-!
# Rounding to significant decimal digits

A finite nonzero number is an exact fraction. Its decimal exponent locates the
first digit, and a decimal grid with a given count of significant digits brackets
the fraction between two neighbours. Everything here is integer arithmetic.
-/

namespace PlotLisp.Number

/-- The power of ten with the given exponent. -/
def powerOfTen (exponent : Nat) : Nat :=
  Nat.pow 10 exponent

/-- A positive exact value `numerator / denominator`. -/
structure Ratio where
  numerator : Nat
  denominator : Nat
  deriving DecidableEq

namespace Ratio

/-- The size of a significand and a binary exponent. -/
def ofBinary (mantissa : Nat) (exponent : Int) : Ratio :=
  if 0 ≤ exponent then ⟨mantissa <<< exponent.toNat, 1⟩
  else ⟨mantissa, 1 <<< (-exponent).toNat⟩

/-- The value times a power of ten. -/
def scaled (value : Ratio) (power : Int) : Ratio :=
  if 0 ≤ power then ⟨value.numerator * powerOfTen power.toNat, value.denominator⟩
  else ⟨value.numerator, value.denominator * powerOfTen (-power).toNat⟩

/-- The whole part of the value. -/
def floor (value : Ratio) : Nat :=
  value.numerator / value.denominator

/-- What the whole part leaves, in units of the denominator. -/
def remainder (value : Ratio) : Nat :=
  value.numerator % value.denominator

/-- The nearest whole number; a tie goes to the even one. -/
def rounded (value : Ratio) : Nat :=
  match compare (2 * value.remainder) value.denominator with
  | .lt => value.floor
  | .eq => value.floor + value.floor % 2
  | .gt => value.floor + 1

/-- The power of ten of the first digit: the `X` with `10 ^ X ≤ value < 10 ^ (X + 1)`.
At or above one the whole part has `X + 1` digits; below one, `-X` is the least number
of places after which the value reaches one. -/
def decimalExponent (value : Ratio) : Int :=
  if value.denominator ≤ value.numerator then (Nat.toDigits 10 value.floor).length - 1
  else -((Nat.toDigits 10 ((value.denominator - 1) / value.numerator)).length : Int)

end Ratio

/-- The exact size of a finite number. -/
def exactSize (x : Float) : Ratio :=
  let (mantissa, exponent) := size (decoded x)
  .ofBinary mantissa exponent

/-- A finite nonzero number rounded to `count` significant digits, ties to even.
A carry out of the first digit moves the exponent instead of adding a digit. -/
def roundedTo (count : Nat) (x : Float) : Decimal :=
  let value := exactSize x
  let first := value.decimalExponent
  let last := first - (count - 1)
  let digits := (value.scaled (-last)).rounded
  if digits = powerOfTen count then
    ⟨isNegative x, powerOfTen (count - 1), last + 1⟩
  else
    ⟨isNegative x, digits, last⟩

/-- A finite number rounded to a count of digits behind the point, ties to even. -/
def roundedAt (places : Nat) (x : Float) : Decimal :=
  ⟨isNegative x, ((exactSize x).scaled places).rounded, -places⟩

end PlotLisp.Number
