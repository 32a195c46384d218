import PlotLisp.Number.Arithmetic

/-!
# Decimal numerals

A decimal is a sign, a whole number of digits, and a power of ten. This module
writes one in positional notation and reads one from text. The reader is
authoritative for which words are numbers: an optional sign, digits with at most
one point, at least one digit, and an optional exponent.
-/

namespace PlotLisp.Number

/-- The decimal `±digits · 10 ^ exponent`. -/
structure Decimal where
  negative : Bool
  digits : Nat
  exponent : Int
  deriving DecidableEq

namespace Decimal

/-- The number nearest to a decimal, ties to the even significand. -/
def toFloat (decimal : Decimal) : Float :=
  let size := encoded (.ofScientific .binary64 decimal.digits decimal.exponent)
  if decimal.negative then -size else size

/-- The decimal without the zeros that end its fraction. The count bounds how many
are dropped. -/
def trimmedWithin : Nat → Decimal → Decimal
  | 0, decimal => decimal
  | count + 1, decimal =>
      if decimal.exponent < 0 ∧ decimal.digits % 10 = 0 then
        trimmedWithin count
          { decimal with digits := decimal.digits / 10, exponent := decimal.exponent + 1 }
      else decimal

/-- The decimal without the zeros that end its fraction. Zeros of the whole part
stay, because they are never dropped once the exponent is not negative. -/
def trimmed (decimal : Decimal) : Decimal :=
  trimmedWithin decimal.exponent.natAbs decimal

/-- The digits of a decimal's size in positional notation: a point only before a
fraction, and at least one digit on both sides of it. -/
def unsignedText (decimal : Decimal) : List Char :=
  let written := Nat.toDigits 10 decimal.digits
  match decimal.exponent with
  | .ofNat zeros => written ++ List.replicate zeros '0'
  | .negSucc places =>
      let padded := List.replicate (places + 2 - written.length) '0' ++ written
      let whole := padded.length - (places + 1)
      padded.take whole ++ '.' :: padded.drop whole

/-- Positional notation, with a minus sign for a negative decimal. -/
def text (decimal : Decimal) : List Char :=
  if decimal.negative then '-' :: decimal.unsignedText else decimal.unsignedText

/-- The longest run of digits at the head of the text, and what follows it. -/
def spanDigits (input : List Char) : List Char × List Char :=
  input.span Char.isDigit

/-- An optional sign at the head of the text, and what follows it. -/
def readSign : List Char → Bool × List Char
  | '-' :: rest => (true, rest)
  | '+' :: rest => (false, rest)
  | input => (false, input)

/-- An exponent that fills the whole text: nothing at all, or the letter `e`, an
optional sign, and at least one digit. -/
def readExponent : List Char → Option Int
  | [] => some 0
  | letter :: input =>
      if letter = 'e' ∨ letter = 'E' then
        let (negative, rest) := readSign input
        let (digits, rest) := spanDigits rest
        if digits.isEmpty || !rest.isEmpty then none
        else
          let size : Int := Nat.ofDigitChars 10 digits 0
          some (if negative then -size else size)
      else none

/-- A fraction at the head of the text, empty when there is no point, and what
follows it. -/
def readFraction : List Char → List Char × List Char
  | '.' :: rest => spanDigits rest
  | input => ([], input)

/-- The decimal that fills the whole text, if there is one. -/
def read? (input : List Char) : Option Decimal :=
  let (negative, rest) := readSign input
  let (whole, rest) := spanDigits rest
  let (fraction, rest) := readFraction rest
  if whole.isEmpty && fraction.isEmpty then none
  else
    (readExponent rest).map fun exponent =>
      { negative
        digits := Nat.ofDigitChars 10 (whole ++ fraction) 0
        exponent := exponent - fraction.length }

end Decimal

/-- The number that fills the whole text, if there is one. -/
def read? (input : List Char) : Option Float :=
  (Decimal.read? input).map Decimal.toFloat

end PlotLisp.Number
