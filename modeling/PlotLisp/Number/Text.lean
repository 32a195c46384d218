import PlotLisp.Number.Rounding

/-!
# Texts of numbers

Two written forms. `text` is the shortest positional notation that reads back as
the very same number; `significantText` keeps a given count of significant digits
and changes to scientific notation outside a window of exponents.
-/

namespace PlotLisp.Number

/-- The two neighbours of a value on the grid of decimals whose last digit has the
power of ten `last`, the nearer first and the upper first on an exact tie. -/
def neighbours (negative : Bool) (value : Ratio) (last : Int) : List Decimal :=
  let onGrid := value.scaled (-last)
  let lower : Decimal := ⟨negative, onGrid.floor, last⟩
  let upper : Decimal := ⟨negative, onGrid.floor + 1, last⟩
  if 2 * onGrid.remainder < onGrid.denominator then [lower, upper] else [upper, lower]

/-- Whether a decimal's notation reads back as the number, bit for bit. -/
def readsBack (x : Float) (decimal : Decimal) : Bool :=
  decide (read? decimal.text = some x)

/-- The first decimal that reads back on the grid ending at `last` or one of the
`count - 1` next finer ones. -/
def search (x : Float) (value : Ratio) : (count : Nat) → (last : Int) → Option Decimal
  | 0, _ => none
  | count + 1, last =>
      match ((neighbours (isNegative x) value last).map Decimal.trimmed).find? (readsBack x) with
      | some decimal => some decimal
      | none => search x value count (last - 1)

/-- All digits of a finite number's exact value. -/
def exactDecimal (x : Float) : Decimal :=
  let (mantissa, exponent) := size (decoded x)
  if 0 ≤ exponent then ⟨isNegative x, mantissa <<< exponent.toNat, 0⟩
  else ⟨isNegative x, mantissa * Nat.pow 5 (-exponent).toNat, exponent⟩

/-- Seventeen digits always suffice to tell two numbers apart. -/
def enoughDigits : Nat := 17

/-- The decimal with the fewest digits whose notation reads back as the number, and
the nearest of those. -/
def shortest (x : Float) : Decimal :=
  let value := exactSize x
  (search x value enoughDigits value.decimalExponent).getD (exactDecimal x)

/-- The shortest positional notation that reads back, with words for the numbers
that have no digits. -/
def text (x : Float) : String :=
  if x.isNaN then "NaN"
  else if x.isInf then if isNegative x then "-inf" else "inf"
  else if x == 0 then if isNegative x then "-0" else "0"
  else String.ofList (shortest x).text

/-- The exponent of scientific notation: its sign and at least two digits. -/
def exponentText (exponent : Int) : List Char :=
  let written := Nat.toDigits 10 exponent.natAbs
  (if exponent < 0 then '-' else '+') ::
    (List.replicate (2 - written.length) '0' ++ written)

/-- A number with at most `count` significant digits and no zero at the end of a
fraction: positional where the first digit stands between the fourth place and
the last kept digit, scientific elsewhere. No digits at all count as one. The first
digit is that of the rounded number, which settles how many places the positional
notation has; the number is rounded to these places then. -/
def significantText (x : Float) (count : Nat) : String :=
  if x == 0 then "0"
  else if !x.isFinite then text x
  else
    let count := max count 1
    let rounded := roundedTo count x
    let first := rounded.exponent + (count - 1)
    if first < -4 ∨ count ≤ first then
      let mantissa : Decimal := { rounded with exponent := -((count - 1 : Nat) : Int) }
      String.ofList (mantissa.trimmed.text ++ 'e' :: exponentText first)
    else
      String.ofList (roundedAt (count - 1 - first).toNat x).trimmed.text

end PlotLisp.Number
