/-!
# Exact steps on binary64 numbers

The numbers of the language are `Float`s. Core arithmetic rounds after every
operation; this module adds the operations whose inner steps must stay exact.
Each of them decodes its operands into sign, significand, and exponent, works on
those integers without loss, and rounds once at the end.
-/

namespace PlotLisp.Number

open Float.Model (UnpackedFloat)

/-- Sign, significand, and exponent of a number, or its special kind. -/
def decoded (x : Float) : UnpackedFloat :=
  x.toModel.unpack

/-- The number with the given sign, significand, and exponent, which must already
be rounded to 53 bits. -/
def encoded (value : UnpackedFloat) : Float :=
  Float.ofModel (Float.Model.pack value)

/-- The ratio of a circle's circumference to its diameter. -/
def pi : Float := 3.14159265358979323846

/-- The base of the natural logarithm. -/
def euler : Float := 2.71828182845904523536

/-- Half of `pi`. -/
def quarterTurn : Float := 1.57079632679489661923

/-- The number of degrees in one radian. -/
def degreesPerRadian : Float := 57.29577951308232087680

/-- Positive infinity. -/
def infinity : Float := 1.0 / 0.0

/-- The number that is not a number. -/
def notANumber : Float := 0.0 / 0.0

/-- The distance from one to the next larger number, `2 ^ -52`. -/
def epsilon : Float := 2.220446049250313080847263336181640625e-16

/-- The product of two numbers with every bit of it kept. Only nonzero finite
factors need more bits than a number has. -/
def exactProduct : UnpackedFloat → UnpackedFloat → UnpackedFloat
  | .finite sign mantissa exponent positive, .finite sign' mantissa' exponent' positive' =>
      .finite (sign * sign') (mantissa * mantissa') (exponent + exponent')
        (Nat.mul_pos positive positive')
  | x, y => .mul .binary64 x y

/-- `x * y + z` rounded once. A zero addend leaves only the product to round. -/
def mulAdd (x y z : Float) : Float :=
  match exactProduct (decoded x) (decoded y), decoded z with
  | .finite .., .zero _ => x * y
  | product, addend => encoded (.add .binary64 product addend)

/-- The significand and exponent of a finite number without its sign. Zero has
significand zero; the special kinds do not occur where this is asked. -/
def size : UnpackedFloat → Nat × Int
  | .finite _ mantissa exponent _ => (mantissa, exponent)
  | _ => (0, 0)

/-- The exact sum of the squares of two sizes, as a significand and an exponent. -/
def sumOfSquares (x y : Nat × Int) : Nat × Int :=
  let exponent := min x.2 y.2
  let square (size : Nat × Int) : Nat :=
    let scaled := size.1 <<< (size.2 - exponent).toNat
    scaled * scaled
  (square x + square y, 2 * exponent)

/-- The length of the vector `(x, y)`, rounded once. An infinite part makes it
infinite even beside a part that is not a number. -/
def hypotenuse (x y : Float) : Float :=
  if x.isInf || y.isInf then infinity
  else if x.isNaN || y.isNaN then notANumber
  else
    let total := sumOfSquares (size (decoded x)) (size (decoded y))
    if positive : 0 < total.1 then
      encoded (.sqrt .binary64 (.finite .positive total.1 total.2 positive))
    else 0

/-- Half of the largest finite number. -/
def halfLargest : Float := 8.98846567431157854073e307

/-- Twice the smallest normal number. -/
def twiceSmallestNormal : Float := 4.45014771701440276619e-308

/-- The number halfway between two numbers, halved before the addition only when
the sum could overflow. -/
def midpoint (x y : Float) : Float :=
  if x.abs ≤ halfLargest ∧ y.abs ≤ halfLargest then (x + y) / 2
  else if x.abs < twiceSmallestNormal then x + y / 2
  else if y.abs < twiceSmallestNormal then x / 2 + y
  else x / 2 + y / 2

/-- Whether the sign bit is set. It is clear on the number that is not a number. -/
def isNegative (x : Float) : Bool :=
  x.toBits >>> 63 == 1

/-- The size of `x` with the sign of `y`. -/
def copySign (x y : Float) : Float :=
  if isNegative y then -x.abs else x.abs

/-- The smaller of two numbers; the first when neither is smaller. -/
def least (x y : Float) : Float :=
  if y < x then y else x

/-- The larger of two numbers; the first when neither is larger. -/
def greatest (x y : Float) : Float :=
  if x < y then y else x

/-- The number between `low` and `high` that is nearest to `x`. -/
def clamp (low high x : Float) : Float :=
  if x < low then low else if high < x then high else x

/-- Whether two numbers lie within `epsilon` of each other. A difference that is
not a number, as of two equal infinities, is never small. -/
def approximately (x y : Float) : Bool :=
  let gap := (x - y).abs
  !gap.isNaN && decide (gap ≤ epsilon)

end PlotLisp.Number
