import PlotLisp.Number.Text

/-!
# Complex numbers in rectangular form

Products and quotients use one fused multiplication per part, so each part is
rounded at most twice. Roots, powers, and logarithms are on the principal branch.
-/

namespace PlotLisp

/-- The complex number `real + imaginary · i`. -/
structure Complex where
  real : Float
  imaginary : Float
  deriving DecidableEq

namespace Complex

/-- A real number as a complex one. -/
def ofReal (x : Float) : Complex :=
  ⟨x, 0⟩

/-- The multiplicative identity. -/
def one : Complex := ⟨1, 0⟩

/-- The imaginary unit. -/
def unit : Complex := ⟨0, 1⟩

/-- The origin of the plane. -/
def origin : Complex := ⟨0, 0⟩

/-- Whether both parts are zero, of either sign. -/
def isOrigin (z : Complex) : Bool :=
  z.real == 0 && z.imaginary == 0

/-- The distance from the origin. -/
def modulus (z : Complex) : Float :=
  Number.hypotenuse z.real z.imaginary

/-- The phase angle in radians. -/
def argument (z : Complex) : Float :=
  Float.atan2 z.imaginary z.real

/-- The reflection in the real axis. -/
def conjugate (z : Complex) : Complex :=
  ⟨z.real, -z.imaginary⟩

/-- Both parts with the opposite sign. -/
protected def neg (z : Complex) : Complex :=
  ⟨-z.real, -z.imaginary⟩

/-- The sum, part by part. -/
protected def add (z w : Complex) : Complex :=
  ⟨z.real + w.real, z.imaginary + w.imaginary⟩

/-- The sum with the opposite. -/
protected def sub (z w : Complex) : Complex :=
  z.add w.neg

/-- The product; the second product of each part is rounded before the first one
is added to it. -/
protected def mul (z w : Complex) : Complex :=
  ⟨Number.mulAdd z.real w.real (-(z.imaginary * w.imaginary)),
    Number.mulAdd z.real w.imaginary (z.imaginary * w.real)⟩

/-- The product with the conjugate of the divisor, scaled by its squared modulus. -/
protected def div (z w : Complex) : Complex :=
  let norm := Number.mulAdd w.real w.real (w.imaginary * w.imaginary)
  let numerator := z.mul w.conjugate
  ⟨numerator.real / norm, numerator.imaginary / norm⟩

/-- One divided by the number; the reciprocal of zero has parts that are not
finite. -/
def reciprocal (z : Complex) : Complex :=
  one.div z

/-- The principal square root: its real part is not negative and its imaginary
part has the sign of the number's imaginary part. -/
def sqrt (z : Complex) : Complex :=
  let modulus := z.modulus
  ⟨(Number.midpoint modulus z.real).sqrt,
    Number.copySign ((modulus - z.real) / 2).sqrt z.imaginary⟩

/-- The exponential. -/
def exp (z : Complex) : Complex :=
  let scale := z.real.exp
  ⟨scale * z.imaginary.cos, scale * z.imaginary.sin⟩

/-- The natural logarithm. -/
def ln (z : Complex) : Complex :=
  ⟨z.modulus.log, z.argument⟩

/-- `z` raised to `exponent` through the logarithm. The origin has none, so its
powers are fixed: one for the exponent zero, and the origin for an exponent with a
positive real part. -/
def pow (z exponent : Complex) : Complex :=
  if z.isOrigin && exponent.isOrigin then one
  else if z.isOrigin && decide (0 < exponent.real) then origin
  else (exponent.mul z.ln).exp

/-- Whether the two numbers lie within `Number.epsilon` of each other. -/
def alike (z w : Complex) : Bool :=
  Number.approximately (z.sub w).modulus 0

/-- Both parts, separated by a comma. A word of this form never denotes a complex
number: it is no atom when it begins with a digit, and a symbol otherwise. -/
def text (z : Complex) : String :=
  Number.text z.real ++ "," ++ Number.text z.imaginary

end Complex

end PlotLisp
