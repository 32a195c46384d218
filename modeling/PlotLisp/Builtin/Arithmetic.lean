import PlotLisp.Argument

/-!
# Arithmetic procedures

Sums and products fold over their arguments; one complex argument moves the whole
fold into the plane. All arguments are read before anything is computed, so the
first argument that is not a number is the one at fault. The shared steps are told on
whose behalf they work; each procedure names itself wherever it may raise a fault.
-/

namespace PlotLisp.Arithmetic

/-- The only argument. -/
def single (procedure : String) : List Expression → Except Fault Expression
  | [argument] => .ok argument
  | _ => .error (.argumentCount procedure)

/-- The two arguments. -/
def pair (procedure : String) : List Expression → Except Fault (Expression × Expression)
  | [first, second] => .ok (first, second)
  | _ => .error (.argumentCount procedure)

/-- Combines all arguments from the left, starting with the identity. -/
def fold (procedure : String) (identity : Float) (onReals : Float → Float → Float)
    (onComplex : Complex → Complex → Complex) (arguments : List Expression) :
    Except Fault Expression := do
  let quantities ← arguments.mapM (·.toQuantity procedure)
  match quantities.mapM Quantity.real? with
  | some reals => return .number (reals.foldl onReals identity)
  | none =>
      return .complex ((quantities.map Quantity.toComplex).foldl onComplex (.ofReal identity))

/-- Combines two arguments, in the plane as soon as one of them is complex. -/
def combine (procedure : String) (onReals : Float → Float → Float)
    (onComplex : Complex → Complex → Complex) (left right : Expression) :
    Except Fault Expression := do
  match ← left.toQuantity procedure, ← right.toQuantity procedure with
  | .real x, .real y => return .number (onReals x y)
  | z, w => return .complex (onComplex z.toComplex w.toComplex)

/-- Transforms a single argument, keeping its kind. -/
def transform (procedure : String) (onReal : Float → Float) (onComplex : Complex → Complex)
    (argument : Expression) : Except Fault Expression := do
  match ← argument.toQuantity procedure with
  | .real x => return .number (onReal x)
  | .complex z => return .complex (onComplex z)

/-- The sum of all arguments; the empty sum is zero. -/
def sum : List Expression → Except Fault Expression :=
  fold "+" 0 (· + ·) Complex.add

/-- The product of all arguments; the empty product is one. -/
def product : List Expression → Except Fault Expression :=
  fold "*" 1 (· * ·) Complex.mul

/-- The opposite of one argument, or the difference of two. -/
def difference : List Expression → Except Fault Expression
  | [argument] => transform "-" (-·) Complex.neg argument
  | [left, right] => combine "-" (· - ·) Complex.sub left right
  | _ => .error (.argumentCount "-")

/-- The reciprocal of one argument, or the quotient of two. A division by zero
gives a number that is not finite rather than a fault. -/
def quotient : List Expression → Except Fault Expression
  | [argument] => transform "/" (1 / ·) Complex.reciprocal argument
  | [left, right] => combine "/" (· / ·) Complex.div left right
  | _ => .error (.argumentCount "/")

/-- The first argument raised to the second. -/
def power (arguments : List Expression) : Except Fault Expression := do
  let (base, exponent) ← pair "^" arguments
  combine "^" Float.pow Complex.pow base exponent

/-- The square root. A real argument that is not at least zero has an imaginary
one. -/
def squareRoot (arguments : List Expression) : Except Fault Expression := do
  match ← (← single "sqrt" arguments).toQuantity "sqrt" with
  | .real x =>
      if 0 ≤ x then return .number x.sqrt else return .complex ⟨0, (-x).sqrt⟩
  | .complex z => return .complex z.sqrt

/-- A function of one real argument. -/
def realFunction (procedure : String) (function : Float → Float)
    (arguments : List Expression) : Except Fault Expression := do
  let x ← (← single procedure arguments).toNumber procedure
  return .number (function x)

/-- The natural logarithm of a positive real argument. -/
def logarithm (arguments : List Expression) : Except Fault Expression := do
  let x ← (← single "ln" arguments).toNumber "ln"
  check (¬ x ≤ 0) (.outsideDomain "ln" .notPositive)
  return .number x.log

/-- A value computed from one complex argument. Real numbers are not promoted. -/
def complexFunction (procedure : String) (function : Complex → Expression)
    (arguments : List Expression) : Except Fault Expression := do
  let z ← (← single procedure arguments).toComplex procedure
  return function z

end PlotLisp.Arithmetic
