import PlotLisp.Builtin.Basic
import PlotLisp.Builtin.Sequence

/-!
# Calling a builtin procedure

A call checks the number of arguments against the procedure's arity and then
computes. The table and the procedure each spell the name that a fault carries. A
sampling that never ends has no result at all, which is not a fault.
-/

namespace PlotLisp

/-- The attempt at a value: a value, a fault, or no end within the allowed depth. -/
abbrev Attempt := ExceptT Fault Option

namespace Attempt

/-- An attempt that ends with the given outcome. -/
def ofExcept {α : Type} (outcome : Except Fault α) : Attempt α :=
  ExceptT.mk (some outcome)

/-- An attempt that has an end only if the value is there. -/
def ofOption {α : Type} (value : Option α) : Attempt α :=
  ExceptT.mk (value.map .ok)

end Attempt

namespace Builtin

/-- The samples of an interval as a list of numbers. -/
def computeRange (arguments : List Expression) : Attempt Expression := do
  let interval ← Attempt.ofExcept (Sequence.interval arguments)
  let samples ← Attempt.ofOption interval.samples
  return .list (samples.map .number)

/-- What a procedure computes from arguments whose number was not checked against
its arity. -/
def compute (builtin : Builtin) (arguments : List Expression) : Attempt Expression :=
  match builtin with
  | add => .ofExcept (Arithmetic.sum arguments)
  | subtract => .ofExcept (Arithmetic.difference arguments)
  | multiply => .ofExcept (Arithmetic.product arguments)
  | divide => .ofExcept (Arithmetic.quotient arguments)
  | power => .ofExcept (Arithmetic.power arguments)
  | squareRoot => .ofExcept (Arithmetic.squareRoot arguments)
  | logarithm => .ofExcept (Arithmetic.logarithm arguments)
  | sine => .ofExcept (Arithmetic.realFunction "sin" Float.sin arguments)
  | cosine => .ofExcept (Arithmetic.realFunction "cos" Float.cos arguments)
  | tangent => .ofExcept (Arithmetic.realFunction "tan" Float.tan arguments)
  | realPart => .ofExcept (Arithmetic.complexFunction "real" (.number ·.real) arguments)
  | imaginaryPart =>
      .ofExcept (Arithmetic.complexFunction "imag" (.number ·.imaginary) arguments)
  | argument => .ofExcept (Arithmetic.complexFunction "arg" (.number ·.argument) arguments)
  | conjugate =>
      .ofExcept (Arithmetic.complexFunction "conj" (.complex ·.conjugate) arguments)
  | modulus => .ofExcept (Arithmetic.complexFunction "mag" (.number ·.modulus) arguments)
  | list => .ofExcept (Sequence.list arguments)
  | first => .ofExcept (Sequence.first arguments)
  | rest => .ofExcept (Sequence.rest arguments)
  | length => .ofExcept (Sequence.length arguments)
  | append => .ofExcept (Sequence.append arguments)
  | join => .ofExcept (Sequence.join arguments)
  | range => computeRange arguments

/-- Calls a procedure, refusing a number of arguments outside its arity. -/
def call (builtin : Builtin) (arguments : List Expression) : Attempt Expression :=
  if builtin.arity.admits arguments.length then builtin.compute arguments
  else throw (.argumentCount builtin.name)

end Builtin

end PlotLisp
