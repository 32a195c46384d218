import PlotLisp.Expression
import PlotLisp.Fault

/-!
# Reading arguments

A procedure reads its evaluated arguments as numbers, lists, or texts. Every
reader takes the name of the procedure on whose behalf it reads, because a value
of the wrong kind is that procedure's fault. Children make a number or a text
unreadable; nothing but the head makes a list.
-/

namespace PlotLisp

/-- A numeric argument. Arithmetic stays real while every operand is real. -/
inductive Quantity where
  | real (value : Float)
  | complex (value : Complex)
  deriving DecidableEq

namespace Quantity

/-- The quantity in the complex plane. -/
def toComplex : Quantity → Complex
  | real value => .ofReal value
  | complex value => value

/-- The value of a real quantity. -/
def real? : Quantity → Option Float
  | real value => some value
  | complex _ => none

/-- The quantity as a value of the language. -/
def toExpression : Quantity → Expression
  | real value => .number value
  | complex value => .complex value

end Quantity

namespace Expression

/-- The real or complex number that an argument is. -/
def toQuantity (argument : Expression) (procedure : String) : Except Fault Quantity :=
  match argument.head, argument.isLeaf with
  | .number value, true => .ok (.real value)
  | .complex value, true => .ok (.complex value)
  | _, _ => .error (.expectedNumber procedure)

/-- The real number that an argument is. -/
def toNumber (argument : Expression) (procedure : String) : Except Fault Float :=
  match argument.head, argument.isLeaf with
  | .number value, true => .ok value
  | _, _ => .error (.expectedNumber procedure)

/-- The complex number that an argument is; a real number is not one. -/
def toComplex (argument : Expression) (procedure : String) : Except Fault Complex :=
  match argument.head, argument.isLeaf with
  | .complex value, true => .ok value
  | _, _ => .error (.expectedComplex procedure)

/-- The elements of the list that an argument is. -/
def toElements (argument : Expression) (procedure : String) :
    Except Fault (List Expression) :=
  if argument.isList then .ok argument.children else .error (.expectedList procedure)

/-- The content of the text that an argument is. -/
def toContent (argument : Expression) (form : String) : Except Fault String :=
  match argument.head, argument.isLeaf with
  | .text content, true => .ok content
  | _, _ => .error (.expectedText form)

end Expression

/-- Accepts exactly the given number of arguments. -/
def checkCount {α : Type} (arguments : List α) (count : Nat) (procedure : String) :
    Except Fault Unit :=
  check (arguments.length == count) (.argumentCount procedure)

end PlotLisp
