/-!
# The builtin procedures

The procedures that every environment starts with: their names and how many
arguments each of them takes.
-/

namespace PlotLisp

/-- The numbers of arguments that a procedure takes. -/
inductive Arity where
  | exactly (count : Nat)
  | oneOrTwo
  | anyNumber
  | anyBut (count : Nat)
  deriving DecidableEq

/-- Whether a procedure takes this many arguments. -/
def Arity.admits : Arity → Nat → Bool
  | exactly expected, count => count == expected
  | oneOrTwo, count => count == 1 || count == 2
  | anyNumber, _ => true
  | anyBut refused, count => count != refused

/-- A builtin procedure. -/
inductive Builtin where
  | add
  | subtract
  | multiply
  | divide
  | power
  | squareRoot
  | logarithm
  | sine
  | cosine
  | tangent
  | realPart
  | imaginaryPart
  | argument
  | conjugate
  | modulus
  | list
  | first
  | rest
  | length
  | append
  | join
  | range
  deriving DecidableEq

namespace Builtin

/-- Every builtin procedure. -/
def all : List Builtin :=
  [add, subtract, multiply, divide, power, squareRoot, logarithm, sine, cosine, tangent,
    realPart, imaginaryPart, argument, conjugate, modulus, list, first, rest, length,
    append, join, range]

/-- The name by which programs call the procedure. -/
def name : Builtin → String
  | add => "+"
  | subtract => "-"
  | multiply => "*"
  | divide => "/"
  | power => "^"
  | squareRoot => "sqrt"
  | logarithm => "ln"
  | sine => "sin"
  | cosine => "cos"
  | tangent => "tan"
  | realPart => "real"
  | imaginaryPart => "imag"
  | argument => "arg"
  | conjugate => "conj"
  | modulus => "mag"
  | list => "list"
  | first => "first"
  | rest => "rest"
  | length => "length"
  | append => "append"
  | join => "join"
  | range => "range"

/-- How many arguments the procedure takes. -/
def arity : Builtin → Arity
  | add | list => .anyNumber
  | multiply => .anyBut 1
  | subtract | divide => .oneOrTwo
  | power | append | join => .exactly 2
  | range => .exactly 3
  | squareRoot | logarithm | sine | cosine | tangent | realPart | imaginaryPart | argument
  | conjugate | modulus | first | rest | length => .exactly 1

/-- The procedure with the given name, if there is one. -/
def ofName? (name : String) : Option Builtin :=
  all.find? fun builtin => builtin.name == name

/-- Whether a builtin procedure has this name. -/
def isName (name : String) : Bool :=
  (ofName? name).isSome

/-- No builtin procedure is missing from the list of all. -/
theorem mem_all (builtin : Builtin) : builtin ∈ all := by
  cases builtin <;> decide

/-- Every procedure is found under its own name. -/
@[simp] theorem ofName?_name (builtin : Builtin) : ofName? builtin.name = some builtin := by
  cases builtin <;> rfl

/-- Distinct procedures have distinct names. -/
theorem name_injective {left right : Builtin} (same : left.name = right.name) :
    left = right := by
  simpa using congrArg ofName? same

end Builtin

end PlotLisp
