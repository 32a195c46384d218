/-!
# Keywords

The names of the forms that evaluation handles itself. A form decides which of its
children are evaluated, so a keyword never denotes a value.
-/

namespace PlotLisp

/-- A form that evaluation handles itself. -/
inductive Keyword where
  | sequence
  | define
  | lambda
  | apply
  | map
  | setProperty
  | getProperty
  | discretePlot
  | continuousPlot
  deriving DecidableEq

namespace Keyword

/-- Every keyword. -/
def all : List Keyword :=
  [sequence, define, lambda, apply, map, setProperty, getProperty, discretePlot,
    continuousPlot]

/-- The symbol that heads the form. -/
def name : Keyword → String
  | sequence => "begin"
  | define => "define"
  | lambda => "lambda"
  | apply => "apply"
  | map => "map"
  | setProperty => "set-property"
  | getProperty => "get-property"
  | discretePlot => "discrete-plot"
  | continuousPlot => "continuous-plot"

/-- The form headed by the given symbol, if there is one. -/
def ofName? (name : String) : Option Keyword :=
  all.find? fun keyword => keyword.name == name

/-- Whether a form is headed by this symbol. -/
def isName (name : String) : Bool :=
  (ofName? name).isSome

/-- Every keyword is found under its own name. -/
@[simp] theorem ofName?_name (keyword : Keyword) : ofName? keyword.name = some keyword := by
  cases keyword <;> rfl

end Keyword

end PlotLisp
