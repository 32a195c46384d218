/-!
# Faults of evaluation

A fault is a cause; `Fault.message` is the only place that words it. Evaluation
stops at the first fault.
-/

namespace PlotLisp

/-- Why a value lies outside the domain of a procedure. -/
inductive DomainCause where
  | tooLarge
  | notPositive
  | notFinite
  | emptyInterval
  | noProgress
  | notPairs
  | notCoordinates
  | unplottable
  | noData
  | noWidth
  deriving DecidableEq

/-- The cause in words. -/
def DomainCause.detail : DomainCause → String
  | tooLarge => "value too large"
  | notPositive => "argument must be positive"
  | notFinite => "bounds and increment must be finite"
  | emptyInterval => "begin greater than end"
  | noProgress => "negative or zero increment"
  | notPairs => "options must be name/value pairs"
  | notCoordinates => "expected a list of two numbers"
  | unplottable => "plot data must be finite"
  | noData => "no data to plot"
  | noWidth => "lower bound must be less than upper bound"

/-- Why evaluation stopped, with the name of the procedure, form, or symbol at
fault. -/
inductive Fault where
  | unknownSymbol (name : String)
  | absentTerminal
  | unnamedBinding
  | argumentCount (procedure : String)
  | expectedNumber (procedure : String)
  | expectedComplex (procedure : String)
  | expectedList (procedure : String)
  | expectedSymbol (form : String)
  | expectedText (form : String)
  | shortList (procedure : String)
  | keywordRedefinition (name : String)
  | builtinRedefinition (name : String)
  | symbolRedefinition (name : String)
  | notAProcedure (name : String)
  | outsideDomain (procedure : String) (cause : DomainCause)
  deriving DecidableEq

/-- The message shown for a fault. -/
def Fault.message : Fault → String
  | unknownSymbol name => s!"Error during evaluation: unknown symbol '{name}'."
  | absentTerminal => "Error during evaluation: invalid type in terminal expression."
  | unnamedBinding => "Error during evaluation: attempt to add non-symbol to environment."
  | argumentCount procedure => s!"Error in call to {procedure}: invalid number of arguments."
  | expectedNumber procedure => s!"Error in call to {procedure}: argument not a number."
  | expectedComplex procedure =>
      s!"Error in call to {procedure}: argument not a complex number."
  | expectedList procedure => s!"Error in call to {procedure}: argument not a list."
  | expectedSymbol form => s!"Error during evaluation: first argument to {form} not a symbol."
  | expectedText form => s!"Error in {form}: first argument not a string literal."
  | shortList procedure => s!"Error in call to {procedure}: list has too few elements."
  | keywordRedefinition name =>
      s!"Error during evaluation: attempt to redefine special-form '{name}'."
  | builtinRedefinition name =>
      s!"Error during evaluation: attempt to redefine built-in procedure '{name}'."
  | symbolRedefinition name =>
      s!"Error during evaluation: attempt to redefine previously defined symbol '{name}'."
  | notAProcedure name => s!"Error during evaluation: '{name}' does not name a procedure."
  | outsideDomain procedure cause => s!"Error in call to {procedure}: {cause.detail}."

/-- Goes on when the condition holds, and faults otherwise. -/
def check (condition : Bool) (fault : Fault) : Except Fault Unit :=
  if condition then .ok () else .error fault

/-- A condition that holds raises no fault. -/
@[simp] theorem check_true (fault : Fault) : check true fault = .ok () :=
  rfl

/-- A condition that fails raises the fault. -/
@[simp] theorem check_false (fault : Fault) : check false fault = .error fault :=
  rfl

end PlotLisp
