import PlotLisp.Evaluation.Callable
import PlotLisp.Plot.Discrete
import PlotLisp.Plot.Continuous

/-!
# The forms

Each form says which of its children are evaluated, in what order, and what is
checked in between. The number of children is always checked first.
-/

namespace PlotLisp.Forms

open Turn

/-- Checks that the form has exactly this many children. -/
def checkChildren (keyword : Keyword) (count : Nat) : Turn Unit := do
  ofExcept (checkCount (← children) count keyword.name)

/-- `(begin E ...)`: evaluates every child and gives the value of the last one. -/
def sequence (evaluate : Evaluator) : Turn Expression := do
  let values ← evaluateChildren evaluate
  match values.getLast? with
  | some value => return value
  | none => throw (.argumentCount Keyword.sequence.name)

/-- `(define NAME E)`: binds a new name. The name is checked before the value is
evaluated and again when it is bound, because the value may have defined it. -/
def define (evaluate : Evaluator) : Turn Expression := do
  checkChildren .define 2
  match (← child 0).bareSymbol? with
  | none => throw (.expectedSymbol Keyword.define.name)
  | some name =>
      ofExcept ((← environment).checkDefinable name)
      let value ← evaluateChild evaluate 1
      setEnvironment (← ofExcept ((← environment).define name value))
      return value

/-- The names in a parameter form. The head is one of them, except for the head of
a list, which is the parameter form of a finished procedure value. -/
def parameterNames (parameters : Expression) : Except Fault (List String) := do
  let fault : Fault := .expectedSymbol Keyword.lambda.name
  match parameters.head.symbol? with
  | none => throw fault
  | some head =>
      let names ← parameters.children.mapM fun parameter =>
        match parameter.bareSymbol? with
        | some name => .ok name
        | none => .error fault
      return if parameters.isList then names else head :: names

/-- `(lambda (NAME ...) BODY)`: a procedure value with its body unevaluated. No
parameter may have the name of a builtin procedure. -/
def lambda : Turn Expression := do
  checkChildren .lambda 2
  let names ← ofExcept (parameterNames (← child 0))
  match names.find? Builtin.isName with
  | some name => throw (.builtinRedefinition name)
  | none => return .lambda (.list (names.map .symbol)) (← child 1)

/-- `(apply P E)`: one call with the elements of a list as arguments. A procedure
value receives each of them evaluated once more, which drops its properties. -/
def apply (evaluate : Evaluator) : Turn Expression := do
  checkChildren .apply 2
  let callable ← ofExcept
    (Callable.resolve (← environment) Keyword.apply.name (← child 0))
  let list ← evaluateChild evaluate 1
  let elements ← ofExcept (list.toElements Keyword.apply.name)
  match callable with
  | .builtin procedure => ofAttempt (procedure.call elements)
  | .lambda value =>
      let arguments ← evaluateAllLoose evaluate elements
      ofAttempt (callLambda evaluate value arguments (← environment))

/-- `(map P E)`: the list of the results of calling with each element. -/
def map (evaluate : Evaluator) : Turn Expression := do
  checkChildren .map 2
  let list ← evaluateChild evaluate 1
  let elements ← ofExcept (list.toElements Keyword.map.name)
  let callable ← ofExcept (Callable.resolve (← environment) Keyword.map.name (← child 0))
  ofExcept (check (callable.accepts 1) (.argumentCount Keyword.map.name))
  return .list (← ofAttempt (callable.callEach evaluate (← environment) elements))

/-- `(set-property TAG V E)`: the value of `E` with the value of `V` under the tag.
The child `E` itself is decorated in the same way. -/
def setProperty (evaluate : Evaluator) : Turn Expression := do
  checkChildren .setProperty 3
  let tag ← ofExcept ((← child 0).toContent Keyword.setProperty.name)
  let property ← evaluateChild evaluate 1
  let value ← evaluateChild evaluate 2
  setChild 2 ((← child 2).withProperty tag property)
  return value.withProperty tag property

/-- `(get-property TAG E)`: the property of the value of `E` under the tag, or the
absent expression. -/
def getProperty (evaluate : Evaluator) : Turn Expression := do
  checkChildren .getProperty 2
  let tag ← ofExcept ((← child 0).toContent Keyword.getProperty.name)
  let target ← evaluateChild evaluate 1
  return (target.property? tag).getD .absent

/-- `(discrete-plot DATA OPTIONS)`: the stem plot of a list of points. -/
def discretePlot (evaluate : Evaluator) : Turn Expression := do
  checkChildren .discretePlot 2
  let data ← evaluateChild evaluate 0
  let options ← evaluateChild evaluate 1
  let points ← ofExcept (data.toElements DiscretePlot.form)
  let positions ← ofExcept (points.mapM (Position.ofExpression DiscretePlot.form))
  let options ← ofExcept (PlotOptions.ofExpression DiscretePlot.form options)
  return Glyph.drawing (← ofExcept (DiscretePlot.glyphs options positions))

/-- The options that the child at an index describes, or the default ones if there is
no such child. -/
def optionsAt (evaluate : Evaluator) (form : String) (index : Nat) :
    Turn PlotOptions := do
  match (← children)[index]? with
  | none => return .default
  | some _ => ofExcept (PlotOptions.ofExpression form (← evaluateChild evaluate index))

/-- The value of a callable at a number, which must be a number again. -/
def sample (evaluate : Evaluator) (callable : Callable) (environment : Environment)
    (x : Float) : Attempt Float := do
  let value ← callable.call evaluate [.number x] environment
  Attempt.ofExcept (value.toNumber ContinuousPlot.form)

/-- `(continuous-plot P BOUNDS)` or `(continuous-plot P BOUNDS OPTIONS)`: the line
plot of a function between two bounds. -/
def continuousPlot (evaluate : Evaluator) : Turn Expression := do
  let count := (← children).length
  ofExcept (check (count == 2 || count == 3) (.argumentCount ContinuousPlot.form))
  let callable ← ofExcept
    (Callable.resolve (← environment) ContinuousPlot.form (← child 0))
  ofExcept (check (callable.accepts 1) (.argumentCount ContinuousPlot.form))
  let bounds ← evaluateChild evaluate 1
  let range ← ofExcept (Position.ofExpression ContinuousPlot.form bounds)
  let options ← optionsAt evaluate ContinuousPlot.form 2
  let function := sample evaluate callable (← environment)
  return Glyph.drawing
    (← ofAttempt (ContinuousPlot.glyphs options function range.x range.y))

/-- The form headed by a keyword. -/
def ofKeyword (evaluate : Evaluator) : Keyword → Turn Expression
  | .sequence => sequence evaluate
  | .define => define evaluate
  | .lambda => lambda
  | .apply => apply evaluate
  | .map => map evaluate
  | .setProperty => setProperty evaluate
  | .getProperty => getProperty evaluate
  | .discretePlot => discretePlot evaluate
  | .continuousPlot => continuousPlot evaluate

/-- A call of the procedure that a name denotes. What is called is settled before
the arguments are evaluated. -/
def application (evaluate : Evaluator) (name : String) : Turn Expression := do
  match (← environment).find? name with
  | some (.procedure procedure) =>
      let arguments ← evaluateChildren evaluate
      ofAttempt (procedure.call arguments)
  | some (.value value) =>
      ofExcept (check value.isLambda (.notAProcedure name))
      let arguments ← evaluateChildren evaluate
      ofAttempt (callLambda evaluate value arguments (← environment))
  | none => throw (.notAProcedure name)

end PlotLisp.Forms
