import PlotLisp.Evaluation.Turn

/-!
# Calling procedures

A call takes arguments that are already evaluated. A procedure value evaluates its
body in a copy of the caller's environment with the parameters bound on top, so
nothing that the body defines reaches the caller.
-/

namespace PlotLisp

/-- Evaluates the body of a procedure value with its parameters bound. -/
def callLambda (evaluate : Evaluator) (lambda : Expression) (arguments : List Expression)
    (environment : Environment) : Attempt Expression :=
  match lambda.children with
  | [parameters, body] => do
      Attempt.ofExcept
        (checkCount parameters.children arguments.length Keyword.lambda.name)
      let scope ← Attempt.ofExcept
        (environment.bindAll (parameters.children.zip arguments))
      ExceptT.mk ((evaluate body scope).map Evaluation.outcome)
  | _ => throw (.notAProcedure lambda.text)

/-- What can be called: a builtin procedure or a procedure value. -/
inductive Callable where
  | builtin (procedure : Builtin)
  | lambda (value : Expression)
  deriving DecidableEq

namespace Callable

/-- What a bare symbol names, read on behalf of a form. Builtin procedures come
first. -/
def resolve (environment : Environment) (form : String) (node : Expression) :
    Except Fault Callable :=
  match node.bareSymbol? with
  | none => .error (.expectedSymbol form)
  | some name =>
      match environment.find? name with
      | some (.procedure procedure) => .ok (.builtin procedure)
      | some (.value value) =>
          if value.isLambda then .ok (.lambda value) else .error (.notAProcedure name)
      | none => .error (.notAProcedure name)

/-- The number of parameters of a procedure value. A builtin procedure checks its
arguments itself. -/
def parameterCount? : Callable → Option Nat
  | builtin _ => none
  | lambda value => value.children.head?.map fun parameters => parameters.children.length

/-- Whether a call with this many arguments has the right number of them. -/
def accepts (callable : Callable) (count : Nat) : Bool :=
  match callable with
  | builtin procedure => procedure.arity.admits count
  | lambda _ => callable.parameterCount? == some count

/-- Calls with arguments that are used as they are. -/
def call (evaluate : Evaluator) (callable : Callable) (arguments : List Expression)
    (environment : Environment) : Attempt Expression :=
  match callable with
  | builtin procedure => procedure.call arguments
  | lambda value => callLambda evaluate value arguments environment

/-- Calls once for each argument, in order, up to the first fault. -/
def callEach (evaluate : Evaluator) (callable : Callable) (environment : Environment) :
    List Expression → Attempt (List Expression)
  | [] => return []
  | argument :: rest => do
      let value ← callable.call evaluate [argument] environment
      return value :: (← callEach evaluate callable environment rest)

end Callable

end PlotLisp
