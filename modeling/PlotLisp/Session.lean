import PlotLisp.Evaluation.Basic
import PlotLisp.Reader

/-!
# Sessions

A session holds one program and an environment that outlives it: what one program
defines is there for the next. Evaluating may decorate the program. Every
evaluation here is allowed a depth and has no answer beyond it.
-/

namespace PlotLisp

/-- Why a program text has no value. -/
inductive SessionError where
  | unreadable (error : ReadError)
  | faulted (fault : Fault)
  deriving DecidableEq

/-- The message of whatever went wrong. -/
def SessionError.message : SessionError → String
  | unreadable error => error.message
  | faulted fault => fault.message

/-- The current program and the environment. -/
structure Session where
  program : Expression
  environment : Environment

namespace Session

/-- No program, and the environment that every session starts with. -/
def fresh : Session :=
  ⟨.absent, .fresh⟩

/-- Makes a text the current program. A text that cannot be read leaves the session
as it was, which is the caller's to keep. -/
def read (session : Session) (source : String) : Except ReadError Session := do
  return { session with program := ← Expression.ofSource source }

/-- Evaluates the current program. The session afterwards has the decorated program
and every binding that was made, also when there was a fault. -/
def evaluate (depth : Nat) (session : Session) :
    Option (Except Fault Expression × Session) :=
  (PlotLisp.evaluate depth session.program session.environment).map fun evaluation =>
    (evaluation.outcome, ⟨evaluation.program, evaluation.environment⟩)

/-- Reads a text and evaluates it. -/
def run (depth : Nat) (session : Session) (source : String) :
    Option (Except SessionError Expression × Session) :=
  match session.read source with
  | .error error => some (.error (.unreadable error), session)
  | .ok session =>
      (session.evaluate depth).map fun (outcome, after) =>
        (outcome.mapError .faulted, after)

/-- Forgets every binding but those that every session starts with. -/
def clear (session : Session) : Session :=
  { session with environment := .fresh }

end Session

end PlotLisp
