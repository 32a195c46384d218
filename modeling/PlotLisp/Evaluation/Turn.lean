import PlotLisp.Environment

/-!
# Turns at evaluating a form

Evaluation is open recursion: a form is evaluated with an evaluator for its parts.
A turn works on one form. Its frame holds the children of the form, which
evaluation may decorate, and the environment. A fault ends the turn but keeps the
frame as it is then, so bindings and decorations made before the fault remain.
-/

namespace PlotLisp

/-- What evaluating an expression leaves behind: its outcome, the expression with
the decorations it received, and the environment. -/
structure Evaluation where
  outcome : Except Fault Expression
  program : Expression
  environment : Environment

/-- A way to evaluate expressions; `none` when it gave up before the end. -/
abbrev Evaluator := Expression → Environment → Option Evaluation

/-- The children of the form at hand, and the environment. -/
structure TurnFrame where
  children : List Expression
  environment : Environment

/-- A computation on the form at hand that may fault or give up. -/
abbrev Turn := ExceptT Fault (StateT TurnFrame Option)

namespace Turn

/-- The turn that makes this of the frame. -/
def ofRun {α : Type} (run : TurnFrame → Option (Except Fault α × TurnFrame)) : Turn α :=
  ExceptT.mk run

/-- What the turn makes of a frame. -/
def runOn {α : Type} (turn : Turn α) (frame : TurnFrame) :
    Option (Except Fault α × TurnFrame) :=
  (ExceptT.run turn) frame

/-- The environment as it is now. -/
def environment : Turn Environment :=
  return (← get).environment

/-- The children as they are now. -/
def children : Turn (List Expression) :=
  return (← get).children

/-- Goes on in another environment. -/
def setEnvironment (environment : Environment) : Turn Unit :=
  modify fun frame => { frame with environment }

/-- The child at an index, decorated as it is now. -/
def child (index : Nat) : Turn Expression :=
  return ((← children)[index]?).getD .absent

/-- Replaces the child at an index. -/
def setChild (index : Nat) (child : Expression) : Turn Unit :=
  modify fun frame => { frame with children := frame.children.set index child }

/-- An attempt that does not touch the frame. -/
def ofAttempt {α : Type} (attempt : Attempt α) : Turn α :=
  ofRun fun frame => attempt.run.map fun outcome => (outcome, frame)

/-- Evaluates an expression that is no part of the form. The environment goes on;
decorations of the expression are dropped. -/
def evaluateLoose (evaluate : Evaluator) (expression : Expression) : Turn Expression :=
  ofRun fun frame =>
    (evaluate expression frame.environment).map fun evaluation =>
      (evaluation.outcome, { frame with environment := evaluation.environment })

/-- Evaluates the child at an index and keeps the decorations it receives. -/
def evaluateChild (evaluate : Evaluator) (index : Nat) : Turn Expression :=
  ofRun fun frame =>
    (evaluate ((frame.children[index]?).getD .absent) frame.environment).map
      fun evaluation =>
        (evaluation.outcome,
          ⟨frame.children.set index evaluation.program, evaluation.environment⟩)

/-- Evaluates the children from an index on, in order, up to the first fault. The
count says how many of them there are. -/
def evaluateFrom (evaluate : Evaluator) (index : Nat) : Nat → Turn (List Expression)
  | 0 => return []
  | count + 1 => do
      let value ← evaluateChild evaluate index
      return value :: (← evaluateFrom evaluate (index + 1) count)

/-- Evaluates all children in order, up to the first fault. -/
def evaluateChildren (evaluate : Evaluator) : Turn (List Expression) := do
  evaluateFrom evaluate 0 (← children).length

/-- Evaluates loose expressions in order, up to the first fault. -/
def evaluateAllLoose (evaluate : Evaluator) : List Expression → Turn (List Expression)
  | [] => return []
  | expression :: rest => do
      let value ← evaluateLoose evaluate expression
      return value :: (← evaluateAllLoose evaluate rest)

/-! ## What turns make of a frame -/

section

variable {α β : Type} (frame : TurnFrame)

/-- Returning a value leaves the frame as it is. -/
@[simp] theorem runOn_pure (value : α) :
    (pure value : Turn α).runOn frame = some (.ok value, frame) :=
  rfl

/-- A fault leaves the frame as it is. -/
@[simp] theorem runOn_throw (fault : Fault) :
    (throw fault : Turn α).runOn frame = some (.error fault, frame) :=
  rfl

/-- A turn followed by another one: a fault or giving up in the first is final. -/
theorem runOn_bind (turn : Turn α) (next : α → Turn β) :
    (turn >>= next).runOn frame =
      match turn.runOn frame with
      | none => none
      | some (.error fault, after) => some (.error fault, after)
      | some (.ok value, after) => (next value).runOn after := by
  show (ExceptT.run turn frame >>= fun result => ExceptT.bindCont next result.1 result.2) = _
  unfold runOn
  cases ExceptT.run turn frame with
  | none => rfl
  | some result =>
      obtain ⟨outcome, after⟩ := result
      cases outcome <;> rfl

/-- An outcome that is given leaves the frame as it is. -/
@[simp] theorem runOn_ofExcept (outcome : Except Fault α) :
    (ofExcept outcome : Turn α).runOn frame = some (outcome, frame) := by
  cases outcome <;> rfl

/-- A turn that is given by its run runs so. -/
@[simp] theorem runOn_ofRun (run : TurnFrame → Option (Except Fault α × TurnFrame)) :
    (ofRun run).runOn frame = run frame :=
  rfl

/-- Reading the environment changes nothing. -/
@[simp] theorem runOn_environment :
    environment.runOn frame = some (.ok frame.environment, frame) :=
  rfl

/-- Reading the children changes nothing. -/
@[simp] theorem runOn_children : children.runOn frame = some (.ok frame.children, frame) :=
  rfl

/-- Replacing the environment keeps the children. -/
@[simp] theorem runOn_setEnvironment (environment : Environment) :
    (setEnvironment environment).runOn frame = some (.ok (), { frame with environment }) :=
  rfl

/-- A child that is missing is read as absent. -/
@[simp] theorem runOn_child (index : Nat) :
    (child index).runOn frame = some (.ok ((frame.children[index]?).getD .absent), frame) :=
  rfl

/-- Replacing a child keeps the environment and the number of children. -/
@[simp] theorem runOn_setChild (index : Nat) (child : Expression) :
    (setChild index child).runOn frame =
      some (.ok (), { frame with children := frame.children.set index child }) :=
  rfl

/-- An attempt gives up, faults, or returns without touching the frame. -/
@[simp] theorem runOn_ofAttempt (attempt : Attempt α) :
    (ofAttempt attempt).runOn frame = attempt.run.map fun outcome => (outcome, frame) :=
  rfl

end

end Turn

end PlotLisp
