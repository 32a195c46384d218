import PlotLisp.Proofs.Evaluation.Forms

/-!
# Single steps

One step of evaluation looks a leaf up, refuses a head that is no symbol, or takes the
turn that the head names. Every proof about evaluation splits into these cases.
-/

namespace PlotLisp

namespace Evaluation

/-- The ways in which one step of evaluation can end. -/
inductive StepEnd (evaluate : Evaluator) (head : Atom) (children : List Expression)
    (properties : Table Expression) (environment : Environment) : Evaluation → Prop where
  | lookedUp (leaf : children = []) :
      StepEnd evaluate head children properties environment
        ⟨lookUp head environment, .node head children properties, environment⟩
  | refused (fault : Fault) :
      StepEnd evaluate head children properties environment
        ⟨.error fault, .node head children properties, environment⟩
  | worked {name : String} {outcome : Except Fault Expression} {frame : TurnFrame}
      (named : head = .symbol name)
      (ran : (Forms.named evaluate name).runOn ⟨children, environment⟩ =
        some (outcome, frame)) :
      StepEnd evaluate head children properties environment
        ⟨outcome, .node head frame.children properties, frame.environment⟩

/-- A step looks a leaf up, is refused, or takes the turn that the symbol at the head names; every
other end is ruled out. -/
theorem step_cases {evaluate : Evaluator} {head : Atom} {children : List Expression}
    {properties : Table Expression} {environment : Environment} {evaluation : Evaluation}
    (ended : step evaluate (.node head children properties) environment = some evaluation) :
    StepEnd evaluate head children properties environment evaluation := by
  simp only [step] at ended
  split at ended
  case isTrue leaf =>
    cases ended
    exact .lookedUp (by simpa using (Bool.and_eq_true_iff.mp leaf).1)
  case isFalse =>
    cases head with
    | symbol name =>
        obtain ⟨⟨outcome, frame⟩, ran, same⟩ := Option.map_eq_some_iff.mp ended
        cases same
        exact .worked rfl ran
    | absent | number | complex | text =>
        cases ended
        exact .refused _

/-- What is no leaf, or is the empty list, is evaluated as its head says. -/
theorem step_named {evaluate : Evaluator} {name : String} {children : List Expression}
    (composite : children ≠ [] ∨ name = Expression.listName) (properties : Table Expression)
    (environment : Environment) :
    step evaluate (.node (.symbol name) children properties) environment =
      ((Forms.named evaluate name).runOn ⟨children, environment⟩).map fun (outcome, frame) =>
        ⟨outcome, .node (.symbol name) frame.children properties, frame.environment⟩ := by
  have compound : (children.isEmpty && !(Atom.symbol name).isSymbol Expression.listName) =
      false := by
    rcases composite with nonempty | rfl
    · simp [nonempty]
    · exact Bool.and_false _
  simp only [step, compound]
  rfl

end Evaluation

end PlotLisp
