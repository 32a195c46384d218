import PlotLisp.Proofs.Evaluation.Dependence
import PlotLisp.Proofs.Evaluation.Extension

/-!
# Operands

A call evaluates its operands from left to right, up to the first fault, and each of them in
the environment that the one before it left behind. The decorations that the operands receive
meanwhile are never read, so a call is described by how it ends: by its outcome, and by
the environment.
-/

namespace PlotLisp

/-- How a computation ends, if it does: with an outcome, in an environment. -/
abbrev Ending (α : Type) := Option (Except Fault α × Environment)

namespace Ending

variable {α β : Type}

/-- What ends in a value, followed by what is done with it in the environment then. -/
def andThen (ending : Ending α) (next : α → Environment → Ending β) : Ending β :=
  match ending with
  | none => none
  | some (.error fault, after) => some (.error fault, after)
  | some (.ok value, after) => next value after

/-- Behind a fault nothing is done. -/
@[simp] theorem error_andThen (fault : Fault) (after : Environment)
    (next : α → Environment → Ending β) :
    andThen (some (.error fault, after)) next = some (.error fault, after) :=
  rfl

/-- Behind a value its successor is done, in the environment that was left. -/
@[simp] theorem ok_andThen (value : α) (after : Environment)
    (next : α → Environment → Ending β) :
    andThen (some (.ok value, after)) next = next value after :=
  rfl

/-- Where the first part faults, so does the sequence, and what follows is not done. -/
theorem andThen_eq_some {ending : Ending α} {next : α → Environment → Ending β}
    {outcome : Except Fault β} {after : Environment}
    (ended : ending.andThen next = some (outcome, after)) :
    (∃ fault, ending = some (.error fault, after) ∧ outcome = .error fault) ∨
      ∃ value middle, ending = some (.ok value, middle) ∧
        next value middle = some (outcome, after) := by
  rcases ending with _ | ⟨fault | value, middle⟩
  · cases ended
  · cases ended
    exact .inl ⟨fault, rfl, rfl⟩
  · exact .inr ⟨value, middle, rfl, ended⟩

/-- A sequence has a value only if both parts have one. -/
theorem andThen_eq_ok {ending : Ending α} {next : α → Environment → Ending β} {result : β}
    {after : Environment} (ended : ending.andThen next = some (.ok result, after)) :
    ∃ value middle, ending = some (.ok value, middle) ∧
      next value middle = some (.ok result, after) := by
  rcases andThen_eq_some ended with ⟨fault, -, faulted⟩ | both
  · cases faulted
  · exact both

/-- A sequence has a value just when both parts have one, the second in the environment that the
first left. -/
theorem andThen_eq_ok_iff {ending : Ending α} {next : α → Environment → Ending β} {result : β}
    {after : Environment} :
    ending.andThen next = some (.ok result, after) ↔
      ∃ value middle, ending = some (.ok value, middle) ∧
        next value middle = some (.ok result, after) := by
  constructor
  · exact andThen_eq_ok
  · rintro ⟨value, middle, rfl, ended⟩
    exact ended

end Ending

/-- How an evaluation ends. What the program looks like afterwards is left out. -/
def Evaluator.ending (evaluate : Evaluator) (expression : Expression)
    (environment : Environment) : Ending Expression :=
  (evaluate expression environment).map fun evaluation =>
    (evaluation.outcome, evaluation.environment)

/-- What ends belongs to an evaluation, which leaves some program behind. -/
theorem Evaluator.ending_eq_some {evaluate : Evaluator} {expression : Expression}
    {environment after : Environment} {outcome : Except Fault Expression}
    (ended : evaluate.ending expression environment = some (outcome, after)) :
    ∃ program, evaluate expression environment = some ⟨outcome, program, after⟩ := by
  obtain ⟨evaluation, evaluated, same⟩ := Option.map_eq_some_iff.mp ended
  cases same
  exact ⟨evaluation.program, evaluated⟩

/-- What ends at some depth ends in the same way at every greater one. -/
theorem Evaluator.ending_of_le {depth more : Nat} (le : depth ≤ more) {expression : Expression}
    {environment after : Environment} {outcome : Except Fault Expression}
    (ended : (evaluate depth).ending expression environment = some (outcome, after)) :
    (evaluate more).ending expression environment = some (outcome, after) := by
  obtain ⟨program, evaluated⟩ := ending_eq_some ended
  rw [ending, evaluate_of_le le evaluated]
  rfl

/-- How an expression ends, at some depth and then at every greater one. -/
def Expression.Ends (expression : Expression) (environment : Environment)
    (outcome : Except Fault Expression) (after : Environment) : Prop :=
  ∃ depth, (evaluate depth).ending expression environment = some (outcome, after)

/-- One level more is enough, too. -/
theorem Expression.Ends.exists_succ {expression : Expression} {environment after : Environment}
    {outcome : Except Fault Expression} (ended : expression.Ends environment outcome after) :
    ∃ depth, (evaluate (depth + 1)).ending expression environment = some (outcome, after) := by
  obtain ⟨depth, ended⟩ := ended
  exact ⟨depth, Evaluator.ending_of_le (Nat.le_succ depth) ended⟩

/-- Two expressions end alike if one of them always takes some more levels than the other. -/
theorem Expression.ends_iff_of_shift {first second : Expression} {environment after : Environment}
    {outcome : Except Fault Expression} {more others : Nat}
    (same : ∀ depth,
      (evaluate (depth + more)).ending first environment = some (outcome, after) ↔
        (evaluate (depth + others)).ending second environment = some (outcome, after)) :
    first.Ends environment outcome after ↔ second.Ends environment outcome after := by
  constructor
  · rintro ⟨depth, ended⟩
    exact ⟨_, (same depth).mp (Evaluator.ending_of_le (Nat.le_add_right _ _) ended)⟩
  · rintro ⟨depth, ended⟩
    exact ⟨_, (same depth).mpr (Evaluator.ending_of_le (Nat.le_add_right _ _) ended)⟩

/-- An attempt that leaves the environment as it is. -/
def Attempt.within {α : Type} (attempt : Attempt α) (environment : Environment) : Ending α :=
  attempt.run.map fun outcome => (outcome, environment)

/-- Evaluates expressions from left to right, up to the first fault. -/
def evaluateAll (evaluate : Evaluator) : List Expression → Environment → Ending (List Expression)
  | [], environment => some (.ok [], environment)
  | expression :: rest, environment =>
      (evaluate.ending expression environment).andThen fun value middle =>
        (evaluateAll evaluate rest middle).andThen fun values after =>
          some (.ok (value :: values), after)

namespace Turn

variable {α β : Type}

/-- The turn ends like this, whatever it leaves of the children. -/
def EndsLike (turn : Turn α) (frame : TurnFrame) (ending : Ending α) : Prop :=
  ∃ children, turn.runOn frame =
    ending.map fun (outcome, after) => (outcome, ⟨children, after⟩)

namespace EndsLike

variable {frame : TurnFrame} {ending : Ending α}

/-- Turns in a row end like their endings in a row. -/
theorem bind {turn : Turn α} {next : α → Turn β} {nextEnding : α → Environment → Ending β}
    (first : turn.EndsLike frame ending)
    (second : ∀ value children after,
      (next value).EndsLike ⟨children, after⟩ (nextEnding value after)) :
    (turn >>= next).EndsLike frame (ending.andThen nextEnding) := by
  obtain ⟨children, ran⟩ := first
  unfold EndsLike
  rw [runOn_bind, ran]
  rcases ending with _ | ⟨fault | value, after⟩
  · exact ⟨children, rfl⟩
  · exact ⟨children, rfl⟩
  · exact second value children after

/-- What changes nothing and has a value is left out. -/
theorem step {turn : Turn α} {next : α → Turn β} {ending : Ending β} {value : α}
    (ran : turn.runOn frame = some (.ok value, frame))
    (following : (next value).EndsLike frame ending) : (turn >>= next).EndsLike frame ending := by
  obtain ⟨children, ended⟩ := following
  refine ⟨children, ?_⟩
  rw [runOn_bind, ran]
  exact ended

/-- A turn that only returns a value ends in it and leaves the environment. -/
theorem pure (value : α) : (pure value : Turn α).EndsLike frame
    (some (.ok value, frame.environment)) :=
  ⟨frame.children, rfl⟩

/-- A turn that is only an outcome ends in it and leaves the environment. -/
theorem ofExcept (outcome : Except Fault α) :
    (MonadExcept.ofExcept outcome : Turn α).EndsLike frame (some (outcome, frame.environment)) :=
  ⟨frame.children, runOn_ofExcept frame outcome⟩

/-- An attempt within a turn leaves the environment as it is. -/
theorem ofAttempt (attempt : Attempt α) :
    (ofAttempt attempt).EndsLike frame (attempt.within frame.environment) := by
  refine ⟨frame.children, ?_⟩
  rw [runOn_ofAttempt, Attempt.within, Option.map_map]
  rfl

/-- Evaluating a child ends like the child by itself. -/
theorem evaluateChild (evaluate : Evaluator) (index : Nat) :
    (evaluateChild evaluate index).EndsLike frame
      (evaluate.ending ((frame.children[index]?).getD .absent) frame.environment) := by
  unfold EndsLike Turn.evaluateChild Evaluator.ending
  rw [runOn_ofRun]
  cases evaluate ((frame.children[index]?).getD .absent) frame.environment with
  | none => exact ⟨frame.children, rfl⟩
  | some evaluation => exact ⟨frame.children.set index evaluation.program, rfl⟩

/-- A child is evaluated, and the other children stay what they are. -/
theorem evaluateChild_bind {evaluate : Evaluator} {index : Nat} {next : Expression → Turn β}
    {nextEnding : Expression → Environment → Ending β}
    (second : ∀ value program after,
      evaluate.ending ((frame.children[index]?).getD .absent) frame.environment =
          some (.ok value, after) →
        (next value).EndsLike ⟨frame.children.set index program, after⟩ (nextEnding value after)) :
    (Turn.evaluateChild evaluate index >>= next).EndsLike frame
      ((evaluate.ending ((frame.children[index]?).getD .absent) frame.environment).andThen
        nextEnding) := by
  unfold Evaluator.ending at second ⊢
  unfold EndsLike Turn.evaluateChild
  rw [runOn_bind, runOn_ofRun]
  rcases evaluated : evaluate ((frame.children[index]?).getD .absent) frame.environment with
    _ | ⟨fault | value, program, after⟩
  · exact ⟨[], rfl⟩
  · exact ⟨_, rfl⟩
  · exact second value program after (by rw [evaluated, Option.map_some])

/-- Evaluating a loose expression ends like the expression by itself. -/
theorem evaluateLoose (evaluate : Evaluator) (expression : Expression) :
    (evaluateLoose evaluate expression).EndsLike frame
      (evaluate.ending expression frame.environment) := by
  refine ⟨frame.children, ?_⟩
  rw [Turn.evaluateLoose, runOn_ofRun, Evaluator.ending, Option.map_map]
  rfl

/-- Evaluating loose expressions in order ends like the expressions in a row. -/
theorem evaluateAllLoose (evaluate : Evaluator) (expressions : List Expression) :
    (evaluateAllLoose evaluate expressions).EndsLike frame
      (evaluateAll evaluate expressions frame.environment) := by
  induction expressions generalizing frame with
  | nil => exact pure []
  | cons expression rest inductionHypothesis =>
      apply bind (evaluateLoose evaluate expression)
      intro value children middle
      apply bind inductionHypothesis
      intro values children after
      exact pure (value :: values)

/-- An evaluated child is not evaluated again, so its decorations make no difference. -/
theorem evaluateFrom (evaluate : Evaluator) {count index : Nat}
    (within : index + count = frame.children.length) :
    (evaluateFrom evaluate index count).EndsLike frame
      (evaluateAll evaluate (frame.children.drop index) frame.environment) := by
  induction count generalizing index frame with
  | zero =>
      rw [Nat.add_zero] at within
      rw [List.drop_eq_nil_of_le (Nat.le_of_eq within.symm)]
      exact pure []
  | succ count inductionHypothesis =>
      have bounded : index < frame.children.length := by omega
      rw [List.drop_eq_getElem_cons bounded]
      unfold EndsLike
      rw [Turn.evaluateFrom, runOn_bind, Turn.evaluateChild, runOn_ofRun,
        List.getElem?_eq_getElem bounded, Option.getD_some, evaluateAll, Evaluator.ending]
      cases evaluate frame.children[index] frame.environment with
      | none => exact ⟨frame.children, rfl⟩
      | some evaluation =>
          obtain ⟨outcome, program, middle⟩ := evaluation
          -- The operands behind this one are not touched by decorating it.
          have others : (Turn.evaluateFrom evaluate (index + 1) count).EndsLike
              ⟨frame.children.set index program, middle⟩
              (evaluateAll evaluate (frame.children.drop (index + 1)) middle) := by
            rw [← List.drop_set_of_lt (Nat.lt_add_one index)]
            apply inductionHypothesis
            rw [List.length_set]
            omega
          cases outcome with
          | error fault => exact ⟨_, rfl⟩
          | ok value => exact bind others fun values children after => pure (value :: values)

/-- The children are evaluated like operands. -/
theorem evaluateChildren (evaluate : Evaluator) :
    (evaluateChildren evaluate).EndsLike frame
      (evaluateAll evaluate frame.children frame.environment) := by
  have all := evaluateFrom evaluate (Nat.zero_add frame.children.length)
  rw [List.drop_zero] at all
  exact step (runOn_children frame) all

end EndsLike

end Turn

/-- What a name can be called for, in an environment. -/
inductive Environment.Denotes (environment : Environment) (name : String) : Callable → Prop where
  | builtin {procedure : Builtin} (found : environment.find? name = some (.procedure procedure)) :
      Denotes environment name (.builtin procedure)
  | lambda {value : Expression} (found : environment.find? name = some (.value value))
      (isLambda : value.isLambda = true) : Denotes environment name (.lambda value)

/-- What a name denotes is what a form finds under it. -/
theorem Environment.Denotes.resolve {environment : Environment} {name : String}
    {callable : Callable} (denotes : environment.Denotes name callable) (form : String) :
    Callable.resolve environment form (.symbol name) = .ok callable := by
  have bare : (Expression.symbol name).bareSymbol? = some name := rfl
  unfold Callable.resolve
  cases denotes with
  | builtin found => simp only [bare, found]
  | lambda found isLambda => simp only [bare, found, isLambda, if_true]

/-- What `apply` does with the elements of its list: a builtin procedure is called with them,
and a procedure value with the values that they have in their turn. -/
def Callable.applied (evaluate : Evaluator) (callable : Callable) (elements : List Expression)
    (environment : Environment) : Ending Expression :=
  match callable with
  | builtin procedure => (procedure.call elements).within environment
  | lambda value =>
      (evaluateAll evaluate elements environment).andThen fun arguments after =>
        (callLambda evaluate value arguments after).within after

namespace Turn.EndsLike

variable {evaluate : Evaluator} {name : String} {callable : Callable}

/-- A call ends like its operands if one of them faults, and like what is called otherwise. -/
theorem application {frame : TurnFrame} (denotes : frame.environment.Denotes name callable) :
    (Forms.application evaluate name).EndsLike frame
      ((evaluateAll evaluate frame.children frame.environment).andThen fun values after =>
        (callable.call evaluate values after).within after) := by
  unfold Forms.application
  apply step (runOn_environment frame)
  cases denotes with
  | builtin found =>
      simp only [found]
      apply bind (evaluateChildren evaluate)
      intro values children after
      exact ofAttempt _
  | @lambda value found isLambda =>
      have checked : (MonadExcept.ofExcept (check value.isLambda (.notAProcedure name)) :
          Turn Unit).runOn frame = some (.ok (), frame) := by
        rw [isLambda]
        rfl
      simp only [found]
      apply step checked
      apply bind (evaluateChildren evaluate)
      intro values children after
      apply step (runOn_environment _)
      exact ofAttempt _

/-- `apply` finds what is called before its list is evaluated. -/
theorem apply {environment : Environment} {list : Expression}
    (denotes : environment.Denotes name callable) :
    (Forms.apply evaluate).EndsLike ⟨[.symbol name, list], environment⟩
      ((evaluate.ending list environment).andThen fun value after =>
        Ending.andThen (some (value.toElements Keyword.apply.name, after))
          (callable.applied evaluate)) := by
  unfold Forms.apply
  apply @step _ _ _ _ _ _ () rfl
  apply step (runOn_environment _)
  apply step (runOn_child _ 0)
  rw [List.getElem?_cons_zero, Option.getD_some, denotes.resolve]
  apply step (runOn_ofExcept _ _)
  apply bind (evaluateChild evaluate 1)
  intro value children after
  apply bind (ofExcept _)
  intro elements children after
  cases callable with
  | builtin procedure => exact ofAttempt _
  | lambda procedure =>
      apply bind (evaluateAllLoose evaluate elements)
      intro arguments children after
      apply step (runOn_environment _)
      exact ofAttempt _

end Turn.EndsLike

/-- What is no leaf, or is the empty list, ends like the turn that its head names. -/
theorem ending_of_endsLike {depth : Nat} {name : String} {children : List Expression}
    {environment : Environment} {ending : Ending Expression}
    (composite : children ≠ [] ∨ name = Expression.listName)
    (ends : (Forms.named (evaluate depth) name).EndsLike ⟨children, environment⟩ ending)
    (properties : Table Expression) :
    (evaluate (depth + 1)).ending (.node (.symbol name) children properties) environment =
      ending := by
  obtain ⟨decorated, ran⟩ := ends
  rw [Evaluator.ending, evaluate, Evaluation.step_named composite, ran, Option.map_map,
    Option.map_map]
  exact congrFun Option.map_id ending

/-- Operands that are evaluated within some depth end in the same way at every greater one. -/
theorem evaluateAll_of_le {depth more : Nat} (le : depth ≤ more) {expressions : List Expression}
    {environment after : Environment} {outcome : Except Fault (List Expression)}
    (ended : evaluateAll (evaluate depth) expressions environment = some (outcome, after)) :
    evaluateAll (evaluate more) expressions environment = some (outcome, after) := by
  induction expressions generalizing environment after outcome with
  | nil => exact ended
  | cons expression rest inductionHypothesis =>
      rw [evaluateAll]
      rcases Ending.andThen_eq_some ended with ⟨fault, first, rfl⟩ | ⟨value, middle, first, others⟩
      · rw [Evaluator.ending_of_le le first, Ending.error_andThen]
      rw [Evaluator.ending_of_le le first, Ending.ok_andThen]
      rcases Ending.andThen_eq_some others with
        ⟨fault, remaining, rfl⟩ | ⟨values, final, remaining, last⟩
      · rw [inductionHypothesis remaining, Ending.error_andThen]
      · rw [inductionHypothesis remaining, Ending.ok_andThen, last]

/-- Operands that have values extend an environment of settled values, and their values are
settled. -/
theorem evaluateAll_settles {depth : Nat} {expressions values : List Expression}
    {environment after : Environment} (holds : environment.Holds Expression.Settled)
    (ended : evaluateAll (evaluate depth) expressions environment = some (.ok values, after)) :
    environment.ExtendedBy after ∧ ∀ value ∈ values, Expression.Settled value := by
  induction expressions generalizing environment values with
  | nil =>
      cases ended
      exact ⟨.refl _, by simp⟩
  | cons expression rest inductionHypothesis =>
      obtain ⟨value, middle, first, others⟩ := Ending.andThen_eq_ok ended
      obtain ⟨values, final, remaining, last⟩ := Ending.andThen_eq_ok others
      cases last
      obtain ⟨program, evaluated⟩ := Evaluator.ending_eq_some first
      have extended := (evaluate_extendedBy evaluated).1
      obtain ⟨middleHolds, settled, -⟩ := evaluate_settles depth holds evaluated
      obtain ⟨further, restSettled⟩ := inductionHypothesis middleHolds remaining
      constructor
      · exact extended.trans further
      · exact List.forall_mem_cons.mpr ⟨settled value rfl, restSettled⟩

end PlotLisp
