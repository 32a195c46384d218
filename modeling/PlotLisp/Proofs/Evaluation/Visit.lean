import PlotLisp.Evaluation.Basic

/-!
# What an evaluation visits

One step of evaluation leaves its parts to an evaluator. Which parts it evaluates, and in
which environments, shows in what it makes of other evaluators: an answer that can change
the end of the step is one that the step asks for. Nothing else matters to a step, by
`step_eq_of_asks`. An evaluation visits what its steps ask for, and what the evaluations of
that visit in turn.
-/

namespace PlotLisp

namespace Evaluation

/-- The step asks what becomes of the part in the scope: with another answer, and no other
difference between the evaluators, it ends differently. -/
def Asks (evaluate : Evaluator) (expression : Expression) (environment : Environment)
    (part : Expression) (scope : Environment) : Prop :=
  ∃ other : Evaluator,
    (∀ expression environment, (expression, environment) ≠ (part, scope) →
      other expression environment = evaluate expression environment) ∧
    step other expression environment ≠ step evaluate expression environment

/-- While an expression is evaluated within the depth, the part is evaluated in the scope
with the remaining depth, itself or inside of the evaluation of another part. -/
inductive Visits : Nat → Expression → Environment → Nat → Expression → Environment → Prop where
  | itself {depth : Nat} {expression : Expression} {environment : Environment} :
      Visits depth expression environment depth expression environment
  | inside {depth rest : Nat} {expression part inner : Expression}
      {environment scope within : Environment}
      (asked : Asks (evaluate depth) expression environment part scope)
      (further : Visits depth part scope rest inner within) :
      Visits (depth + 1) expression environment rest inner within

/-- What steps carry over to the scopes that they ask about holds in every scope that is
visited. -/
theorem Visits.holds {Holds : Environment → Prop}
    (carried : ∀ {depth expression environment part scope}, Holds environment →
      Asks (evaluate depth) expression environment part scope → Holds scope)
    {depth rest : Nat} {expression part : Expression} {environment scope : Environment}
    (start : Holds environment)
    (visited : Visits depth expression environment rest part scope) : Holds scope := by
  induction visited with
  | itself => exact start
  | inside asked _ inductionHypothesis => exact inductionHypothesis (carried start asked)

end Evaluation

/-- The evaluator with this answer for the part in the scope, and the same ones elsewhere. -/
def Evaluator.answering (evaluate : Evaluator) (part : Expression) (scope : Environment)
    (answer : Option Evaluation) : Evaluator :=
  fun expression environment =>
    if expression = part ∧ environment = scope then answer else evaluate expression environment

namespace Evaluator

variable (evaluate : Evaluator) (part : Expression) (scope : Environment)
  (answer : Option Evaluation)

/-- The replaced answer is given in its place. -/
@[simp] theorem answering_self : evaluate.answering part scope answer part scope = answer :=
  if_pos ⟨rfl, rfl⟩

/-- Giving the same answer changes nothing. -/
@[simp] theorem answering_same :
    evaluate.answering part scope (evaluate part scope) = evaluate := by
  funext expression environment
  by_cases here : expression = part ∧ environment = scope
  · obtain ⟨rfl, rfl⟩ := here
    exact evaluate.answering_self expression environment _
  · exact if_neg here

variable {evaluate part scope answer}

/-- Replacing an answer makes no difference elsewhere. -/
theorem eq_of_answering_ne {expression : Expression} {environment : Environment}
    (differs : evaluate.answering part scope answer expression environment ≠
      evaluate expression environment) : expression = part ∧ environment = scope := by
  by_cases here : expression = part ∧ environment = scope
  · exact here
  · exact absurd (if_neg here) differs

end Evaluator

/-- A step asks for an answer that it ends differently with. -/
theorem Evaluation.asks_of_answering {evaluate : Evaluator} {expression part : Expression}
    {environment scope : Environment} (answer : Option Evaluation)
    (differs : step (evaluate.answering part scope answer) expression environment ≠
      step evaluate expression environment) :
    Asks evaluate expression environment part scope := by
  refine ⟨evaluate.answering part scope answer, fun other outer different => ?_, differs⟩
  exact if_neg fun same => different (Prod.ext same.1 same.2)

end PlotLisp
