import PlotLisp.Proofs.Evaluation.Operands
import PlotLisp.Proofs.Evaluation.SelfEvaluation

/-!
# Values as operands

Values that are evaluated once more either stand for themselves, all of them, or the first one
with something absent in it, outside the bodies of procedure values, is the fault of the whole.
The environment stays the same in both cases.
-/

namespace PlotLisp

namespace Expression

/-- Nothing is absent in the expression, outside the bodies of its procedure values. -/
def Present (expression : Expression) : Prop :=
  ∀ part, PartOf part expression → part.head ≠ .absent

/-- Nothing is absent in an expression if its head is not and nothing is absent in the children
outside of bodies. -/
theorem present_iff {expression : Expression} :
    expression.Present ↔
      expression.head ≠ .absent ∧ ∀ child ∈ expression.outer, child.Present :=
  PartOf.forall_iff

/-- Nothing is absent in a list if nothing is absent in its elements. -/
theorem present_list {elements : List Expression} {properties : Table Expression} :
    (node (.symbol listName) elements properties).Present ↔
      ∀ element ∈ elements, element.Present := by
  rw [present_iff, outer_list]
  simp

/-- A bare symbol is not absent, so a parameter never is. -/
theorem present_of_bareSymbol? {expression : Expression} {name : String}
    (bare : expression.bareSymbol? = some name) : expression.Present := by
  obtain ⟨head, children, properties⟩ := expression
  unfold bareSymbol? at bare
  split at bare
  case isFalse => cases bare
  case isTrue leaf =>
    obtain rfl : children = [] := by simpa [isLeaf] using leaf
    rw [present_iff, outer_terminal]
    cases head with
    | absent => cases bare
    | symbol | number | complex | text => simp

end Expression

open Expression

variable {environment : Environment}

/-- A list ends like its elements if one of them faults. -/
theorem ending_list (builtin : environment.find? listName = some (.procedure .list))
    (depth : Nat) (elements : List Expression) (properties : Table Expression) :
    (evaluate (depth + 1)).ending (.node (.symbol listName) elements properties) environment =
      (evaluateAll (evaluate depth) elements environment).andThen fun values after =>
        some (.ok (.list values), after) := by
  apply ending_of_endsLike (.inr rfl)
  apply @Turn.EndsLike.application _ _ (.builtin .list) ⟨elements, environment⟩
  exact .builtin builtin

/-- Operands that stand for something and change nothing. -/
theorem evaluateAll_of_fixed {evaluate : Evaluator} {result : Expression → Expression}
    {values : List Expression}
    (fixed : ∀ value ∈ values,
      evaluate value environment = some ⟨.ok (result value), value, environment⟩) :
    evaluateAll evaluate values environment = some (.ok (values.map result), environment) := by
  induction values with
  | nil => rfl
  | cons value rest inductionHypothesis =>
      obtain ⟨first, others⟩ := List.forall_mem_cons.mp fixed
      rw [evaluateAll, Evaluator.ending, first, Option.map_some, Ending.ok_andThen,
        inductionHypothesis others, Ending.ok_andThen, List.map_cons]

/-- Values in which nothing is absent stand for themselves. -/
theorem evaluateAll_of_present {values : List Expression}
    (isValue : ∀ value ∈ values, IsValue value) (present : ∀ value ∈ values, value.Present)
    (builtin : environment.find? listName = some (.procedure .list)) :
    ∃ bound, ∀ depth, bound ≤ depth →
      evaluateAll (evaluate depth) values environment =
        some (.ok (values.map undecorated), environment) := by
  have each : ∀ value ∈ values, EvaluatesTo environment value value.undecorated := by
    intro value member
    exact .of_isValue (isValue value member) (present value member) builtin
  obtain ⟨bound, ends⟩ := EvaluatesTo.uniform each
  exact ⟨bound, fun depth enough => evaluateAll_of_fixed (ends depth enough)⟩

/-- The expression faults in the environment because of what is absent in it. -/
def FaultsAsAbsent (environment : Environment) (expression : Expression) : Prop :=
  ∃ bound, ∀ depth, bound ≤ depth →
    (evaluate depth).ending expression environment = some (.error .absentTerminal, environment)

/-- The first value with something absent in it ends a row of values; those before it are evaluated
to themselves and change nothing. -/
theorem evaluateAll_of_faults {values : List Expression}
    (builtin : environment.find? listName = some (.procedure .list))
    (isValue : ∀ value ∈ values, IsValue value)
    (faults : ∀ value ∈ values, ¬ value.Present → FaultsAsAbsent environment value)
    (someAbsent : ∃ value ∈ values, ¬ value.Present) :
    ∃ bound, ∀ depth, bound ≤ depth →
      evaluateAll (evaluate depth) values environment =
        some (.error .absentTerminal, environment) := by
  induction values with
  | nil => simp at someAbsent
  | cons value rest inductionHypothesis =>
      obtain ⟨firstIsValue, restAreValues⟩ := List.forall_mem_cons.mp isValue
      obtain ⟨firstFaults, restFault⟩ := List.forall_mem_cons.mp faults
      by_cases present : value.Present
      · obtain ⟨firstBound, firstEnds⟩ := EvaluatesTo.of_isValue firstIsValue present builtin
        have restAbsent : ∃ value ∈ rest, ¬ value.Present := by
          simpa [present] using someAbsent
        obtain ⟨restBound, restEnds⟩ := inductionHypothesis restAreValues restFault restAbsent
        refine ⟨max firstBound restBound, fun depth enough => ?_⟩
        rw [evaluateAll, Evaluator.ending, firstEnds depth (by omega), Option.map_some,
          Ending.ok_andThen, restEnds depth (by omega), Ending.error_andThen]
      · obtain ⟨bound, ends⟩ := firstFaults present
        refine ⟨bound, fun depth enough => ?_⟩
        rw [evaluateAll, ends depth enough, Ending.error_andThen]

/-- A value with something absent in it faults. -/
theorem FaultsAsAbsent.of_isValue {value : Expression} (isValue : IsValue value)
    (someAbsent : ¬ value.Present)
    (builtin : environment.find? listName = some (.procedure .list)) :
    FaultsAsAbsent environment value := by
  induction isValue with
  | @terminal head properties constant =>
      obtain rfl : head = .absent := by
        by_contra different
        exact someAbsent (present_iff.mpr ⟨different, by simp⟩)
      refine ⟨1, fun depth enough => ?_⟩
      obtain ⟨depth, rfl⟩ := Nat.exists_eq_add_of_le' enough
      rfl
  | @list elements properties areValues inductionHypothesis =>
      rw [present_list] at someAbsent
      obtain ⟨bound, ends⟩ := evaluateAll_of_faults builtin areValues inductionHypothesis
        (by simpa using someAbsent)
      refine ⟨bound + 1, fun depth enough => ?_⟩
      obtain ⟨depth, rfl⟩ := Nat.exists_eq_add_of_le' (Nat.le_trans (Nat.le_add_left 1 bound) enough)
      rw [ending_list builtin, ends depth (by omega), Ending.error_andThen]
  | @lambda parameters body attached properties spelled =>
      refine absurd ?_ someAbsent
      rw [present_iff, outer_lambda, List.forall_mem_singleton, present_list]
      refine ⟨by simp, fun parameter member => ?_⟩
      obtain ⟨name, bare, -⟩ := spelled parameter member
      exact present_of_bareSymbol? bare

/-- Values of which one has something absent in it fault as operands. -/
theorem evaluateAll_of_absent {values : List Expression}
    (isValue : ∀ value ∈ values, IsValue value) (someAbsent : ∃ value ∈ values, ¬ value.Present)
    (builtin : environment.find? listName = some (.procedure .list)) :
    ∃ bound, ∀ depth, bound ≤ depth →
      evaluateAll (evaluate depth) values environment =
        some (.error .absentTerminal, environment) := by
  apply evaluateAll_of_faults builtin isValue _ someAbsent
  intro value member absent
  exact .of_isValue (isValue value member) absent builtin

end PlotLisp
