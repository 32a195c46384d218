import PlotLisp.Evaluation.Forms

/-!
# Evaluation

`step` evaluates one expression with an evaluator for its parts, and `evaluate`
ties the knot up to a given depth. Within the depth the answer does not depend on
it; beyond it there is none, which is neither a value nor a fault.
-/

namespace PlotLisp

namespace Evaluation

/-- The value of a leaf: numbers and texts stand for themselves, without their
properties, and a symbol for the value it is bound to. -/
def lookUp (head : Atom) (environment : Environment) : Except Fault Expression :=
  match head with
  | .number _ | .complex _ | .text _ => .ok (.leaf head)
  | .symbol name =>
      match environment.value? name with
      | some value => .ok value
      | none => .error (.unknownSymbol name)
  | .absent => .error .absentTerminal

/-- Evaluates one expression. A leaf is looked up, unless it is the empty list; any
other expression is a form or a call named by its head. -/
def step (evaluate : Evaluator) : Evaluator
  | .node head children properties, environment =>
      let unchanged := Expression.node head children properties
      if children.isEmpty && !head.isSymbol Expression.listName then
        some ⟨lookUp head environment, unchanged, environment⟩
      else
        match head.symbol? with
        | none => some ⟨.error (.notAProcedure head.render), unchanged, environment⟩
        | some name =>
            let turn :=
              match Keyword.ofName? name with
              | some keyword => Forms.ofKeyword evaluate keyword
              | none => Forms.application evaluate name
            (turn.runOn ⟨children, environment⟩).map fun (outcome, frame) =>
              ⟨outcome, .node head frame.children properties, frame.environment⟩

end Evaluation

/-- Evaluates an expression whose evaluation nests no deeper than `depth`. -/
def evaluate : Nat → Evaluator
  | 0 => fun _ _ => none
  | depth + 1 => Evaluation.step (evaluate depth)

end PlotLisp
