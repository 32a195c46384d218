import PlotLisp.Proofs.Evaluation.Dependence
import PlotLisp.Proofs.Evaluation.Guarding
import PlotLisp.Proofs.Session.Reachable

/-!
# Builtin procedures cannot be shadowed

Every scope that the programs of a session are evaluated in is protected: the builtin
procedures are found under their names, and the procedure values found under other names
can be called without changing that.
-/

namespace PlotLisp

open Expression

/-- The environment of a session is guarded. -/
theorem Session.Reached.guarded {session : Session} (reached : session.Reached) :
    session.environment.Guarded := by
  induction reached with
  | fresh => exact .fresh
  | read _ accepted inductionHypothesis =>
      rw [environment_of_read accepted]
      exact inductionHypothesis
  | evaluate _ ended inductionHypothesis =>
      obtain ⟨evaluation, evaluated, -, same⟩ := evaluate_eq_some ended
      exact same ▸ (evaluate_guarded inductionHypothesis evaluated).1
  | clear => exact .fresh

/-- Whatever part of a program of a session is evaluated, in whatever scope: there, and in
what the evaluation leaves behind, every builtin procedure is bound to its own name, and
every procedure value that a name denotes has a list of bare symbols for its parameters,
none of them the name of a builtin procedure. Calls find their procedure values in these
environments, so none of them meets a malformed one or faults at binding a parameter. -/
theorem builtins_are_never_shadowed {session : Session} (reached : session.Reached)
    {depth rest : Nat} {part : Expression} {scope : Environment}
    (visited : Evaluation.Visits depth session.program session.environment rest part scope) :
    scope.Protected ∧ ∀ evaluation, evaluate rest part scope = some evaluation →
      evaluation.environment.Protected ∧ evaluation.outcome ≠ .error .unnamedBinding := by
  have guarded : scope.Guarded :=
    visited.holds (fun allowed asked => asked.guarded allowed) reached.guarded
  refine ⟨guarded.toProtected, fun evaluation ended => ?_⟩
  obtain ⟨after, outcome⟩ := evaluate_guarded guarded ended
  exact ⟨after.toProtected, outcome⟩

/-- The body of a procedure value. -/
def keptBody : Expression :=
  .form (.symbol "list") [.symbol "x"]

/-- A program that keeps the procedure value under a name. -/
def keeping : Expression :=
  .form (.symbol "define")
    [.symbol "keep", .form (.symbol "lambda") [.symbol "x", keptBody]]

/-- A later program that maps the procedure value over a list. -/
def mapping : Session where
  program := .form (.symbol "map") [.symbol "keep", .form (.symbol "list") [.symbol "pi"]]
  environment := Environment.fresh.bindName "keep" (.lambda (.list [.symbol "x"]) keptBody)

/-- The private scope in which the body is evaluated then. -/
def mappingScope : Environment :=
  mapping.environment.bindName "x" (.number Number.pi)

/-- The body is evaluated in its private scope. -/
theorem visits_keptBody :
    Evaluation.Visits 3 mapping.program mapping.environment 2 keptBody mappingScope := by
  have stuck : Evaluation.step ((evaluate 2).answering keptBody mappingScope none)
      mapping.program mapping.environment = none := by decide
  have ended : Evaluation.step (evaluate 2) mapping.program mapping.environment ≠ none := nofun
  refine .inside (Evaluation.asks_of_answering none ?_) .itself
  rw [stuck]
  exact ended.symm

/-- The body is evaluated in a private scope that has the parameter, and builtin procedures
are not shadowed there. -/
theorem builtins_are_not_shadowed_while_mapping :
    mapping.Reached ∧
      Evaluation.Visits 3 mapping.program mapping.environment 2 keptBody mappingScope ∧
      mappingScope.value? "x" = some (.number Number.pi) ∧ mappingScope.Protected ∧
      ∃ evaluation, evaluate 2 keptBody mappingScope = some evaluation ∧
        evaluation.environment.Protected ∧ evaluation.outcome ≠ .error .unnamedBinding := by
  have reached : mapping.Reached := by
    have read : Session.fresh.read "(define keep (lambda (x) (list x)))" =
        .ok ⟨keeping, .fresh⟩ := rfl
    have evaluated : Session.evaluate 3 ⟨keeping, .fresh⟩ =
        some (.ok (.lambda (.list [.symbol "x"]) keptBody), ⟨keeping, mapping.environment⟩) :=
      rfl
    have readLater : (⟨keeping, mapping.environment⟩ : Session).read "(map keep (list pi))" =
        .ok mapping := rfl
    exact .read (.evaluate (.read .fresh read) evaluated) readLater
  obtain ⟨safe, after⟩ := builtins_are_never_shadowed reached visits_keptBody
  exact ⟨reached, visits_keptBody, rfl, safe, _, rfl, after _ rfl⟩

end PlotLisp
