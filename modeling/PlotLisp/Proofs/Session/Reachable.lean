import PlotLisp.Proofs.Evaluation.Extension
import PlotLisp.Session

/-!
# Sessions that can be reached

A session is reached from the fresh one by reading, evaluating, and clearing, in any
order and whether or not any of it fails. Its environment holds settled values only,
which is what makes evaluating values as programs harmless.
-/

namespace PlotLisp

open Expression

/-- What using a session can lead to, from the fresh one on. -/
inductive Session.Reached : Session → Prop where
  | fresh : Reached .fresh
  | read {session after : Session} {source : String} (prior : Reached session)
      (accepted : session.read source = .ok after) : Reached after
  | evaluate {session after : Session} {depth : Nat} {outcome : Except Fault Expression}
      (prior : Reached session) (ended : session.evaluate depth = some (outcome, after)) :
      Reached after
  | clear {session : Session} (prior : Reached session) : Reached session.clear

namespace Session

/-- Reading changes the program only. -/
theorem environment_of_read {session after : Session} {source : String}
    (accepted : session.read source = .ok after) : after.environment = session.environment := by
  unfold read at accepted
  obtain ⟨program, -, same⟩ := bind_eq_ok_iff.mp accepted
  cases same
  rfl

/-- An evaluation in a session is that of its program in its environment. -/
theorem evaluate_eq_some {session after : Session} {depth : Nat}
    {outcome : Except Fault Expression}
    (ended : session.evaluate depth = some (outcome, after)) :
    ∃ evaluation, PlotLisp.evaluate depth session.program session.environment = some evaluation ∧
      evaluation.outcome = outcome ∧ evaluation.environment = after.environment := by
  obtain ⟨evaluation, evaluated, same⟩ := Option.map_eq_some_iff.mp ended
  cases same
  exact ⟨evaluation, evaluated, rfl, rfl⟩

/-- A run that returns a value has read its source and evaluated the program. -/
theorem run_eq_ok {session after : Session} {depth : Nat} {source : String}
    {value : Expression} (ended : session.run depth source = some (.ok value, after)) :
    ∃ loaded, session.read source = .ok loaded ∧
      loaded.evaluate depth = some (.ok value, after) := by
  unfold run at ended
  cases loading : session.read source with
  | error error => simp [loading] at ended
  | ok loaded =>
      simp only [loading, Option.map_eq_some_iff] at ended
      obtain ⟨⟨outcome, final⟩, evaluated, same⟩ := ended
      cases outcome with
      | error fault => cases same
      | ok result =>
          cases same
          exact ⟨loaded, rfl, evaluated⟩

namespace Reached

/-- Running programs, successfully or not, leads to sessions that are reached. -/
theorem run {session after : Session} {depth : Nat} {source : String}
    {outcome : Except SessionError Expression} (reached : session.Reached)
    (ended : session.run depth source = some (outcome, after)) : after.Reached := by
  unfold Session.run at ended
  cases loading : session.read source with
  | error error =>
      simp only [loading, Option.some.injEq, Prod.mk.injEq] at ended
      exact ended.2 ▸ reached
  | ok loaded =>
      simp only [loading, Option.map_eq_some_iff] at ended
      obtain ⟨⟨result, final⟩, evaluated, same⟩ := ended
      cases same
      exact .evaluate (.read reached loading) evaluated

/-- Every name of a session that is bound to a value is bound to a settled one. -/
theorem holds_settled {session : Session} (reached : session.Reached) :
    session.environment.Holds Settled := by
  induction reached with
  | fresh => exact Environment.Holds.fresh Settled.valueClass
  | read _ accepted inductionHypothesis =>
      rw [environment_of_read accepted]
      exact inductionHypothesis
  | @evaluate session after depth outcome _ ended inductionHypothesis =>
      obtain ⟨evaluation, evaluated, -, same⟩ := evaluate_eq_some ended
      exact same ▸ (evaluate_settles depth inductionHypothesis evaluated).1
  | clear => exact Environment.Holds.fresh Settled.valueClass

end Reached

end Session

/-- Evaluation, whether it ends in a value or in a fault, leaves every binding as it
was and only adds values under names that were free and are no keywords. In the
environment of a session the new names are those of definitions that the program makes
outside all its `lambda` forms. -/
theorem evaluate_only_extends {depth : Nat} {expression : Expression}
    {environment : Environment} {evaluation : Evaluation}
    (ended : evaluate depth expression environment = some evaluation) :
    environment.ExtendedBy evaluation.environment ∧
      ∀ session : Session, session.Reached → session.environment = environment →
        ∀ name, environment.find? name = none →
          evaluation.environment.find? name ≠ none → Defines name expression := by
  refine ⟨(evaluate_extendedBy ended).1, fun session reached same => ?_⟩
  have holds : environment.Holds Settled := same ▸ reached.holds_settled
  exact (evaluate_settles depth holds ended).2.2

/-- Makes a definition and then faults. -/
def definitionThenFault : Expression :=
  .form (.symbol "begin")
    [.form (.symbol "define") [.symbol "a", .literal "text"], .form (.symbol "b") []]

/-- A definition that was made before a fault remains, and it is one of the program. -/
theorem evaluate_only_extends_before_fault :
    ∃ evaluation, evaluate 3 definitionThenFault .fresh = some evaluation ∧
      evaluation.outcome = .error (.unknownSymbol "b") ∧
      evaluation.environment.find? "a" = some (.value (.literal "text")) ∧
      Environment.fresh.ExtendedBy evaluation.environment ∧
      Defines "a" definitionThenFault := by
  refine ⟨_, rfl, rfl, rfl, ?_⟩
  obtain ⟨extended, definitions⟩ := @evaluate_only_extends 3 definitionThenFault .fresh _ rfl
  exact ⟨extended, definitions .fresh .fresh rfl "a" rfl nofun⟩

end PlotLisp
