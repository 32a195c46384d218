import PlotLisp.Proofs.Evaluation.Visit
import PlotLisp.Proofs.Session.Reachable

/-!
# Keywords as names

No evaluation changes what a keyword denotes in the environment that it is given, so no
keyword is ever bound in the environment of a session. The parameters of a procedure value
are bound unchecked, and nothing keeps a keyword from being one of them: in the scope of
such a call the keyword denotes the argument. It still heads its form there.
-/

namespace PlotLisp

open Expression

namespace Environment

/-- No keyword denotes anything. -/
def FreeOfKeywords (environment : Environment) : Prop :=
  ∀ keyword : Keyword, environment.find? keyword.name = none

/-- An environment that was extended has the same keywords bound. -/
theorem ExtendedBy.find?_keyword {environment after : Environment}
    (extended : environment.ExtendedBy after) (keyword : Keyword) :
    after.find? keyword.name = environment.find? keyword.name := by
  cases bound : environment.find? keyword.name with
  | some binding => exact extended.kept _ _ bound
  | none =>
      cases new : after.find? keyword.name with
      | none => rfl
      | some binding =>
          obtain ⟨notKeyword, -⟩ := extended.added _ _ bound new
          simp [Keyword.isName] at notKeyword

/-- Parameters change what their own names denote and nothing else. -/
theorem find?_bindAll_of_ne {environment scope : Environment} {name : String}
    {pairs : List (Expression × Expression)} (bound : environment.bindAll pairs = .ok scope)
    (different : ∀ pair ∈ pairs, pair.1.head ≠ .symbol name) :
    scope.find? name = environment.find? name := by
  induction pairs generalizing environment with
  | nil =>
      cases bound
      rfl
  | cons pair rest inductionHypothesis =>
      obtain ⟨parameter, argument⟩ := pair
      obtain ⟨first, others⟩ := List.forall_mem_cons.mp different
      obtain ⟨middle, boundFirst, boundRest⟩ := PlotLisp.bind_eq_ok_iff.mp bound
      obtain ⟨other, spelled, rfl⟩ := bind_eq_ok_iff.mp boundFirst
      have distinct : name ≠ other := by
        rintro rfl
        cases head : parameter.head <;> simp_all [Atom.symbol?]
      rw [inductionHypothesis boundRest others, find?_bindName_of_ne distinct]

end Environment

/-- Evaluation changes nothing about what the keywords denote. -/
theorem evaluate_find?_keyword {depth : Nat} {expression : Expression} {environment : Environment}
    {evaluation : Evaluation} (ended : evaluate depth expression environment = some evaluation)
    (keyword : Keyword) :
    evaluation.environment.find? keyword.name = environment.find? keyword.name :=
  (evaluate_extendedBy ended).1.find?_keyword keyword

/-- The environment of a session has no keyword bound. -/
theorem Session.Reached.freeOfKeywords {session : Session} (reached : session.Reached) :
    session.environment.FreeOfKeywords := by
  induction reached with
  | fresh =>
      intro keyword
      cases keyword <;> rfl
  | read _ accepted inductionHypothesis =>
      rw [Session.environment_of_read accepted]
      exact inductionHypothesis
  | evaluate _ ended inductionHypothesis =>
      obtain ⟨evaluation, inner, -, same⟩ := Session.evaluate_eq_some ended
      intro keyword
      rw [← same, evaluate_find?_keyword inner keyword]
      exact inductionHypothesis keyword
  | clear =>
      intro keyword
      cases keyword <;> rfl

/-- Whatever is evaluated, in whatever environment: the keywords denote afterwards what they
denoted before. So the environment of a session has no keyword bound, and the scope of a
call has a keyword bound only if the caller had, or if it is one of the parameters. -/
theorem keywords_are_bound_by_parameters_only :
    (∀ {session : Session}, session.Reached → session.environment.FreeOfKeywords) ∧
      (∀ {depth : Nat} {expression : Expression} {environment : Environment}
        {evaluation : Evaluation}, evaluate depth expression environment = some evaluation →
        ∀ keyword : Keyword, evaluation.environment.find? keyword.name =
          environment.find? keyword.name) ∧
      ∀ {caller scope : Environment} {parameters arguments : List Expression},
        caller.bindAll (parameters.zip arguments) = .ok scope →
        ∀ keyword : Keyword, (∀ parameter ∈ parameters, parameter.head ≠ .symbol keyword.name) →
          scope.find? keyword.name = caller.find? keyword.name := by
  refine ⟨Session.Reached.freeOfKeywords, evaluate_find?_keyword, ?calls⟩
  case calls =>
    intro caller scope parameters arguments bound keyword different
    refine Environment.find?_bindAll_of_ne bound fun pair member => ?_
    exact different pair.1 (List.of_mem_zip member).1

/-- A program that keeps a procedure value whose parameter is a keyword. -/
def keepingKeyword : Expression :=
  .form (.symbol "define")
    [.symbol "f", .form (.symbol "lambda") [.symbol "map", .symbol "map"]]

/-- A later program that calls the procedure value. -/
def callingWithKeyword : Session where
  program := .form (.symbol "f") [.symbol "pi"]
  environment := Environment.fresh.bindName "f" (.lambda (.list [.symbol "map"]) (.symbol "map"))

/-- The scope of the call. -/
def scopeWithKeyword : Environment :=
  callingWithKeyword.environment.bindName "map" (.number Number.pi)

/-- A keyword can be bound in the scope of a call, and the body reads it there. -/
theorem keyword_is_bound_in_scope :
    callingWithKeyword.Reached ∧
      Evaluation.Visits 2 callingWithKeyword.program callingWithKeyword.environment 1
        (.symbol "map") scopeWithKeyword ∧
      scopeWithKeyword.find? Keyword.map.name = some (.value (.number Number.pi)) ∧
      ∃ after, callingWithKeyword.evaluate 2 = some (.ok (.number Number.pi), after) := by
  have reached : callingWithKeyword.Reached := by
    have read : Session.fresh.read "(define f (lambda (map) map))" =
        .ok ⟨keepingKeyword, .fresh⟩ := rfl
    have evaluated : Session.evaluate 2 ⟨keepingKeyword, .fresh⟩ =
        some (.ok (.lambda (.list [.symbol "map"]) (.symbol "map")),
          ⟨keepingKeyword, callingWithKeyword.environment⟩) := rfl
    have readLater : (⟨keepingKeyword, callingWithKeyword.environment⟩ : Session).read "(f pi)" =
        .ok callingWithKeyword := rfl
    exact .read (.evaluate (.read .fresh read) evaluated) readLater
  have stuck : Evaluation.step ((evaluate 1).answering (.symbol "map") scopeWithKeyword none)
      callingWithKeyword.program callingWithKeyword.environment = none := by decide
  have ended : Evaluation.step (evaluate 1) callingWithKeyword.program
      callingWithKeyword.environment ≠ none := nofun
  refine ⟨reached, .inside (Evaluation.asks_of_answering none ?_) .itself, rfl, _, rfl⟩
  rw [stuck]
  exact ended.symm

end PlotLisp
