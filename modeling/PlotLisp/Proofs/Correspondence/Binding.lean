import PlotLisp.Proofs.Correspondence.Turn

/-!
# Matching bindings

A definition and the call of a procedure value both bind names. Under a correspondence in
which environments still match after matching values were bound to matching names, whatever
the names, nothing else has to be said of either: both match as soon as reading does.
-/

namespace PlotLisp.Correspondence

variable {correspondence : Correspondence}

/-- Environments match after matching names were bound in them, to matching values. -/
def BindsNames (correspondence : Correspondence) : Prop :=
  ∀ {name other : String} {environment environment' : Environment} {value value' : Expression},
    correspondence.Names name other → correspondence.Environments environment environment' →
    correspondence.Values value value' →
    correspondence.Environments (environment.bindName name value)
      (environment'.bindName other value')

namespace StaticLaws

variable (laws : correspondence.StaticLaws) {environment environment' : Environment}

include laws

/-- A name may receive a definition where a matching one may. -/
theorem checkDefinable_matches {name other : String}
    (names : correspondence.Names name other)
    (environments : correspondence.Environments environment environment') :
    Matches correspondence.Faults (fun _ _ => True) (environment.checkDefinable name)
      (environment'.checkDefinable other) := by
  have found := laws.found names environments
  unfold Environment.checkDefinable Keyword.isName
  rw [laws.keyword names]
  generalize environment.find? name = binding at found
  generalize environment'.find? other = binding' at found
  split
  · exact .error (laws.faults (.keywordRedefinition names))
  · cases found with
    | none => exact .ok trivial
    | some bindings =>
        cases bindings with
        | procedure => exact .error (laws.faults (.builtinRedefinition names))
        | value => exact .error (laws.faults (.symbolRedefinition names))

variable (binds : correspondence.BindsNames)

include binds

/-- A definition of matching names is refused for the same reason on both sides, or leaves matching
environments. -/
theorem define_matches {name other : String} {value value' : Expression}
    (names : correspondence.Names name other)
    (environments : correspondence.Environments environment environment')
    (values : correspondence.Values value value') :
    Matches correspondence.Faults correspondence.Environments (environment.define name value)
      (environment'.define other value') := by
  apply Matches.bind (laws.checkDefinable_matches names environments)
  intro _ _ _
  exact .ok (binds names environments values)

variable (unnamed : correspondence.Faults .unnamedBinding .unnamedBinding)

include unnamed

omit laws in
/-- Only symbols are bound, and heads are symbols together. -/
theorem bind_matches {head head' : Atom} {value value' : Expression}
    (heads : correspondence.Heads head head')
    (environments : correspondence.Environments environment environment')
    (values : correspondence.Values value value') :
    Matches correspondence.Faults correspondence.Environments (environment.bind head value)
      (environment'.bind head' value') := by
  unfold Environment.bind
  cases heads with
  | constant constant =>
      rw [constant]
      exact .error unnamed
  | symbol names => exact .ok (binds names environments values)

/-- Binding matching parameters to matching arguments in turn leaves matching environments, or
stops at the same parameter. -/
theorem bindAll_matches {parameters parameters' arguments arguments' : List Expression}
    (related : List.Forall₂ correspondence.Programs parameters parameters')
    (given : List.Forall₂ correspondence.Values arguments arguments')
    (environments : correspondence.Environments environment environment') :
    Matches correspondence.Faults correspondence.Environments
      (environment.bindAll (parameters.zip arguments))
      (environment'.bindAll (parameters'.zip arguments')) := by
  induction related generalizing arguments arguments' environment environment' with
  | nil => exact .ok environments
  | cons programs _ inductionHypothesis =>
      cases given with
      | nil => exact .ok environments
      | cons values rest =>
          apply Matches.bind
            (bind_matches binds unnamed (laws.heads programs) environments values)
          intro middle middle' scopes
          exact inductionHypothesis rest scopes

/-- A call binds the parameters and evaluates the body, all of which matches. -/
theorem callLambda_matches {evaluate other : Evaluator} {lambda lambda' : Expression}
    {arguments arguments' : List Expression} (evaluators : correspondence.Evaluators evaluate other)
    (lambdas : correspondence.Values lambda lambda') (isLambda : lambda.isLambda = true)
    (related : List.Forall₂ correspondence.Values arguments arguments')
    (environments : correspondence.Environments environment environment') :
    Attempt.Matches correspondence.Faults correspondence.Values
      (callLambda evaluate lambda arguments environment)
      (callLambda other lambda' arguments' environment') := by
  have children := laws.children (laws.ofValues lambdas)
  have two : lambda.children.length = 2 := by
    simpa using (Bool.and_eq_true_iff.mp isLambda).2
  unfold callLambda
  generalize lambda.children = parts at children two
  generalize lambda'.children = parts' at children
  rcases children with _ | ⟨parameters, _ | ⟨bodies, _ | _⟩⟩
  case cons.cons.nil =>
    have same := (laws.children parameters).length_eq
    dsimp only [checkCount]
    rw [same, related.length_eq]
    apply Attempt.Matches.bind (.ofExcept (.check (laws.faults (.blaming rfl))))
    intro _ _ _
    apply Attempt.Matches.bind (.ofExcept (laws.bindAll_matches binds unnamed
      (laws.children parameters) related environments))
    intro scope scope' scopes
    exact optionRel_map (evaluators bodies scopes) fun _ _ both => both.outcomes
  all_goals simp at two

/-- Where names can be bound, the static laws are all that is asked. -/
theorem toLaws : correspondence.Laws :=
  { laws with
    define := laws.define_matches binds
    call := laws.callLambda_matches binds unnamed }

end StaticLaws

end PlotLisp.Correspondence
