import PlotLisp.Proofs.Evaluation.Reevaluation
import PlotLisp.Proofs.Session.Keywords
import PlotLisp.Proofs.Session.Shadowing

/-!
# Applying to a list and calling

`apply` with a list form for its operands is a call in two steps. With a builtin procedure it
comes to the same as the call. A procedure value receives each operand evaluated once more. In a
session that only costs the operands the properties outside the bodies of procedure values,
unless something is absent in one of them.
-/

namespace PlotLisp

open Expression

/-- A call of what a symbol names. -/
def calling (name : String) (operands : List Expression) : Expression :=
  .form (.symbol name) operands

/-- The same operands in a list, to which what the symbol names is applied. -/
def applying (name : String) (operands : List Expression) : Expression :=
  .form (.symbol Keyword.apply.name) [.symbol name, .list operands]

section

variable {environment : Environment} {name : String} {callable : Callable}
  {operands : List Expression}

/-- What a call by name ends in, one depth above its operands: a call with their values. -/
theorem ending_calling (notKeyword : Keyword.ofName? name = none)
    (denotes : environment.Denotes name callable) (nonempty : operands ≠ []) (depth : Nat) :
    (evaluate (depth + 1)).ending (calling name operands) environment =
      (evaluateAll (evaluate depth) operands environment).andThen fun values after =>
        (callable.call (evaluate depth) values after).within after := by
  apply ending_of_endsLike (.inl nonempty)
  rw [Forms.named, notKeyword]
  exact @Turn.EndsLike.application _ _ _ ⟨operands, environment⟩ denotes

/-- What applying to a list form ends in, one depth above the list. -/
theorem ending_applying (denotes : environment.Denotes name callable) (depth : Nat) :
    (evaluate (depth + 1)).ending (applying name operands) environment =
      ((evaluate depth).ending (.list operands) environment).andThen fun list after =>
        Ending.andThen (some (list.toElements Keyword.apply.name, after))
          (callable.applied (evaluate depth)) := by
  apply ending_of_endsLike (.inl (by simp))
  rw [Forms.named, Keyword.ofName?_name]
  exact Turn.EndsLike.apply denotes

/-- The list form adds nothing to the evaluation of its operands but one level. -/
theorem ending_applying_list (denotes : environment.Denotes name callable)
    (builtin : environment.find? listName = some (.procedure .list)) (depth : Nat) :
    (evaluate (depth + 2)).ending (applying name operands) environment =
      (evaluateAll (evaluate depth) operands environment).andThen
        (callable.applied (evaluate (depth + 1))) := by
  rw [ending_applying denotes, Expression.list, form, ending_list builtin]
  generalize evaluateAll (evaluate depth) operands environment = ending
  rcases ending with _ | ⟨fault | values, after⟩ <;> rfl

/-- A procedure value is called with what the values of the operands are evaluated to. -/
theorem ending_applying_lambda {lambda : Expression}
    (denotes : environment.Denotes name (.lambda lambda))
    (builtin : environment.find? listName = some (.procedure .list)) {depth more : Nat}
    {values : List Expression} {after : Environment}
    (ended : evaluateAll (evaluate depth) operands environment = some (.ok values, after))
    (enough : depth < more) :
    (evaluate (more + 1)).ending (applying name operands) environment =
      (evaluateAll (evaluate more) values after).andThen fun arguments final =>
        (callLambda (evaluate more) lambda arguments final).within final := by
  obtain ⟨more, rfl⟩ := Nat.exists_eq_succ_of_ne_zero (Nat.ne_zero_of_lt enough)
  rw [ending_applying_list denotes builtin, evaluateAll_of_le (Nat.le_of_lt_succ enough) ended,
    Ending.ok_andThen]
  rfl

/-- An operand that faults is the fault of both forms. -/
theorem ending_of_operand_fault (notKeyword : Keyword.ofName? name = none)
    (denotes : environment.Denotes name callable) (nonempty : operands ≠ [])
    (builtin : environment.find? listName = some (.procedure .list)) {depth : Nat} {fault : Fault}
    {after : Environment}
    (ended : evaluateAll (evaluate depth) operands environment = some (.error fault, after)) :
    (evaluate (depth + 1)).ending (calling name operands) environment =
        some (.error fault, after) ∧
      (evaluate (depth + 2)).ending (applying name operands) environment =
        some (.error fault, after) := by
  constructor
  · rw [ending_calling notKeyword denotes nonempty, ended, Ending.error_andThen]
  · rw [ending_applying_list denotes builtin, ended, Ending.error_andThen]

end

/-- No name that can be called in a session heads a form. -/
theorem Session.Reached.ofName?_eq_none {session : Session} (reached : session.Reached)
    {name : String} {callable : Callable}
    (denotes : session.environment.Denotes name callable) : Keyword.ofName? name = none := by
  cases found : Keyword.ofName? name with
  | none => rfl
  | some keyword =>
      have free := reached.freeOfKeywords keyword
      rw [Keyword.name_of_ofName? found] at free
      cases denotes with
      | builtin bound | lambda bound =>
          rw [free] at bound
          cases bound

/-- How applying a procedure value to operands in a list relates to calling it, in the
environment that it is named in. -/
structure AppliesLikeCall (environment : Environment) (name : String)
    (operands : List Expression) (lambda : Expression) : Prop where
  /-- Values lose their properties outside the bodies of procedure values and nothing else. -/
  present {depth : Nat} {values : List Expression} {after : Environment}
    (ended : evaluateAll (evaluate depth) operands environment = some (.ok values, after))
    (present : ∀ value ∈ values, value.Present) :
    ∃ bound, ∀ more, bound ≤ more →
      (evaluate (more + 1)).ending (applying name operands) environment =
        (callLambda (evaluate more) lambda (values.map undecorated) after).within after
  /-- There is no call with a value in which something is absent. -/
  absent {depth : Nat} {values : List Expression} {after : Environment}
    (ended : evaluateAll (evaluate depth) operands environment = some (.ok values, after))
    (absent : ∃ value ∈ values, ¬ value.Present) :
    ∃ bound, ∀ more, bound ≤ more →
      (evaluate more).ending (applying name operands) environment =
        some (.error .absentTerminal, after)

/-- In an environment of settled values, the value of an operand stands for itself or has
something absent in it, so procedure values are applied like this. -/
theorem AppliesLikeCall.of_settled {environment : Environment} {name : String}
    {operands : List Expression} {lambda : Expression} (holds : environment.Holds Settled)
    (builtin : environment.find? listName = some (.procedure .list))
    (denotes : environment.Denotes name (.lambda lambda)) :
    AppliesLikeCall environment name operands lambda := by
  have standing : ∀ {depth values after},
      evaluateAll (evaluate depth) operands environment = some (.ok values, after) →
      after.find? listName = some (.procedure .list) ∧ ∀ value ∈ values, IsValue value := by
    intro depth values after ended
    obtain ⟨extended, settled⟩ := evaluateAll_settles holds ended
    exact ⟨extended.kept _ _ builtin, fun value member => (settled value member).isValue⟩
  constructor
  case present =>
    intro depth values after ended present
    obtain ⟨builtinAfter, isValue⟩ := standing ended
    obtain ⟨bound, ends⟩ := evaluateAll_of_present isValue present builtinAfter
    refine ⟨max bound (depth + 1), fun more enough => ?_⟩
    rw [ending_applying_lambda denotes builtin ended (by omega), ends more (by omega),
      Ending.ok_andThen]
  case absent =>
    intro depth values after ended absent
    obtain ⟨builtinAfter, isValue⟩ := standing ended
    obtain ⟨bound, ends⟩ := evaluateAll_of_absent isValue absent builtinAfter
    refine ⟨max bound (depth + 1) + 1, fun more enough => ?_⟩
    obtain ⟨more, rfl⟩ := Nat.exists_eq_succ_of_ne_zero (Nat.ne_zero_of_lt enough)
    rw [ending_applying_lambda denotes builtin ended (by omega), ends more (by omega),
      Ending.error_andThen]

/-- In every session, applying a builtin procedure to a list form ends like the call with the
same operands. Applying a procedure value ends like calling it with the values of the operands,
all without their properties outside the bodies of procedure values, in the environment that the
operands leave behind. If there is something absent in one of these values, outside such bodies,
then applying faults because of that. If an operand faults, both forms do. -/
theorem apply_agrees_with_call {session : Session} (reached : session.Reached) {name : String}
    {operands : List Expression} (nonempty : operands ≠ []) :
    (∀ procedure, session.environment.find? name = some (.procedure procedure) →
      ∀ depth, (evaluate (depth + 1)).ending (applying name operands) session.environment =
        (evaluate depth).ending (calling name operands) session.environment) ∧
      (∀ lambda, session.environment.find? name = some (.value lambda) →
        lambda.isLambda = true → AppliesLikeCall session.environment name operands lambda) ∧
      ∀ callable, session.environment.Denotes name callable → ∀ {depth fault after},
        evaluateAll (evaluate depth) operands session.environment = some (.error fault, after) →
        ∃ bound, ∀ more, bound ≤ more →
          (evaluate more).ending (calling name operands) session.environment =
              some (.error fault, after) ∧
            (evaluate more).ending (applying name operands) session.environment =
              some (.error fault, after) := by
  have builtin := reached.guarded.builtins .list
  refine ⟨?builtins, ?lambdas, ?faults⟩
  case builtins =>
    intro procedure found depth
    have denotes : session.environment.Denotes name (.builtin procedure) := .builtin found
    cases depth with
    | zero => exact ending_applying denotes 0
    | succ depth =>
        rw [ending_applying_list denotes builtin,
          ending_calling (reached.ofName?_eq_none denotes) denotes nonempty]
        rfl
  case lambdas =>
    intro lambda found isLambda
    exact .of_settled reached.holds_settled builtin (.lambda found isLambda)
  case faults =>
    intro callable denotes depth fault after ended
    obtain ⟨called, applied⟩ := ending_of_operand_fault (reached.ofName?_eq_none denotes)
      denotes nonempty builtin ended
    refine ⟨depth + 2, fun more enough => ⟨?calls, ?applies⟩⟩
    case calls => exact Evaluator.ending_of_le (by omega) called
    case applies => exact Evaluator.ending_of_le enough applied

/-- The procedure value that returns its argument. -/
def identity : Expression :=
  .lambda (.list [.symbol "x"]) (.symbol "x")

/-- A session after it has named the procedure value. -/
def naming : Session where
  program := .form (.symbol "define")
    [.symbol "same", .form (.symbol "lambda") [.symbol "x", .symbol "x"]]
  environment := Environment.fresh.bindName "same" identity

/-- The session is reached by reading and evaluating one definition. -/
theorem naming_reached : naming.Reached := by
  have read : Session.fresh.read "(define same (lambda (x) x))" =
      .ok ⟨naming.program, .fresh⟩ := rfl
  have evaluated : Session.evaluate 2 ⟨naming.program, .fresh⟩ =
      some (.ok identity, naming) := rfl
  exact .evaluate (.read .fresh read) evaluated

/-- A text that is given a property. -/
def attaching : Expression :=
  .form (.symbol "set-property") [.literal "size", .literal "large", .literal "a"]

/-- The text arrives without its property. -/
theorem apply_agrees_with_call_of_identity :
    evaluateAll (evaluate 2) [attaching] naming.environment =
        some (.ok [(Expression.literal "a").withProperty "size" (.literal "large")],
          naming.environment) ∧
      ∃ bound, ∀ more, bound ≤ more →
        (evaluate (more + 1)).ending (applying "same" [attaching]) naming.environment =
          (callLambda (evaluate more) identity [.literal "a"] naming.environment).within
            naming.environment := by
  have ended : evaluateAll (evaluate 2) [attaching] naming.environment =
      some (.ok [(Expression.literal "a").withProperty "size" (.literal "large")],
        naming.environment) := rfl
  have nonempty : [attaching] ≠ [] := List.cons_ne_nil _ _
  obtain ⟨-, lambdas, -⟩ := @apply_agrees_with_call naming naming_reached "same" _ nonempty
  refine ⟨ended, (lambdas identity rfl rfl).present ended ?_⟩
  rw [List.forall_mem_singleton, present_iff]
  exact ⟨by simp [literal, leaf, form], by simp [literal, leaf, form, withProperty]⟩

/-- A procedure value whose body has a property. -/
def decoratedProcedure : Expression :=
  .lambda (.list [.symbol "x"]) ((Expression.symbol "x").withProperty "size" (.literal "large"))

/-- The operand is its own value and nothing is absent in it. Applying does not remove the
property in its body, so it differs from calling with the value without any properties. -/
theorem apply_keeps_properties_of_bodies :
    naming.Reached ∧ naming.environment.find? "same" = some (.value identity) ∧
      evaluateAll (evaluate 1) [decoratedProcedure] naming.environment =
        some (.ok [decoratedProcedure], naming.environment) ∧
      decoratedProcedure.Present ∧
      ∀ more, 3 ≤ more →
        (evaluate more).ending (applying "same" [decoratedProcedure]) naming.environment =
            some (.ok decoratedProcedure, naming.environment) ∧
          (callLambda (evaluate more) identity [decoratedProcedure.skeleton]
              naming.environment).within naming.environment =
            some (.ok decoratedProcedure.skeleton, naming.environment) ∧
          decoratedProcedure ≠ decoratedProcedure.skeleton := by
  refine ⟨naming_reached, rfl, rfl, ?present, fun more enough => ?both⟩
  case present =>
    rw [decoratedProcedure, lambda, form, present_iff, outer_lambda, List.forall_mem_singleton,
      list, form, present_list]
    refine ⟨by simp, fun parameter member => ?_⟩
    obtain rfl := List.mem_singleton.mp member
    exact present_of_bareSymbol? rfl
  case both =>
    obtain ⟨depth, rfl⟩ := Nat.exists_eq_add_of_le' enough
    exact ⟨rfl, rfl, by decide⟩

end PlotLisp
