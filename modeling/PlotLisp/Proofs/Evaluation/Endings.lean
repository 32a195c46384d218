import PlotLisp.Proofs.Session.Application
import PlotLisp.Proofs.Evaluation.Mapping

/-!
# Forms by what their parts end in

An expression has at most one ending in an environment. The laws of this module give the ending
of a definition, a sequence, a call, and a mapping from the endings of their parts, with the depth
left out: enough depth for the parts is enough for the form.
-/

namespace PlotLisp

open Expression

variable {environment after middle : Environment} {outcome other : Except Fault Expression}
  {expression value result : Expression} {expressions values others : List Expression}
  {name : String}

/-! ## Endings -/

namespace Expression.Ends

/-- All depths that are enough agree on the outcome and on the environment left behind. -/
theorem unique {final : Environment} (first : expression.Ends environment outcome after)
    (second : expression.Ends environment other final) : outcome = other ∧ after = final := by
  obtain ⟨depth, ended⟩ := first
  obtain ⟨depth', ended'⟩ := second
  have both := (Evaluator.ending_of_le (Nat.le_max_left depth depth') ended).symm.trans
    (Evaluator.ending_of_le (Nat.le_max_right depth depth') ended')
  cases both
  exact ⟨rfl, rfl⟩

/-- An expression has at most one value in an environment. -/
theorem unique_value {final : Environment}
    (first : expression.Ends environment (.ok value) after)
    (second : expression.Ends environment (.ok result) final) : value = result :=
  Except.ok.inj (first.unique second).1

/-- Whatever an expression ends in, its environment is only extended. -/
theorem extendedBy (ended : expression.Ends environment outcome after) :
    environment.ExtendedBy after := by
  obtain ⟨depth, ended⟩ := ended
  obtain ⟨program, evaluated⟩ := Evaluator.ending_eq_some ended
  exact (evaluate_extendedBy evaluated).1

end Expression.Ends

/-- Expressions that have values, one after the other. -/
def AllEnd (expressions : List Expression) (environment : Environment) (values : List Expression)
    (after : Environment) : Prop :=
  ∃ depth, evaluateAll (evaluate depth) expressions environment = some (.ok values, after)

/-- No expressions have no values and leave the environment as it is. -/
theorem allEnd_nil_iff :
    AllEnd [] environment values after ↔ values = [] ∧ after = environment := by
  constructor
  · rintro ⟨depth, ended⟩
    cases ended
    exact ⟨rfl, rfl⟩
  · rintro ⟨rfl, rfl⟩
    exact ⟨0, rfl⟩

/-- A list of expressions has values when the first expression has one and the rest have values in
the environment that it left. -/
theorem allEnd_cons_iff :
    AllEnd (expression :: expressions) environment values after ↔
      ∃ value middle others, expression.Ends environment (.ok value) middle ∧
        AllEnd expressions middle others after ∧ values = value :: others := by
  constructor
  · rintro ⟨depth, ended⟩
    obtain ⟨value, middle, first, rest⟩ := Ending.andThen_eq_ok ended
    obtain ⟨others, final, remaining, last⟩ := Ending.andThen_eq_ok rest
    cases last
    exact ⟨value, middle, others, ⟨depth, first⟩, ⟨depth, remaining⟩, rfl⟩
  · rintro ⟨value, middle, others, ⟨depth, first⟩, ⟨depth', remaining⟩, rfl⟩
    refine ⟨max depth depth', ?_⟩
    rw [evaluateAll, Evaluator.ending_of_le (Nat.le_max_left _ _) first, Ending.ok_andThen,
      evaluateAll_of_le (Nat.le_max_right _ _) remaining, Ending.ok_andThen]

/-- One expression with a value. -/
theorem allEnd_singleton (ended : expression.Ends environment (.ok value) after) :
    AllEnd [expression] environment [value] after :=
  allEnd_cons_iff.mpr ⟨value, after, [], ended, allEnd_nil_iff.mpr ⟨rfl, rfl⟩, rfl⟩

/-- Two expressions with values, the second in the environment that the first left behind. -/
theorem allEnd_pair {second : Expression} (ended : expression.Ends environment (.ok value) middle)
    (next : second.Ends middle (.ok result) after) :
    AllEnd [expression, second] environment [value, result] after :=
  allEnd_cons_iff.mpr ⟨value, middle, [result], ended, allEnd_singleton next, rfl⟩

/-- Expressions in a row have values when the front ones do and the back ones do after them. -/
theorem allEnd_append_iff {back : List Expression} :
    AllEnd (expressions ++ back) environment values after ↔
      ∃ front middle others, AllEnd expressions environment front middle ∧
        AllEnd back middle others after ∧ values = front ++ others := by
  induction expressions generalizing environment values with
  | nil => simp [allEnd_nil_iff]
  | cons expression expressions inductionHypothesis =>
      simp only [List.cons_append, allEnd_cons_iff, inductionHypothesis]
      constructor
      · rintro ⟨value, middle, _, first, ⟨front, between, others, before, behind, rfl⟩, rfl⟩
        exact ⟨_, between, others, ⟨value, middle, front, first, before, rfl⟩, behind, rfl⟩
      · rintro ⟨_, between, others, ⟨value, middle, front, first, before, rfl⟩, behind, rfl⟩
        exact ⟨value, middle, _, first, ⟨front, between, others, before, behind, rfl⟩, rfl⟩

namespace AllEnd

/-- Expressions have at most one list of values. -/
theorem unique {final : Environment} (first : AllEnd expressions environment values after)
    (second : AllEnd expressions environment others final) : values = others ∧ after = final := by
  obtain ⟨depth, ended⟩ := first
  obtain ⟨depth', ended'⟩ := second
  have both := (evaluateAll_of_le (Nat.le_max_left depth depth') ended).symm.trans
    (evaluateAll_of_le (Nat.le_max_right depth depth') ended')
  cases both
  exact ⟨rfl, rfl⟩

/-- Expressions in a row only extend the environment. -/
theorem extendedBy (ended : AllEnd expressions environment values after) :
    environment.ExtendedBy after := by
  induction expressions generalizing environment values with
  | nil =>
      obtain ⟨-, rfl⟩ := allEnd_nil_iff.mp ended
      exact .refl _
  | cons expression rest inductionHypothesis =>
      obtain ⟨value, middle, others, first, remaining, -⟩ := allEnd_cons_iff.mp ended
      exact first.extendedBy.trans (inductionHypothesis remaining)

/-- Every expression contributes one value. -/
theorem length_eq (ended : AllEnd expressions environment values after) :
    values.length = expressions.length := by
  induction expressions generalizing environment values with
  | nil =>
      obtain ⟨rfl, -⟩ := allEnd_nil_iff.mp ended
      rfl
  | cons expression rest inductionHypothesis =>
      obtain ⟨value, middle, others, first, remaining, rfl⟩ := allEnd_cons_iff.mp ended
      rw [List.length_cons, List.length_cons, inductionHypothesis remaining]

end AllEnd

/-! ## Definitions and sequences -/

namespace Turn.EndsLike

variable {evaluate : Evaluator}

/-- The name is checked before its value is evaluated, and again when it is bound. -/
theorem define (name : String) (program : Expression) :
    (Forms.define evaluate).EndsLike ⟨[.symbol name, program], environment⟩
      (Ending.andThen (some (environment.checkDefinable name, environment)) fun _ before =>
        (evaluate.ending program before).andThen fun value middle =>
          Ending.andThen (some (middle.define name value, middle)) fun after _ =>
            some (.ok value, after)) := by
  unfold Forms.define
  apply @step _ _ _ _ _ _ () rfl
  apply step (runOn_child _ 0)
  apply step (runOn_environment _)
  apply ofExcept_bind
  intro done
  apply bind (evaluateChild evaluate 1)
  intro value children middle
  apply step (runOn_environment _)
  apply bind (ofExcept _)
  intro after children middle
  exact ⟨children, rfl⟩

/-- All children are evaluated, and the last value is that of the form. -/
theorem sequence (children : List Expression) :
    (Forms.sequence evaluate).EndsLike ⟨children, environment⟩
      ((evaluateAll evaluate children environment).andThen fun values after =>
        some (match values.getLast? with
          | some value => .ok value
          | none => .error (.argumentCount Keyword.sequence.name), after)) := by
  unfold Forms.sequence
  apply bind (evaluateChildren evaluate)
  intro values children after
  cases values.getLast? with
  | none => exact ⟨children, rfl⟩
  | some value => exact pure value

end Turn.EndsLike

/-- The value of a program is bound to a name. -/
def defining (name : String) (program : Expression) : Expression :=
  .form (.symbol Keyword.define.name) [.symbol name, program]

/-- Programs are evaluated in a row. -/
def sequencing (programs : List Expression) : Expression :=
  .form (.symbol Keyword.sequence.name) programs

/-- What a definition ends in, one depth above its program: the check of the name, the value, and
the second check when it is bound. -/
theorem ending_defining (name : String) (program : Expression) (environment : Environment)
    (depth : Nat) :
    (evaluate (depth + 1)).ending (defining name program) environment =
      Ending.andThen (some (environment.checkDefinable name, environment)) fun _ before =>
        ((evaluate depth).ending program before).andThen fun value middle =>
          Ending.andThen (some (middle.define name value, middle)) fun after _ =>
            some (.ok value, after) := by
  apply ending_of_endsLike (.inl (by simp))
  rw [Forms.named, Keyword.ofName?_name]
  exact Turn.EndsLike.define name program

/-- What a sequence of programs ends in, one depth above them: the last of their values. -/
theorem ending_sequencing {programs : List Expression} (nonempty : programs ≠ [])
    (environment : Environment) (depth : Nat) :
    (evaluate (depth + 1)).ending (sequencing programs) environment =
      (evaluateAll (evaluate depth) programs environment).andThen fun values after =>
        some (match values.getLast? with
          | some value => .ok value
          | none => .error (.argumentCount Keyword.sequence.name), after) := by
  apply ending_of_endsLike (.inl nonempty)
  rw [Forms.named, Keyword.ofName?_name]
  exact Turn.EndsLike.sequence programs

/-- A definition with a value is that of its program, in the environment that this one left. -/
theorem ends_defining {program : Expression}
    (ended : (defining name program).Ends environment (.ok value) after) :
    ∃ middle, program.Ends environment (.ok value) middle ∧
      after = middle.bindName name value := by
  obtain ⟨depth, ended⟩ := ended.exists_succ
  rw [ending_defining] at ended
  obtain ⟨done, before, checked, rest⟩ := Ending.andThen_eq_ok ended
  obtain ⟨-, rfl⟩ := Prod.mk.inj (Option.some.inj checked)
  obtain ⟨result, middle, evaluated, rest⟩ := Ending.andThen_eq_ok rest
  obtain ⟨final, between, defined, last⟩ := Ending.andThen_eq_ok rest
  cases last
  obtain ⟨-, rfl⟩ := Environment.define_eq_ok_iff.mp (Prod.mk.inj (Option.some.inj defined)).1
  exact ⟨middle, ⟨depth, evaluated⟩, rfl⟩

/-- A sequence ends like the last one of its programs. -/
theorem ends_sequencing {programs : List Expression} {program : Expression}
    (before : AllEnd programs environment values middle)
    (last : program.Ends middle (.ok value) after) :
    (sequencing (programs ++ [program])).Ends environment (.ok value) after := by
  obtain ⟨depth, ended⟩ : AllEnd (programs ++ [program]) environment (values ++ [value]) after :=
    allEnd_append_iff.mpr ⟨values, middle, [value], before, allEnd_singleton last, rfl⟩
  refine ⟨depth + 1, ?_⟩
  rw [ending_sequencing (by simp), ended, Ending.ok_andThen, List.getLast?_append]
  rfl

/-! ## Calls -/

/-- A builtin procedure is called with the values of the operands. -/
theorem ends_calling_builtin {operands : List Expression} {builtin : Builtin}
    (found : environment.find? builtin.name = some (.procedure builtin)) (nonempty : operands ≠ [])
    (given : AllEnd operands environment values after)
    (called : (builtin.call values).run = some (.ok value)) :
    (calling builtin.name operands).Ends environment (.ok value) after := by
  obtain ⟨depth, ended⟩ := given
  have notKeyword : Keyword.ofName? builtin.name = none := by cases builtin <;> rfl
  refine ⟨depth + 1, ?_⟩
  rw [ending_calling notKeyword (.builtin found) nonempty, ended, Ending.ok_andThen, Attempt.within]
  show (builtin.call values).run.map _ = _
  rw [called, Option.map_some]

/-- A procedure value with these parameters and this body, as its form makes it: no parameter is
named like a builtin procedure. -/
structure Expression.Takes (lambda : Expression) (names : List String) (body : Expression) :
    Prop where
  isLambda : lambda.isLambda = true
  children : lambda.children = [.list (names.map symbol), body]
  free : ∀ name ∈ names, Builtin.isName name = false

variable {lambda body : Expression} {names : List String} {scope final : Environment}

/-- With an argument for every parameter, a call of a procedure value ends like its body. -/
theorem callLambda_run {evaluate : Evaluator} {arguments : List Expression}
    (takes : lambda.Takes names body) (count : arguments.length = names.length)
    (bound : environment.bindAll ((names.map symbol).zip arguments) = .ok scope) :
    (callLambda evaluate lambda arguments environment).run =
      (evaluate.ending body scope).map Prod.fst := by
  have parameters : (Expression.list (names.map symbol)).children = names.map symbol := rfl
  have counted : checkCount (names.map symbol) arguments.length Keyword.lambda.name = .ok () := by
    simp [checkCount, check, count]
  unfold callLambda
  rw [takes.children]
  dsimp only
  rw [parameters, counted, bound, Evaluator.ending, Option.map_map]
  rfl

/-- The call of a procedure value that a name denotes enters a scope: the values of the operands
are bound there, in the environment that the operands left behind. -/
structure EntersCall (name : String) (operands : List Expression) (environment after : Environment)
    (names : List String) (body : Expression) (scope : Environment) : Prop where
  notKeyword : Keyword.ofName? name = none
  nonempty : operands ≠ []
  procedure : ∃ lambda, environment.find? name = some (.value lambda) ∧ lambda.Takes names body
  arguments : ∃ values, AllEnd operands environment values after ∧ values.length = names.length ∧
    after.bindAll ((names.map symbol).zip values) = .ok scope

/-- If the body has a value in the scope that the call enters, the call has that value. The scope
is dropped, so only what the operands defined is left. -/
theorem EntersCall.ends {operands : List Expression}
    (enters : EntersCall name operands environment after names body scope)
    (returned : body.Ends scope (.ok value) final) :
    (calling name operands).Ends environment (.ok value) after := by
  obtain ⟨lambda, found, takes⟩ := enters.procedure
  obtain ⟨values, ⟨depth, given⟩, count, bound⟩ := enters.arguments
  obtain ⟨depth', returned⟩ := returned
  refine ⟨max depth depth' + 1, ?_⟩
  rw [ending_calling enters.notKeyword (.lambda found takes.isLambda) enters.nonempty,
    evaluateAll_of_le (Nat.le_max_left _ _) given, Ending.ok_andThen, Attempt.within]
  show (callLambda _ lambda values after).run.map _ = _
  rw [callLambda_run takes count bound, Evaluator.ending_of_le (Nat.le_max_right _ _) returned]
  rfl

/-- While what a name denotes is mapped over a list, the call with the element at an index enters a
scope: the element is bound there, in the environment that the list left behind. -/
structure EntersMapping (name : String) (list : Expression) (environment after : Environment)
    (index : Nat) (parameter : String) (body : Expression) (scope : Environment) : Prop where
  procedure : ∃ lambda, after.find? name = some (.value lambda) ∧ lambda.Takes [parameter] body
  element : ∃ elements element, list.Ends environment (.ok elements) after ∧
    elements.isList = true ∧ elements.children[index]? = some element ∧
    scope = after.bindName parameter element

/-- What was mapped is the list of what the calls returned. -/
theorem EntersMapping.getElem? {list : Expression} {index : Nat} {parameter : String}
    (enters : EntersMapping name list environment middle index parameter body scope)
    (mapped : (mappingOver name list).Ends environment (.ok value) after)
    (returned : body.Ends scope (.ok result) final) :
    value.isList = true ∧ value.children[index]? = some result ∧ after = middle := by
  obtain ⟨lambda, found, takes⟩ := enters.procedure
  obtain ⟨elements, element, ended, isList, atIndex, rfl⟩ := enters.element
  have accepts : (Callable.lambda lambda).accepts 1 = true := by
    show (lambda.children.head?.map fun parameters => parameters.children.length) == some 1
    rw [takes.children]
    rfl
  obtain ⟨depth, mapped⟩ := mapped.exists_succ
  rw [ending_mappingOver_of_ends (fun value after other => ?denoted) accepts] at mapped
  case denoted =>
    obtain ⟨-, rfl⟩ := other.unique ended
    exact .lambda found takes.isLambda
  obtain ⟨list, between, evaluated, rest⟩ := Ending.andThen_eq_ok mapped
  obtain ⟨same, rfl⟩ := Expression.Ends.unique ⟨depth, evaluated⟩ ended
  cases same
  rw [toElements_of_isList isList, Ending.ok_andThen] at rest
  obtain ⟨values, rfl, rfl, each⟩ := Callable.mapped_eq_ok_iff.mp rest
  obtain ⟨bounded, rfl⟩ := List.getElem?_eq_some_iff.mp atIndex
  have within : index < values.length := each.length_eq ▸ bounded
  have called : (callLambda (evaluate depth) lambda [_] after).run = some (.ok values[index]) :=
    each.get bounded within
  rw [callLambda_run takes rfl rfl, Option.map_eq_some_iff] at called
  obtain ⟨⟨outcome, last⟩, ended', same⟩ := called
  obtain rfl : outcome = .ok values[index] := same
  exact ⟨rfl, List.getElem?_eq_some_iff.mpr
    ⟨within, Expression.Ends.unique_value ⟨depth, ended'⟩ returned⟩, rfl⟩

end PlotLisp
