import PlotLisp.Proofs.Evaluation.Repetition

/-!
# Decorating a program is harmless

One lemma for each form says how far its turn takes the line. So one step of evaluation
takes an evaluator that repeats itself to another one, and every evaluation of a program can
be repeated on the decorated program, with the same end and without another decoration.
-/

namespace PlotLisp

open Turn

/-! ## Forms -/

namespace Forms

variable {head : Atom} {count : Nat} {evaluate : Evaluator}

/-- Building a procedure value takes its body from the program as it is, and decorates
nothing. -/
theorem repeats_lambda : Repeats head count 2 2 lambda := by
  refine .bind (repeats_checkChildren _ _) (fun _ => ?_) (Nat.le_refl 2)
  refine .bind (repeats_child (by decide)) (fun parameters => ?_) (Nat.le_refl 2)
  refine .bind (.ofExcept _) (fun names => ?_) (Nat.le_refl 2)
  cases names.find? Builtin.isName with
  | some name => exact .throw _
  | none => exact .bind (repeats_child (by decide)) (fun body => .pure _) (Nat.le_refl 2)

variable (repeats : evaluate.Repeats)

include repeats

/-- A sequence takes the line from the first child to behind the last. -/
theorem repeats_sequence : Repeats head count 0 count (sequence evaluate) := by
  refine .bind (repeats_evaluateChildren repeats) (fun values => ?_) (Nat.le_refl count)
  cases values.getLast? with
  | none => exact .throw _
  | some value => exact .pure value

/-- A definition takes the line behind its value; the name before it is read and never
decorated. -/
theorem repeats_define : Repeats head count 1 2 (define evaluate) := by
  refine .bind (repeats_checkChildren _ _) (fun _ => ?_) (by decide)
  refine .bind (repeats_child (by decide)) (fun node => ?_) (by decide)
  cases node.bareSymbol? with
  | none => exact .further (.throw _) (by decide)
  | some name =>
      refine .bind .environment (fun environment => ?_) (by decide)
      refine .bind (.ofExcept _) (fun _ => ?_) (by decide)
      refine .bind (repeats_evaluateChild repeats 1) (fun value => ?_) (Nat.le_refl 2)
      refine .bind .environment (fun environment => ?_) (Nat.le_refl 2)
      refine .bind (.ofExcept _) (fun after => ?_) (Nat.le_refl 2)
      exact .bind (.setEnvironment after) (fun _ => .pure value) (Nat.le_refl 2)

/-- Applying takes the line behind the list; the arguments of a call are no children
of the form. -/
theorem repeats_apply : Repeats head count 1 2 (apply evaluate) := by
  refine .bind (repeats_checkChildren _ _) (fun _ => ?_) (by decide)
  refine .bind .environment (fun environment => ?_) (by decide)
  refine .bind (repeats_child (by decide)) (fun node => ?_) (by decide)
  refine .bind (.ofExcept _) (fun callable => ?_) (by decide)
  refine .bind (repeats_evaluateChild repeats 1) (fun list => ?_) (Nat.le_refl 2)
  refine .bind (.ofExcept _) (fun elements => ?_) (Nat.le_refl 2)
  cases callable with
  | builtin procedure => exact .ofAttempt _
  | lambda value =>
      refine .bind (.evaluateAllLoose evaluate elements) (fun arguments => ?_) (Nat.le_refl 2)
      exact .bind .environment (fun environment => .ofAttempt _) (Nat.le_refl 2)

/-- Mapping takes the line behind the list, and the name of the procedure is read only then. -/
theorem repeats_map : Repeats head count 1 2 (map evaluate) := by
  refine .bind (repeats_checkChildren _ _) (fun _ => ?_) (by decide)
  refine .bind (repeats_evaluateChild repeats 1) (fun list => ?_) (Nat.le_refl 2)
  refine .bind (.ofExcept _) (fun elements => ?_) (Nat.le_refl 2)
  refine .bind .environment (fun environment => ?_) (Nat.le_refl 2)
  refine .bind (repeats_child (by decide)) (fun node => ?_) (Nat.le_refl 2)
  refine .bind (.ofExcept _) (fun callable => ?_) (Nat.le_refl 2)
  refine .bind (.ofExcept _) (fun _ => ?_) (Nat.le_refl 2)
  refine .bind .environment (fun environment => ?_) (Nat.le_refl 2)
  exact .bind (.ofAttempt _) (fun results => .pure _) (Nat.le_refl 2)

/-- Setting a property takes the line behind the target, which alone keeps a decoration of
this form. -/
theorem repeats_setProperty :
    Repeats (.symbol Keyword.setProperty.name) count 1 3 (setProperty evaluate) := by
  refine .bind (repeats_checkChildren _ _) (fun _ => ?_) (by decide)
  refine .bind (repeats_child (by decide)) (fun node => ?_) (by decide)
  refine .bind (.ofExcept _) (fun tag => ?_) (by decide)
  refine .bind (repeats_evaluateChild repeats 1) (fun property => ?_) (by decide)
  exact repeats_attach repeats tag property

/-- Reading a property takes the line behind the target. -/
theorem repeats_getProperty : Repeats head count 1 2 (getProperty evaluate) := by
  refine .bind (repeats_checkChildren _ _) (fun _ => ?_) (by decide)
  refine .bind (repeats_child (by decide)) (fun node => ?_) (by decide)
  refine .bind (.ofExcept _) (fun tag => ?_) (by decide)
  exact .bind (repeats_evaluateChild repeats 1) (fun target => .pure _) (Nat.le_refl 2)

/-- A stem plot takes the line behind its data and its options. -/
theorem repeats_discretePlot : Repeats head count 0 2 (discretePlot evaluate) := by
  refine .bind (repeats_checkChildren _ _) (fun _ => ?_) (by decide)
  refine .bind (repeats_evaluateChild repeats 0) (fun data => ?_) (by decide)
  refine .bind (repeats_evaluateChild repeats 1) (fun options => ?_) (Nat.le_refl 2)
  refine .bind (.ofExcept _) (fun points => ?_) (Nat.le_refl 2)
  refine .bind (.ofExcept _) (fun positions => ?_) (Nat.le_refl 2)
  refine .bind (.ofExcept _) (fun options => ?_) (Nat.le_refl 2)
  exact .bind (.ofExcept _) (fun glyphs => .pure _) (Nat.le_refl 2)

/-- Options are evaluated where there is a child for them. -/
theorem repeats_optionsAt (form : String) (index : Nat) :
    Repeats head count index (index + 1) (optionsAt evaluate form index) := by
  by_cases inside : index < count
  · refine repeats_children (fun children length => ?_) (.bind (repeats_evaluateChild repeats index)
      (fun options => .ofExcept (PlotOptions.ofExpression form options)) (Nat.le_refl _))
    rw [List.getElem?_eq_getElem (length.symm ▸ inside)]
  · refine repeats_children (fun children length => ?_)
      (.further (.pure .default) (Nat.le_succ index))
    rw [List.getElem?_eq_none_iff.mpr (length.symm ▸ Nat.le_of_not_gt inside)]

/-- A line plot takes the line behind its bounds and behind its options, if there are any. -/
theorem repeats_continuousPlot : Repeats head count 1 3 (continuousPlot evaluate) := by
  refine repeats_children (fun children length => by rw [length]) ?_
  refine .bind (.ofExcept _) (fun _ => ?_) (by decide)
  refine .bind .environment (fun environment => ?_) (by decide)
  refine .bind (repeats_child (by decide)) (fun node => ?_) (by decide)
  refine .bind (.ofExcept _) (fun callable => ?_) (by decide)
  refine .bind (.ofExcept _) (fun _ => ?_) (by decide)
  refine .bind (repeats_evaluateChild repeats 1) (fun bounds => ?_) (by decide)
  refine .bind (.ofExcept _) (fun range => ?_) (by decide)
  refine .bind (repeats_optionsAt repeats _ 2) (fun options => ?_) (Nat.le_refl 3)
  refine .bind .environment (fun environment => ?_) (Nat.le_refl 3)
  exact .bind (.ofAttempt _) (fun glyphs => .pure _) (Nat.le_refl 3)

/-- A call by name takes the line from the first operand to behind the last. -/
theorem repeats_application (name : String) :
    Repeats head count 0 count (application evaluate name) := by
  refine .bind .environment (fun environment => ?_) (Nat.zero_le count)
  split
  · exact .bind (repeats_evaluateChildren repeats) (fun arguments => .ofAttempt _)
      (Nat.le_refl count)
  · refine .bind (.ofExcept _) (fun _ => ?_) (Nat.zero_le count)
    refine .bind (repeats_evaluateChildren repeats) (fun arguments => ?_) (Nat.le_refl count)
    exact .bind .environment (fun environment => .ofAttempt _) (Nat.le_refl count)
  · exact .further (.throw _) (Nat.zero_le count)

/-- Every form takes the line from somewhere to somewhere. -/
theorem repeats_ofKeyword (keyword : Keyword) :
    ∃ low high, Repeats (.symbol keyword.name) count low high (ofKeyword evaluate keyword) := by
  cases keyword with
  | lambda => exact ⟨2, 2, repeats_lambda⟩
  | sequence => exact ⟨0, count, repeats_sequence repeats⟩
  | define => exact ⟨1, 2, repeats_define repeats⟩
  | apply => exact ⟨1, 2, repeats_apply repeats⟩
  | map => exact ⟨1, 2, repeats_map repeats⟩
  | setProperty => exact ⟨1, 3, repeats_setProperty repeats⟩
  | getProperty => exact ⟨1, 2, repeats_getProperty repeats⟩
  | discretePlot => exact ⟨0, 2, repeats_discretePlot repeats⟩
  | continuousPlot => exact ⟨1, 3, repeats_continuousPlot repeats⟩

/-- What a name stands for takes the line from somewhere to somewhere, a form as well as a call. -/
theorem repeats_named (name : String) :
    ∃ low high, Repeats (.symbol name) count low high (named evaluate name) := by
  unfold named
  cases found : Keyword.ofName? name with
  | none => exact ⟨0, count, repeats_application repeats name⟩
  | some keyword =>
      obtain rfl := Keyword.name_of_ofName? found
      exact repeats_ofKeyword repeats keyword

end Forms

/-! ## Steps -/

namespace Evaluation

/-- The properties of an expression take no part in its evaluation. -/
theorem step_withProperty (evaluate : Evaluator) (expression : Expression)
    (environment : Environment) (tag : String) (value : Expression) :
    step evaluate (expression.withProperty tag value) environment =
      (step evaluate expression environment).map fun evaluation =>
        { evaluation with program := evaluation.program.withProperty tag value } := by
  obtain ⟨head, children, properties⟩ := expression
  simp only [Expression.withProperty, step]
  split
  · rfl
  · cases head with
    | symbol name =>
        simp only [Atom.symbol?, Option.map_map]
        rfl
    | absent | number | complex | text => rfl

/-- A form, evaluated again on the children that it leaves behind, changes nothing. -/
theorem step_again {evaluate : Evaluator} (repeats : evaluate.Repeats) {expression : Expression}
    {environment : Environment} {evaluation : Evaluation}
    (ended : step evaluate expression environment = some evaluation) :
    evaluation.program.plain = expression.plain ∧
      step evaluate evaluation.program environment = some evaluation := by
  obtain ⟨head, children, properties⟩ := expression
  by_cases leaf : (children.isEmpty && !head.isSymbol Expression.listName) = true
  · have looked := ended
    simp only [step, leaf, if_true, Option.some.injEq] at looked
    subst looked
    exact ⟨rfl, ended⟩
  cases head with
  | symbol name =>
      -- Decorating keeps the number of children, so the decorated program takes the same branch.
      have composite : ∀ {others : List Expression}, others.length = children.length →
          others ≠ [] ∨ name = Expression.listName := by
        rintro others lengths
        cases children with
        | nil => exact .inr (by simpa [Atom.isSymbol, Atom.symbol?] using leaf)
        | cons child rest =>
            refine .inl fun empty => ?_
            subst empty
            cases lengths
      rw [step_named (composite rfl)] at ended
      obtain ⟨⟨outcome, frame⟩, ran, same⟩ := Option.map_eq_some_iff.mp ended
      obtain ⟨low, high, turns⟩ := @Forms.repeats_named children.length evaluate repeats name
      have parts := turns.decorates rfl ran
      have lengths : frame.children.length = children.length := by
        simpa only [Expression.length_plainParts] using congrArg List.length parts
      subst same
      refine ⟨by rw [Expression.plain_node, Expression.plain_node, parts], ?_⟩
      rw [step_named (composite lengths), turns.again rfl lengths ran fun _ _ => rfl]
      rfl
  | absent | number | complex | text =>
      have refused := ended
      simp only [step, leaf] at refused
      cases refused
      exact ⟨rfl, ended⟩

/-- A step repeats itself if its parts do. -/
theorem step_repeats {evaluate : Evaluator} (repeats : evaluate.Repeats) :
    (step evaluate).Repeats where
  decorates ended := (step_again repeats ended).1
  again ended := (step_again repeats ended).2
  withProperty := step_withProperty evaluate

end Evaluation

/-- Evaluation repeats itself at every depth, by induction on the depth with one step of evaluation
at a time. -/
theorem evaluate_repeats (depth : Nat) : (evaluate depth).Repeats := by
  induction depth with
  | zero => exact ⟨nofun, nofun, fun _ _ _ _ => rfl⟩
  | succ depth inductionHypothesis => exact Evaluation.step_repeats inductionHypothesis

/-- Evaluation changes no head and no child of its program, and no properties other than
those of the targets of `set-property` forms. Evaluating the program that it leaves behind
once more in the same environment comes to the same end: the same value or fault, the same
environment, and the same program. -/
theorem decorating_is_harmless_and_idempotent {depth : Nat} {expression : Expression}
    {environment : Environment} {evaluation : Evaluation}
    (ended : evaluate depth expression environment = some evaluation) :
    expression.DecoratedAs evaluation.program ∧
      evaluate depth evaluation.program environment = some evaluation ∧
      ∀ other again, evaluate other evaluation.program environment = some again →
        again = evaluation := by
  have repeated := (evaluate_repeats depth).again ended
  refine ⟨Expression.decoratedAs_of_plain ((evaluate_repeats depth).decorates ended), repeated,
    fun other again endedAgain => ?_⟩
  exact evaluate_unique endedAgain repeated

/-- A program that decorates two targets, one inside of the other, and faults then. -/
def decorating : Expression :=
  .form (.symbol "begin")
    [.form (.symbol "set-property")
      [.literal "outer", .literal "a",
        .form (.symbol "list")
          [.form (.symbol "set-property") [.literal "inner", .literal "b", .symbol "pi"]]],
      .symbol "missing"]

/-- The decorations that were made before a fault stay, and change nothing later on. -/
theorem decorating_is_idempotent_before_fault :
    ∃ evaluation, evaluate 5 decorating .fresh = some evaluation ∧
      evaluation.outcome = .error (.unknownSymbol "missing") ∧
      (evaluation.program.at? [0, 2]).bind (·.property? "outer") = some (.literal "a") ∧
      (evaluation.program.at? [0, 2, 0, 2]).bind (·.property? "inner") = some (.literal "b") ∧
      decorating.DecoratedAs evaluation.program ∧
      evaluate 5 evaluation.program .fresh = some evaluation := by
  refine ⟨_, rfl, rfl, rfl, rfl, ?_⟩
  obtain ⟨decorated, again, -⟩ := @decorating_is_harmless_and_idempotent 5 decorating .fresh _ rfl
  exact ⟨decorated, again⟩

end PlotLisp
