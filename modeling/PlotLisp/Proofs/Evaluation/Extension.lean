import PlotLisp.Proofs.Evaluation.Step

/-!
# What evaluation leaves behind

Evaluation extends the environment and decorates the program, and does nothing else to
either of them. In the environments of a session it binds only names that the program
defines itself outside of its procedure values: what a body defines stays in the copy
of the environment that the body was evaluated in, and evaluating a value once more
defines nothing.
-/

namespace PlotLisp

/-- The expression has a definition of the name that lies outside all its `lambda`
forms. -/
inductive Expression.Defines (name : String) : Expression → Prop where
  | here {form : Expression} (keyword : form.head = .symbol Keyword.define.name)
      (named : ((form.children[0]?).getD absent).bareSymbol? = some name) :
      Defines name form
  | inside {form child : Expression} (evaluated : form.head ≠ .symbol Keyword.lambda.name)
      (member : child ∈ form.children) (defines : Defines name child) : Defines name form

/-! ## Every environment -/

/-- Extending an environment, with the skeletons of the children as they are. -/
def Regime.growing (environment : Environment) (children : List Expression) : Regime where
  Allows after := environment.ExtendedBy after
  Parts now := now.map Expression.skeleton = children.map Expression.skeleton
  Value _ := True

/-- Every evaluation extends the environment and decorates the program. -/
theorem evaluate_extendedBy {depth : Nat} {expression : Expression} {environment : Environment}
    {evaluation : Evaluation} (ended : evaluate depth expression environment = some evaluation) :
    environment.ExtendedBy evaluation.environment ∧
      evaluation.program.skeleton = expression.skeleton := by
  induction depth generalizing expression environment evaluation with
  | zero => cases ended
  | succ depth inductionHypothesis =>
      obtain ⟨head, children, properties⟩ := expression
      cases Evaluation.step_cases ended with
      | lookedUp | refused => exact ⟨.refl environment, rfl⟩
      | @worked name outcome frame named ran =>
          -- A form only evaluates its parts, so what holds for them by induction is kept by the
          -- whole.
          have laws : (Regime.growing environment children).Laws (evaluate depth) :=
            { child := fun parts allowed ended =>
                have ⟨extended, same⟩ := inductionHypothesis ended
                ⟨⟨allowed.trans extended, (Expression.map_skeleton_set same).trans parts⟩,
                  fun _ _ => trivial⟩
              loose := fun _ allowed ended =>
                ⟨allowed.trans (inductionHypothesis ended).1, fun _ _ => trivial⟩
              bound := fun _ _ _ _ => trivial
              call := fun _ _ _ _ => trivial
              decorate := by
                intro children former index tag value parts read _
                refine (Expression.map_skeleton_set ?_).trans parts
                rw [Expression.skeleton_withProperty]
                exact Expression.skeleton_getD_congr (read.trans parts.symm) index }
          have definition : (Regime.growing environment children).AllowsDefinition :=
            fun _ _ allowed _ defined =>
              allowed.trans (Environment.ExtendedBy.of_define defined)
          have kept := Forms.keeps_named Expression.ValueClass.all (fun _ => laws)
            (fun _ => definition) ⟨children, environment⟩ outcome frame
            ⟨.refl environment, rfl⟩ ran
          refine ⟨kept.1.1, ?_⟩
          have parts : frame.children.map Expression.skeleton =
              children.map Expression.skeleton := kept.1.2
          simp only [Expression.skeleton, Expression.skeletons_eq_map, parts]

/-! ## Environments of settled values -/

namespace Expression

namespace Defines

variable {name : String}

/-- Decorations define nothing and hide no definition. -/
theorem of_skeleton {expression decorated : Expression}
    (same : decorated.skeleton = expression.skeleton) (defines : Defines name decorated) :
    Defines name expression := by
  induction defines generalizing expression with
  | @here form keyword named =>
      have heads : form.head = expression.head := by
        rw [← head_skeleton, same, head_skeleton]
      have children : form.children.map skeleton = expression.children.map skeleton := by
        rw [← children_skeleton, same, children_skeleton]
      refine .here (heads ▸ keyword) ?_
      rw [← bareSymbol?_skeleton, ← skeleton_getD_congr children 0, bareSymbol?_skeleton, named]
  | @inside form child evaluated member _ inductionHypothesis =>
      have heads : form.head = expression.head := by
        rw [← head_skeleton, same, head_skeleton]
      have children : form.children.map skeleton = expression.children.map skeleton := by
        rw [← children_skeleton, same, children_skeleton]
      have listed : child.skeleton ∈ expression.children.map skeleton :=
        children ▸ List.mem_map_of_mem member
      obtain ⟨original, originalMember, sameChild⟩ := List.mem_map.mp listed
      exact .inside (heads ▸ evaluated) originalMember (inductionHypothesis sameChild.symm)

/-- A child that is missing defines nothing. -/
theorem not_absent : ¬ Defines name absent := by
  intro defines
  cases defines with
  | here keyword => cases keyword
  | inside _ member => cases member

/-- What the child at an index defines is defined by a form that evaluates it. -/
theorem of_child {form : Expression} {index : Nat}
    (evaluated : form.head ≠ .symbol Keyword.lambda.name)
    (defines : Defines name ((form.children[index]?).getD absent)) : Defines name form := by
  cases found : form.children[index]? with
  | none =>
      rw [found] at defines
      exact absurd defines not_absent
  | some child =>
      rw [found] at defines
      exact .inside evaluated (List.mem_of_getElem? found) defines

end Defines

/-- A settled value defines nothing: its only definitions lie in bodies. -/
theorem Settled.not_defines {name : String} {value : Expression} (settled : Settled value) :
    ¬ Defines name value := by
  induction settled with
  | terminal constant =>
      intro defines
      cases defines with
      | here keyword =>
          rw [head_node] at keyword
          rw [keyword] at constant
          cases constant
      | inside _ member => cases member
  | list _ _ elementsDefineNothing =>
      intro defines
      cases defines with
      | here keyword => exact absurd (Atom.symbol.inj keyword) (by decide)
      | inside _ member defines => exact elementsDefineNothing _ member defines
  | lambda =>
      intro defines
      cases defines with
      | here keyword => exact absurd (Atom.symbol.inj keyword) (by decide)
      | inside evaluated => exact evaluated rfl

end Expression

open Expression

/-- Environments of settled values in which only names are new that the form
defines. -/
def Regime.settled (environment : Environment) (form : Expression) : Regime where
  Allows after := after.Holds Settled ∧
    ∀ name, environment.find? name = none → after.find? name ≠ none → Defines name form
  Parts now := now.map skeleton = form.children.map skeleton
  Value := Settled

/-- An evaluator that, in environments of settled values, returns settled values,
leaves such an environment behind, and binds only names that the program defines. -/
def Evaluator.Settles (evaluate : Evaluator) : Prop :=
  ∀ {expression : Expression} {environment : Environment} {evaluation : Evaluation},
    environment.Holds Settled → evaluate expression environment = some evaluation →
    evaluation.environment.Holds Settled ∧
      (∀ value, evaluation.outcome = .ok value → Settled value) ∧
      ∀ name, environment.find? name = none → evaluation.environment.find? name ≠ none →
        Defines name expression

/-- A call of a procedure value evaluates its body among settled values again. -/
theorem Evaluator.Settles.callLambda {evaluate : Evaluator} (settles : evaluate.Settles)
    {lambda value : Expression} {arguments : List Expression} {environment : Environment}
    (holds : environment.Holds Settled) (given : ∀ argument ∈ arguments, Settled argument)
    (called : (callLambda evaluate lambda arguments environment).run = some (.ok value)) :
    Settled value := by
  obtain ⟨parameters, body, scope, evaluation, -, bound, ended, outcome⟩ :=
    callLambda_eq_ok called
  have scopeHolds : scope.Holds Settled :=
    holds.bindAll (fun pair member => given pair.2 (List.of_mem_zip member).2) bound
  exact (settles scopeHolds ended).2.1 value outcome

/-- The laws hold for every form that evaluates its children. -/
theorem Regime.settled_laws {evaluate : Evaluator} (settles : evaluate.Settles)
    (decorates : ∀ {expression environment evaluation},
      evaluate expression environment = some evaluation →
        evaluation.program.skeleton = expression.skeleton)
    (environment : Environment) {form : Expression}
    (evaluated : form.head ≠ .symbol Keyword.lambda.name) :
    (Regime.settled environment form).Laws evaluate where
  child {children before index evaluation} parts allowed ended := by
    obtain ⟨holds, values, new⟩ := settles allowed.1 ended
    have sameParts := (map_skeleton_set (decorates ended)).trans parts
    refine ⟨⟨⟨holds, fun name free bound => ?_⟩, sameParts⟩, values⟩
    -- A name is new since the start, or it is new since this child.
    cases former : before.find? name with
    | some binding => exact allowed.2 name free (by simp [former])
    | none =>
        have defines := new name former bound
        exact .of_child evaluated (defines.of_skeleton (skeleton_getD_congr parts index))
  loose {expression before evaluation} value allowed ended := by
    obtain ⟨holds, values, new⟩ := settles allowed.1 ended
    refine ⟨⟨holds, fun name free bound => ?_⟩, values⟩
    cases former : before.find? name with
    | some binding => exact allowed.2 name free (by simp [former])
    | none => exact absurd (new name former bound) (Settled.not_defines value)
  bound allowed := allowed.1
  call allowed _ given called := settles.callLambda allowed.1 given called
  decorate {children former index tag value} parts read _ := by
    refine (map_skeleton_set ?_).trans parts
    rw [skeleton_withProperty]
    exact skeleton_getD_congr (read.trans parts.symm) index

/-- Binding the name of a definition is allowed while the definition is evaluated. -/
theorem Regime.settled_allowsDefinition (environment : Environment) {form : Expression}
    (keyword : form.head = .symbol Keyword.define.name) :
    (Regime.settled environment form).AllowsDefinition := by
  intro children before after name value parts named allowed holds defined
  have spelled : ((form.children[0]?).getD absent).bareSymbol? = some name := by
    rw [← bareSymbol?_skeleton, ← skeleton_getD_congr parts 0, bareSymbol?_skeleton, named]
  refine ⟨allowed.1.define holds defined, fun other free bound => ?_⟩
  obtain ⟨-, rfl⟩ := Environment.define_eq_ok_iff.mp defined
  by_cases same : other = name
  · subst same
    exact .here keyword spelled
  · rw [Environment.find?_bindName_of_ne same] at bound
    exact allowed.2 other free bound

/-- Among settled values, evaluation gives settled values and binds only names that
the program defines outside its procedure values. -/
theorem evaluate_settles (depth : Nat) : Evaluator.Settles (evaluate depth) := by
  induction depth with
  | zero => intro _ _ _ _ ended; cases ended
  | succ depth inductionHypothesis =>
      intro expression environment evaluation holds ended
      have unchanged : ∀ name, environment.find? name = none → environment.find? name ≠ none →
          Defines name expression := fun _ free bound => absurd free bound
      obtain ⟨head, children, properties⟩ := expression
      cases Evaluation.step_cases ended with
      | lookedUp =>
          refine ⟨holds, fun value found => ?_, unchanged⟩
          cases head with
          | symbol name =>
              simp only [Evaluation.lookUp] at found
              split at found
              · next bound looked =>
                  cases found
                  exact holds.value? looked
              · cases found
          | absent => cases found
          | number | complex | text =>
              cases found
              exact Settled.valueClass.constant rfl
      | refused => exact ⟨holds, (fun _ returned => nomatch returned), unchanged⟩
      | @worked name outcome frame named ran =>
          subst named
          -- Two forms are special: `lambda` leaves its parts unevaluated, and only `define` binds a
          -- name.
          have laws : name ≠ Keyword.lambda.name →
              (Regime.settled environment (.node (.symbol name) children properties)).Laws
                (evaluate depth) := fun evaluated =>
            Regime.settled_laws inductionHypothesis (fun ended => (evaluate_extendedBy ended).2)
              environment (fun same => evaluated (Atom.symbol.inj same))
          have definition : name = Keyword.define.name →
              (Regime.settled environment
                (.node (.symbol name) children properties)).AllowsDefinition := by
            intro keyword
            apply Regime.settled_allowsDefinition
            exact congrArg Atom.symbol keyword
          obtain ⟨⟨⟨afterHolds, new⟩, -⟩, values⟩ :=
            Forms.keeps_named Settled.valueClass laws definition ⟨children, environment⟩ outcome
              frame ⟨⟨holds, unchanged⟩, rfl⟩ ran
          exact ⟨afterHolds, values, new⟩

end PlotLisp
