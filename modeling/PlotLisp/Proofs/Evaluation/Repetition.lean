import PlotLisp.Proofs.Evaluation.Dependence
import PlotLisp.Proofs.Expression.Decoration

/-!
# Evaluating a program again

Evaluation leaves a program decorated, and nothing reads the decorations: no child of a
form is used any more after it was decorated, and the properties of an expression take no
part in its own evaluation. So the decorated program, evaluated again in the same
environment, ends in the same way and is left as it is.

A form goes through its children from left to right. At every moment of its turn there is a
line: the children below the line keep their decorations up to the end of the turn.
-/

namespace PlotLisp

/-- An evaluator that decorates targets only, that ends in the same way on the program that
it leaves behind, and to which the properties of the whole program do not matter. -/
structure Evaluator.Repeats (evaluate : Evaluator) : Prop where
  decorates {expression : Expression} {environment : Environment} {evaluation : Evaluation}
    (ended : evaluate expression environment = some evaluation) :
    evaluation.program.plain = expression.plain
  again {expression : Expression} {environment : Environment} {evaluation : Evaluation}
    (ended : evaluate expression environment = some evaluation) :
    evaluate evaluation.program environment = some evaluation
  withProperty (expression : Expression) (environment : Environment) (tag : String)
    (value : Expression) :
    evaluate (expression.withProperty tag value) environment =
      (evaluate expression environment).map fun evaluation =>
        { evaluation with program := evaluation.program.withProperty tag value }

namespace Turn

variable {α β : Type} {head : Atom} {count low high : Nat} {turn : Turn α}

/-- The turn of a form with this head and this many children takes the line from one place
to another. It decorates targets only and leaves alone what is below the line. On children
that are as the turn leaves them up to the new line, it ends in the same way and changes
nothing. -/
structure Repeats (head : Atom) (count low high : Nat) (turn : Turn α) : Prop where
  ordered : low ≤ high
  decorates {frame after : TurnFrame} {outcome : Except Fault α}
    (length : frame.children.length = count) (ran : turn.runOn frame = some (outcome, after)) :
    Expression.plainParts head after.children = Expression.plainParts head frame.children
  keeps {frame after : TurnFrame} {outcome : Except Fault α} {index : Nat}
    (length : frame.children.length = count) (ran : turn.runOn frame = some (outcome, after))
    (below : index < low) :
    after.children[index]? = frame.children[index]?
  again {frame after : TurnFrame} {outcome : Except Fault α} {children : List Expression}
    (length : frame.children.length = count) (sameLength : children.length = count)
    (ran : turn.runOn frame = some (outcome, after))
    (same : ∀ index < high, children[index]? = after.children[index]?) :
    turn.runOn ⟨children, frame.environment⟩ = some (outcome, ⟨children, after.environment⟩)

namespace Repeats

/-- A turn that does not look at the children. -/
theorem blind (ordered : low ≤ high)
    (run : Environment → Option (Except Fault α × Environment))
    (runs : ∀ frame, turn.runOn frame = (run frame.environment).map fun result =>
      (result.1, { frame with environment := result.2 })) :
    Repeats head count low high turn := by
  have children : ∀ {frame after outcome}, turn.runOn frame = some (outcome, after) →
      after.children = frame.children := by
    intro frame after outcome ran
    rw [runs] at ran
    obtain ⟨result, -, same⟩ := Option.map_eq_some_iff.mp ran
    cases same
    rfl
  refine ⟨ordered, fun _ ran => by rw [children ran], fun _ ran _ => by rw [children ran], ?_⟩
  intro frame after outcome others _ _ ran _
  rw [runs] at ran ⊢
  obtain ⟨result, ended, same⟩ := Option.map_eq_some_iff.mp ran
  cases same
  rw [ended]
  rfl

/-- Returning a value leaves the line where it is. -/
theorem pure (value : α) : Repeats head count low low (pure value) :=
  blind (Nat.le_refl low) (fun environment => some (.ok value, environment)) fun _ => rfl

/-- Raising a fault leaves the line where it is. -/
theorem throw (fault : Fault) : Repeats head count low low (throw fault : Turn α) :=
  blind (Nat.le_refl low) (fun environment => some (.error fault, environment)) fun _ => rfl

/-- An outcome that is given leaves the line where it is. -/
theorem ofExcept (outcome : Except Fault α) :
    Repeats head count low low (MonadExcept.ofExcept outcome : Turn α) :=
  blind (Nat.le_refl low) (fun environment => some (outcome, environment)) fun frame =>
    runOn_ofExcept frame outcome

/-- An attempt does not see the children, so it leaves the line where it is. -/
theorem ofAttempt (attempt : Attempt α) : Repeats head count low low (ofAttempt attempt) := by
  refine blind (Nat.le_refl low)
    (fun environment => attempt.run.map fun outcome => (outcome, environment)) fun frame => ?_
  rw [runOn_ofAttempt, Option.map_map]
  rfl

/-- Reading the environment leaves the line where it is. -/
theorem environment : Repeats head count low low environment :=
  blind (Nat.le_refl low) (fun environment => some (.ok environment, environment)) fun _ => rfl

/-- Replacing the environment leaves the line where it is. -/
theorem setEnvironment (environment : Environment) :
    Repeats head count low low (setEnvironment environment) :=
  blind (Nat.le_refl low) (fun _ => some (.ok (), environment)) fun _ => rfl

/-- Evaluating a loose expression decorates no child. -/
theorem evaluateLoose (evaluate : Evaluator) (expression : Expression) :
    Repeats head count low low (evaluateLoose evaluate expression) := by
  refine blind (Nat.le_refl low) (fun environment => (evaluate expression environment).map
    fun evaluation => (evaluation.outcome, evaluation.environment)) fun frame => ?_
  rw [Option.map_map]
  rfl

/-- The line may be taken further than necessary. -/
theorem further {middle : Nat} (turns : Repeats head count low middle turn)
    (ordered : middle ≤ high) : Repeats head count low high turn where
  ordered := Nat.le_trans turns.ordered ordered
  decorates := turns.decorates
  keeps := turns.keeps
  again length sameLength ran same :=
    turns.again length sameLength ran fun index below =>
      same index (Nat.lt_of_lt_of_le below ordered)

/-- Two turns, one after the other. -/
theorem bind {middle : Nat} {next : α → Turn β} (first : Repeats head count low middle turn)
    (second : ∀ value, Repeats head count middle high (next value)) (ordered : middle ≤ high) :
    Repeats head count low high (turn >>= next) := by
  -- A sequence ends with the fault of the first turn or with the end of the second one.
  have cases : ∀ {frame after outcome}, (turn >>= next).runOn frame = some (outcome, after) →
      (∃ fault, turn.runOn frame = some (.error fault, after) ∧ outcome = .error fault) ∨
      ∃ value between, turn.runOn frame = some (.ok value, between) ∧
        (next value).runOn between = some (outcome, after) := by
    intro frame after outcome ran
    rw [runOn_bind] at ran
    cases firstRan : turn.runOn frame with
    | none =>
        rw [firstRan] at ran
        cases ran
    | some result =>
        obtain ⟨firstOutcome, between⟩ := result
        rw [firstRan] at ran
        cases firstOutcome with
        | error fault =>
            cases ran
            exact .inl ⟨fault, rfl, rfl⟩
        | ok value => exact .inr ⟨value, between, rfl, ran⟩
  have lengths : ∀ {frame after outcome}, frame.children.length = count →
      turn.runOn frame = some (outcome, after) → after.children.length = count := by
    intro frame after outcome length ran
    have parts := congrArg List.length (first.decorates length ran)
    rw [Expression.length_plainParts, Expression.length_plainParts] at parts
    exact parts.trans length
  refine ⟨Nat.le_trans first.ordered ordered, fun length ran => ?decorates,
    fun length ran below => ?keeps, fun {frame after outcome others} length sameLength ran same =>
      ?again⟩
  case decorates =>
    rcases cases ran with ⟨fault, ranFirst, -⟩ | ⟨value, between, ranFirst, ranSecond⟩
    · exact first.decorates length ranFirst
    · have later := (second value).decorates (lengths length ranFirst) ranSecond
      exact later.trans (first.decorates length ranFirst)
  case keeps =>
    rcases cases ran with ⟨fault, ranFirst, -⟩ | ⟨value, between, ranFirst, ranSecond⟩
    · exact first.keeps length ranFirst below
    · have later := (second value).keeps (lengths length ranFirst) ranSecond
        (Nat.lt_of_lt_of_le below first.ordered)
      exact later.trans (first.keeps length ranFirst below)
  case again =>
    have sameBelow : ∀ index < middle, others[index]? = after.children[index]? :=
      fun index below => same index (Nat.lt_of_lt_of_le below ordered)
    rcases cases ran with ⟨fault, ranFirst, rfl⟩ | ⟨value, between, ranFirst, ranSecond⟩
    · rw [runOn_bind, first.again length sameLength ranFirst sameBelow]
    · have betweenLength := lengths length ranFirst
      -- Below the first line the second turn changes nothing any more.
      have repeated := first.again length sameLength ranFirst fun index below =>
        (sameBelow index below).trans ((second value).keeps betweenLength ranSecond below)
      rw [runOn_bind, repeated]
      exact (second value).again betweenLength sameLength ranSecond same

/-- Evaluating loose expressions in order decorates no child. -/
theorem evaluateAllLoose (evaluate : Evaluator) (expressions : List Expression) :
    Repeats head count low low (evaluateAllLoose evaluate expressions) := by
  induction expressions with
  | nil => exact pure []
  | cons expression rest inductionHypothesis =>
      refine bind (evaluateLoose evaluate expression) (fun value => ?_) (Nat.le_refl low)
      exact bind inductionHypothesis (fun values => pure (value :: values)) (Nat.le_refl low)

/-- The child at the line is evaluated, something of which the same remains is put back,
and the line moves behind it. What was put back has to lead to itself. -/
theorem ofChild (evaluate : Evaluator) {index : Nat}
    (result : Evaluation → Except Fault α × Expression)
    (runs : ∀ frame, turn.runOn frame =
      (evaluate ((frame.children[index]?).getD .absent) frame.environment).map fun evaluation =>
        ((result evaluation).1,
          ⟨frame.children.set index (result evaluation).2, evaluation.environment⟩))
    (decorates : ∀ {expression environment evaluation},
      evaluate expression environment = some evaluation →
        Expression.plainAt head index (result evaluation).2 =
          Expression.plainAt head index expression)
    (again : ∀ {expression environment evaluation},
      evaluate expression environment = some evaluation →
        ∃ later, evaluate (result evaluation).2 environment = some later ∧
          result later = result evaluation ∧ later.environment = evaluation.environment) :
    Repeats head count index (index + 1) turn where
  ordered := Nat.le_succ index
  decorates _ ran := by
    rw [runs] at ran
    obtain ⟨evaluation, ended, same⟩ := Option.map_eq_some_iff.mp ran
    cases same
    exact Expression.plainParts_set (decorates ended)
  keeps _ ran below := by
    rw [runs] at ran
    obtain ⟨evaluation, -, same⟩ := Option.map_eq_some_iff.mp ran
    cases same
    exact List.getElem?_set_ne (Nat.ne_of_gt below)
  again {frame after outcome children} length sameLength ran same := by
    rw [runs] at ran ⊢
    obtain ⟨evaluation, ended, left⟩ := Option.map_eq_some_iff.mp ran
    cases left
    by_cases inside : index < count
    · have here : children[index]? = some (result evaluation).2 := by
        rw [same index (Nat.lt_succ_self index), List.getElem?_set_self (length.symm ▸ inside)]
      obtain ⟨later, endedAgain, sameResult, sameEnvironment⟩ := again ended
      obtain ⟨bounded, read⟩ := List.getElem?_eq_some_iff.mp here
      rw [here, Option.getD_some, endedAgain, Option.map_some, sameResult, sameEnvironment,
        ← read, List.set_getElem_self]
    · -- A child that is missing is not put back either.
      have missing : frame.children[index]? = none := by
        rw [List.getElem?_eq_none_iff, length]
        exact Nat.le_of_not_gt inside
      have stillMissing : children.length ≤ index := sameLength ▸ Nat.le_of_not_gt inside
      rw [missing] at ended
      rw [List.getElem?_eq_none_iff.mpr stillMissing, ended, Option.map_some,
        List.set_eq_of_length_le stillMissing]

end Repeats

/-! ## The frame -/

/-- A child below the line is read as it stays. -/
theorem repeats_child {index : Nat} (below : index < low) :
    Repeats head count low low (child index) where
  ordered := Nat.le_refl low
  decorates _ ran := by cases ran; rfl
  keeps _ ran _ := by cases ran; rfl
  again _ _ ran same := by
    cases ran
    rw [runOn_child, same index below]

/-- Children that are read are counted only, or looked up where none are missing. -/
theorem repeats_children {next : List Expression → Turn α}
    (counted : ∀ children : List Expression, children.length = count → next children = turn)
    (repeats : Repeats head count low high turn) :
    Repeats head count low high (children >>= next) := by
  have runs : ∀ frame : TurnFrame, frame.children.length = count →
      (children >>= next).runOn frame = turn.runOn frame := by
    intro frame length
    rw [runOn_bind, runOn_children, ← counted frame.children length]
  refine ⟨repeats.ordered, fun length ran => ?_, fun length ran => ?_,
    fun length sameLength ran => ?_⟩
  · exact repeats.decorates length (runs _ length ▸ ran)
  · exact repeats.keeps length (runs _ length ▸ ran)
  · rw [runs _ sameLength]
    exact repeats.again length sameLength (runs _ length ▸ ran)

/-- Counting the children does not depend on their decorations. -/
theorem repeats_checkChildren (keyword : Keyword) (required : Nat) :
    Repeats head count low low (Forms.checkChildren keyword required) := by
  have verdict : Repeats head count low low (MonadExcept.ofExcept
      (check (count == required) (.argumentCount keyword.name)) : Turn Unit) := .ofExcept _
  refine repeats_children (fun children length => ?_) verdict
  rw [checkCount, length]

/-! ## Evaluating parts -/

variable {evaluate : Evaluator} (repeats : evaluate.Repeats)

include repeats

/-- Evaluating the child at the line moves the line behind it: its decorated form is evaluated to
the same end again. -/
theorem repeats_evaluateChild (index : Nat) :
    Repeats head count index (index + 1) (evaluateChild evaluate index) :=
  .ofChild evaluate (fun evaluation => (evaluation.outcome, evaluation.program)) (fun _ => rfl)
    (fun ended => Expression.plainAt_congr (repeats.decorates ended) _ _)
    fun {_ _ evaluation} ended => ⟨evaluation, repeats.again ended, rfl, rfl⟩

/-- Evaluating several children from the line on moves the line behind the last of them. -/
theorem repeats_evaluateFrom (amount index : Nat) :
    Repeats head count index (index + amount) (evaluateFrom evaluate index amount) := by
  induction amount generalizing index with
  | zero => exact .pure []
  | succ amount inductionHypothesis =>
      refine .bind (repeats_evaluateChild repeats index) (fun value => ?_) (by omega)
      have rest := @inductionHypothesis (index + 1)
      rw [Nat.add_right_comm, Nat.add_assoc] at rest
      exact .bind rest (fun values => .pure (value :: values)) (Nat.le_refl _)

/-- All children are evaluated, and the line moves behind the last one. -/
theorem repeats_evaluateChildren : Repeats head count 0 count (evaluateChildren evaluate) := by
  have each := @repeats_evaluateFrom head count evaluate repeats count 0
  rw [Nat.zero_add] at each
  exact repeats_children (fun children length => by rw [length]) each

/-- What becomes of a property's target: the outcome of the form, and the target itself. -/
def attached (tag : String) (property : Expression) (evaluation : Evaluation) :
    Except Fault Expression × Expression :=
  match evaluation.outcome with
  | .error fault => (.error fault, evaluation.program)
  | .ok value =>
      (.ok (value.withProperty tag property), evaluation.program.withProperty tag property)

/-- The target of `set-property` is evaluated and then receives the property. Evaluated
once more, it has the property already, and receives it in vain. -/
theorem repeats_attach (tag : String) (property : Expression) :
    Repeats (.symbol Keyword.setProperty.name) count 2 3 (do
      let value ← evaluateChild evaluate 2
      setChild 2 ((← child 2).withProperty tag property)
      return value.withProperty tag property) := by
  refine .ofChild evaluate (attached tag property) (fun frame => ?runs) (fun ended => ?decorates)
    fun {expression environment evaluation} ended => ?again
  case runs =>
    rw [runOn_bind]
    unfold evaluateChild
    rw [runOn_ofRun]
    cases evaluate ((frame.children[2]?).getD .absent) frame.environment with
    | none => rfl
    | some evaluation =>
        obtain ⟨outcome, program, environment⟩ := evaluation
        cases outcome with
        | error fault => rfl
        | ok value =>
            simp only [Option.map_some, runOn_bind, runOn_child, runOn_setChild, runOn_pure,
              List.set_set, attached]
            by_cases inside : 2 < frame.children.length
            · rw [List.getElem?_set_self inside, Option.getD_some]
            · simp only [List.set_eq_of_length_le (Nat.le_of_not_gt inside)]
  case decorates =>
    have plainly := Expression.plainAt_congr (repeats.decorates ended)
      (.symbol Keyword.setProperty.name) 2
    unfold attached
    split
    · exact plainly
    · rw [Expression.plainAt_withProperty, plainly]
  case again =>
    -- To attach a property twice is to attach it once.
    have repeated := repeats.again ended
    cases outcome : evaluation.outcome with
    | error fault => exact ⟨evaluation, by simpa only [attached, outcome] using repeated, rfl, rfl⟩
    | ok value =>
        refine ⟨{ evaluation with program := evaluation.program.withProperty tag property },
          ?_, ?_, rfl⟩
        · simp only [attached, outcome, repeats.withProperty, repeated, Option.map_some]
        · simp only [attached, outcome, Expression.withProperty_withProperty]

end Turn

end PlotLisp
