import PlotLisp.Evaluation.Basic
import PlotLisp.Proofs.Environment.Extension

/-!
# Regimes

A regime says what holds of the environment and of the children of a form at every
moment of a turn, and what is known of every value that the turn works with. The laws
of a regime speak of single steps, such as evaluating a child or calling a procedure value.
This module derives from them what the building blocks of the forms keep, also when a
turn faults in the middle.
-/

namespace PlotLisp

/-- What is kept while a form is evaluated. -/
structure Regime where
  Allows : Environment → Prop
  Parts : List Expression → Prop
  Value : Expression → Prop

/-- The regime holds of the frame of a turn. -/
def Regime.Holds (regime : Regime) (frame : TurnFrame) : Prop :=
  regime.Allows frame.environment ∧ regime.Parts frame.children

/-- What the single steps of a turn have to keep under a regime. -/
structure Regime.Laws (regime : Regime) (evaluate : Evaluator) : Prop where
  /-- Evaluating a child keeps the regime and gives a value of it. -/
  child {children : List Expression} {environment : Environment} {index : Nat}
    {evaluation : Evaluation} (parts : regime.Parts children)
    (allowed : regime.Allows environment)
    (ended : evaluate ((children[index]?).getD .absent) environment = some evaluation) :
    regime.Holds ⟨children.set index evaluation.program, evaluation.environment⟩ ∧
      ∀ value, evaluation.outcome = .ok value → regime.Value value
  /-- Evaluating a value once more keeps the environment and gives a value. -/
  loose {expression : Expression} {environment : Environment} {evaluation : Evaluation}
    (value : regime.Value expression) (allowed : regime.Allows environment)
    (ended : evaluate expression environment = some evaluation) :
    regime.Allows evaluation.environment ∧
      ∀ value, evaluation.outcome = .ok value → regime.Value value
  /-- What a name denotes is a value of the regime. -/
  bound {environment : Environment} (allowed : regime.Allows environment) :
    environment.Holds regime.Value
  /-- A call of a procedure value returns a value of the regime. -/
  call {lambda value : Expression} {arguments : List Expression} {environment : Environment}
    (allowed : regime.Allows environment) (procedure : regime.Value lambda)
    (given : ∀ argument ∈ arguments, regime.Value argument)
    (called : (callLambda evaluate lambda arguments environment).run = some (.ok value)) :
    regime.Value value
  /-- A child that was read may be put back with one more property. -/
  decorate {children former : List Expression} {index : Nat} {tag : String}
    {value : Expression} (parts : regime.Parts children) (read : regime.Parts former)
    (holds : regime.Value value) :
    regime.Parts
      (children.set index (((former[index]?).getD Expression.absent).withProperty tag value))

/-- Binding the name that the first child of a form spells is allowed. Only a
definition needs this. -/
def Regime.AllowsDefinition (regime : Regime) : Prop :=
  ∀ {children : List Expression} {environment after : Environment} {name : String}
    {value : Expression}, regime.Parts children →
    ((children[0]?).getD Expression.absent).bareSymbol? = some name →
    regime.Allows environment → regime.Value value →
    environment.define name value = .ok after → regime.Allows after

namespace Turn

variable {α β : Type} {regime : Regime}

/-- The turn keeps a regime, whatever its outcome, and a value that it returns has the
property. -/
def Keeps (turn : Turn α) (regime : Regime) (Yields : α → Prop) : Prop :=
  ∀ frame outcome after, regime.Holds frame → turn.runOn frame = some (outcome, after) →
    regime.Holds after ∧ ∀ value, outcome = .ok value → Yields value

/-- Returning a value with the property keeps every regime. -/
theorem keeps_pure {value : α} {Yields : α → Prop} (yields : Yields value) :
    (pure value : Turn α).Keeps regime Yields := by
  intro frame outcome after holds ran
  cases ran
  exact ⟨holds, fun _ returned => Except.ok.inj returned ▸ yields⟩

/-- A fault keeps every regime, since it returns nothing. -/
theorem keeps_throw {fault : Fault} {Yields : α → Prop} :
    (throw fault : Turn α).Keeps regime Yields := by
  intro frame outcome after holds ran
  cases ran
  exact ⟨holds, fun _ returned => nomatch returned⟩

/-- A sequence keeps what both of its turns keep. -/
theorem keeps_bind {turn : Turn α} {next : α → Turn β} {Middle : α → Prop}
    {Yields : β → Prop} (first : turn.Keeps regime Middle)
    (second : ∀ value, Middle value → (next value).Keeps regime Yields) :
    (turn >>= next).Keeps regime Yields := by
  intro frame outcome after holds ran
  rw [runOn_bind] at ran
  cases firstRan : turn.runOn frame with
  | none => rw [firstRan] at ran; cases ran
  | some result =>
      obtain ⟨firstOutcome, middle⟩ := result
      obtain ⟨middleHolds, yields⟩ := first frame firstOutcome middle holds firstRan
      rw [firstRan] at ran
      cases firstOutcome with
      | error fault =>
          cases ran
          exact ⟨middleHolds, fun _ returned => nomatch returned⟩
      | ok value => exact second value (yields value rfl) middle outcome after middleHolds ran

/-- An outcome that is given keeps every regime, and only its value matters. -/
theorem keeps_ofExcept {outcome : Except Fault α} {Yields : α → Prop}
    (yields : ∀ value, outcome = .ok value → Yields value) :
    (ofExcept outcome : Turn α).Keeps regime Yields := by
  intro frame result after holds ran
  rw [runOn_ofExcept] at ran
  cases ran
  exact ⟨holds, yields⟩

/-- A check that only may fault keeps every regime. -/
theorem keeps_check {condition : Bool} {fault : Fault} :
    (ofExcept (check condition fault) : Turn Unit).Keeps regime fun _ => True :=
  keeps_ofExcept fun _ _ => trivial

/-- An attempt keeps every regime, and only its value matters. -/
theorem keeps_ofAttempt {attempt : Attempt α} {Yields : α → Prop}
    (yields : ∀ value, attempt.run = some (.ok value) → Yields value) :
    (ofAttempt attempt).Keeps regime Yields := by
  intro frame outcome after holds ran
  rw [runOn_ofAttempt, Option.map_eq_some_iff] at ran
  obtain ⟨result, attempted, same⟩ := ran
  cases same
  exact ⟨holds, fun value returned => yields value (returned ▸ attempted)⟩

/-- The environment that is read is one that the regime allows. -/
theorem keeps_environment : environment.Keeps regime regime.Allows := by
  intro frame outcome after holds ran
  cases ran
  exact ⟨holds, fun _ returned => Except.ok.inj returned ▸ holds.1⟩

/-- The children that are read are as the regime has them. -/
theorem keeps_children : children.Keeps regime regime.Parts := by
  intro frame outcome after holds ran
  cases ran
  exact ⟨holds, fun _ returned => Except.ok.inj returned ▸ holds.2⟩

/-- The child that is read stands at its index among children as the regime has
them. -/
theorem keeps_child (index : Nat) :
    (child index).Keeps regime fun child =>
      ∃ children, regime.Parts children ∧ (children[index]?).getD .absent = child := by
  intro frame outcome after holds ran
  cases ran
  exact ⟨holds, fun _ returned => ⟨frame.children, holds.2, Except.ok.inj returned⟩⟩

/-- A child may be replaced by one that fits among the others. -/
theorem keeps_setChild {index : Nat} {new : Expression}
    (fits : ∀ children, regime.Parts children → regime.Parts (children.set index new)) :
    (setChild index new).Keeps regime fun _ => True := by
  intro frame outcome after holds ran
  cases ran
  exact ⟨⟨holds.1, fits frame.children holds.2⟩, fun _ _ => trivial⟩

/-- The environment may be replaced by one that the regime allows. -/
theorem keeps_setEnvironment {environment : Environment} (allowed : regime.Allows environment) :
    (setEnvironment environment).Keeps regime fun _ => True := by
  intro frame outcome after holds ran
  cases ran
  exact ⟨⟨allowed, holds.2⟩, fun _ _ => trivial⟩

variable {evaluate : Evaluator}

/-- Evaluating a child keeps the regime by the law of children. -/
theorem keeps_evaluateChild (laws : regime.Laws evaluate) (index : Nat) :
    (evaluateChild evaluate index).Keeps regime regime.Value := by
  intro frame outcome after holds ran
  obtain ⟨evaluation, ended, same⟩ := Option.map_eq_some_iff.mp ran
  cases same
  exact laws.child holds.2 holds.1 ended

/-- Evaluating a value once more keeps the regime by the law of loose expressions. -/
theorem keeps_evaluateLoose (laws : regime.Laws evaluate) {expression : Expression}
    (value : regime.Value expression) :
    (evaluateLoose evaluate expression).Keeps regime regime.Value := by
  intro frame outcome after holds ran
  obtain ⟨evaluation, ended, same⟩ := Option.map_eq_some_iff.mp ran
  cases same
  obtain ⟨allowed, yields⟩ := laws.loose value holds.1 ended
  exact ⟨⟨allowed, holds.2⟩, yields⟩

/-- The values of several children are all values of the regime. -/
theorem keeps_evaluateFrom (laws : regime.Laws evaluate) (count : Nat) (index : Nat) :
    (evaluateFrom evaluate index count).Keeps regime fun values =>
      ∀ value ∈ values, regime.Value value := by
  induction count generalizing index with
  | zero => exact keeps_pure (by simp)
  | succ count inductionHypothesis =>
      refine keeps_bind (keeps_evaluateChild laws index) fun value holds => ?_
      refine keeps_bind (inductionHypothesis (index + 1)) fun values others => ?_
      exact keeps_pure (List.forall_mem_cons.mpr ⟨holds, others⟩)

/-- Evaluating all children keeps the regime and gives values of it only. -/
theorem keeps_evaluateChildren (laws : regime.Laws evaluate) :
    (evaluateChildren evaluate).Keeps regime fun values =>
      ∀ value ∈ values, regime.Value value :=
  keeps_bind keeps_children fun children _ => keeps_evaluateFrom laws children.length 0

/-- Evaluating values once more, in order, keeps the regime and gives values of it only. -/
theorem keeps_evaluateAllLoose (laws : regime.Laws evaluate) {expressions : List Expression}
    (values : ∀ expression ∈ expressions, regime.Value expression) :
    (evaluateAllLoose evaluate expressions).Keeps regime fun values =>
      ∀ value ∈ values, regime.Value value := by
  induction expressions with
  | nil => exact keeps_pure (by simp)
  | cons expression rest inductionHypothesis =>
      obtain ⟨first, others⟩ := List.forall_mem_cons.mp values
      refine keeps_bind (keeps_evaluateLoose laws first) fun value holds => ?_
      refine keeps_bind (inductionHypothesis others) fun values othersHold => ?_
      exact keeps_pure (List.forall_mem_cons.mpr ⟨holds, othersHold⟩)

end Turn

end PlotLisp
