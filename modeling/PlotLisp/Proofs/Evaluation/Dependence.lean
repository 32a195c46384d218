import PlotLisp.Proofs.Correspondence.Outcome
import PlotLisp.Proofs.Evaluation.Step
import PlotLisp.Proofs.Evaluation.Visit

/-!
# What a step depends on

A step depends on its evaluator through the answers that it asks for, and through nothing
else. The forms use an evaluator in sequence: where two evaluators make a difference, there
is a first answer in which they differ, and everything before it is the same. That answer
decides the end, because giving up and faults end a turn at once. So the fault of any part
that an evaluation visits is the fault of the whole.
-/

namespace PlotLisp

namespace Turn

variable {α β : Type}

/-- If the part gives up in the scope, so does the turn, and if it faults, the turn ends with
that fault. -/
structure Decides (turn : Evaluator → Turn α) (frame : TurnFrame) (evaluate : Evaluator)
    (part : Expression) (scope : Environment) : Prop where
  none : (turn (evaluate.answering part scope none)).runOn frame = none
  fault {evaluation : Evaluation} {fault : Fault} (faulted : evaluation.outcome = .error fault) :
    ∃ after, (turn (evaluate.answering part scope (some evaluation))).runOn frame =
      some (.error fault, after)

/-- The turn uses its evaluator in sequence: two evaluators lead to the same end, or they
differ in an answer that decides the end. -/
def Sequential (turn : Evaluator → Turn α) : Prop :=
  ∀ frame evaluate other, (turn other).runOn frame = (turn evaluate).runOn frame ∨
    ∃ part scope, other part scope ≠ evaluate part scope ∧
      Decides turn frame evaluate part scope

namespace Decides

variable {turn : Evaluator → Turn α} {next : Evaluator → α → Turn β} {frame middle : TurnFrame}
  {evaluate : Evaluator} {part : Expression} {scope : Environment} {value : α}

/-- What decides the first of two turns decides their sequence. -/
theorem first (decided : Decides turn frame evaluate part scope) :
    Decides (fun evaluate => turn evaluate >>= next evaluate) frame evaluate part scope where
  none := by rw [runOn_bind, decided.none]
  fault faulted := by
    obtain ⟨after, ran⟩ := decided.fault faulted
    exact ⟨after, by rw [runOn_bind, ran]⟩

/-- What decides the second of two turns decides their sequence: a change to that answer
leaves the first turn as it is, or decides it as well. -/
theorem second (sequential : Sequential turn)
    (ran : (turn evaluate).runOn frame = some (.ok value, middle))
    (decided : Decides (fun evaluate => next evaluate value) middle evaluate part scope) :
    Decides (fun evaluate => turn evaluate >>= next evaluate) frame evaluate part scope := by
  by_cases already : Decides turn frame evaluate part scope
  · exact already.first
  have unaffected : ∀ answer,
      (turn (evaluate.answering part scope answer)).runOn frame = some (.ok value, middle) := by
    intro answer
    rcases sequential frame evaluate (evaluate.answering part scope answer) with
      same | ⟨elsewhere, within, differs, decides⟩
    · rw [same, ran]
    · obtain ⟨rfl, rfl⟩ := Evaluator.eq_of_answering_ne differs
      exact absurd decides already
  constructor
  · rw [runOn_bind, unaffected]
    exact decided.none
  · intro evaluation fault faulted
    rw [runOn_bind, unaffected]
    exact decided.fault faulted

end Decides

namespace Sequential

/-- A turn that uses no evaluator. -/
theorem const (turn : Turn α) : Sequential fun _ => turn :=
  fun _ _ _ => .inl rfl

/-- Two turns, one after the other. -/
theorem bind {turn : Evaluator → Turn α} {next : Evaluator → α → Turn β}
    (first : Sequential turn) (second : ∀ value, Sequential fun evaluate => next evaluate value) :
    Sequential fun evaluate => turn evaluate >>= next evaluate := by
  intro frame evaluate other
  rcases first frame evaluate other with same | ⟨part, scope, differs, decided⟩
  · cases ran : (turn evaluate).runOn frame with
    | none => exact .inl (by simp only [runOn_bind, same, ran])
    | some result =>
        obtain ⟨outcome, middle⟩ := result
        cases outcome with
        | error fault => exact .inl (by simp only [runOn_bind, same, ran])
        | ok value =>
            rcases second value middle evaluate other with
              sameNext | ⟨part, scope, differs, decided⟩
            · exact .inl (by simp only [runOn_bind, same, ran, sameNext])
            · exact .inr ⟨part, scope, differs, decided.second first ran⟩
  · exact .inr ⟨part, scope, differs, decided.first⟩

/-- A turn that asks for one answer and goes on with it. -/
theorem ask (part : TurnFrame → Expression) (scope : TurnFrame → Environment)
    (after : TurnFrame → Evaluation → TurnFrame) :
    Sequential fun evaluate => ofRun fun frame =>
      (evaluate (part frame) (scope frame)).map fun evaluation =>
        (evaluation.outcome, after frame evaluation) := by
  intro frame evaluate other
  by_cases same : other (part frame) (scope frame) = evaluate (part frame) (scope frame)
  · exact .inl (by simp only [runOn_ofRun, same])
  · refine .inr ⟨part frame, scope frame, same, ?_, ?_⟩
    · rw [runOn_ofRun, Evaluator.answering_self]
      rfl
    · intro evaluation fault faulted
      refine ⟨after frame evaluation, ?_⟩
      rw [runOn_ofRun, Evaluator.answering_self, Option.map_some, faulted]

end Sequential

/-! ## Evaluating parts -/

/-- Evaluating one child asks for one answer. -/
theorem sequential_evaluateChild (index : Nat) :
    Sequential fun evaluate => evaluateChild evaluate index :=
  .ask _ _ _

/-- Evaluating children in order is sequential, by induction on how many are left. -/
theorem sequential_evaluateFrom (count index : Nat) :
    Sequential fun evaluate => evaluateFrom evaluate index count := by
  induction count generalizing index with
  | zero => exact .const _
  | succ count inductionHypothesis =>
      exact .bind (sequential_evaluateChild index) fun _ =>
        .bind (inductionHypothesis (index + 1)) fun _ => .const _

/-- Evaluating all children is sequential. -/
theorem sequential_evaluateChildren : Sequential evaluateChildren :=
  .bind (.const children) fun children => sequential_evaluateFrom children.length 0

/-- Evaluating loose expressions in order is sequential. -/
theorem sequential_evaluateAllLoose (expressions : List Expression) :
    Sequential fun evaluate => evaluateAllLoose evaluate expressions := by
  induction expressions with
  | nil => exact .const _
  | cons expression rest inductionHypothesis =>
      exact .bind (.ask (fun _ => expression) _ _) fun _ =>
        .bind inductionHypothesis fun _ => .const _

/-- Attempts in sequence are turns in sequence. -/
theorem ofAttempt_bind (first : Attempt α) (next : α → Attempt β) :
    ofAttempt (first >>= next) = ofAttempt first >>= fun value => ofAttempt (next value) := by
  funext frame
  show (ofAttempt (first >>= next)).runOn frame =
    (ofAttempt first >>= fun value => ofAttempt (next value)).runOn frame
  rw [runOn_bind, runOn_ofAttempt, runOn_ofAttempt, Attempt.run_bind]
  cases first.run with
  | none => rfl
  | some outcome => cases outcome <;> rfl

end Turn

open Turn

namespace Attempt

variable {α β : Type}

/-- The attempt uses its evaluator in sequence. -/
def Sequential (attempt : Evaluator → Attempt α) : Prop :=
  Turn.Sequential fun evaluate => ofAttempt (attempt evaluate)

namespace Sequential

/-- An attempt that asks no evaluator is sequential. -/
theorem const (attempt : Attempt α) : Sequential fun _ => attempt :=
  Turn.Sequential.const _

/-- Attempts in a row are sequential. -/
theorem bind {attempt : Evaluator → Attempt α} {next : Evaluator → α → Attempt β}
    (first : Sequential attempt)
    (second : ∀ value, Sequential fun evaluate => next evaluate value) :
    Sequential fun evaluate => attempt evaluate >>= next evaluate := by
  unfold Sequential
  simp only [ofAttempt_bind]
  exact Turn.Sequential.bind first second

/-- Attempts for one item after the other are sequential. -/
theorem mapM {step : Evaluator → α → Attempt β} (items : List α)
    (each : ∀ item, Sequential fun evaluate => step evaluate item) :
    Sequential fun evaluate => items.mapM (step evaluate) := by
  induction items with
  | nil => exact const _
  | cons item rest inductionHypothesis =>
      simp only [List.mapM_cons]
      exact bind (each item) fun _ => bind inductionHypothesis fun _ => const _

/-- An attempt at a part that is not in the frame. -/
theorem ask (part : Expression) (scope : Environment) :
    Sequential fun evaluate => ExceptT.mk ((evaluate part scope).map Evaluation.outcome) := by
  have asked : (fun evaluate : Evaluator =>
      ofAttempt (ExceptT.mk ((evaluate part scope).map Evaluation.outcome))) =
        fun evaluate => ofRun fun frame => (evaluate part scope).map fun evaluation =>
          (evaluation.outcome, frame) := by
    funext evaluate frame
    show ((evaluate part scope).map Evaluation.outcome).map (fun outcome => (outcome, frame)) = _
    rw [Option.map_map]
    rfl
  unfold Sequential
  rw [asked]
  exact Turn.Sequential.ask (fun _ => part) (fun _ => scope) fun frame _ => frame

end Sequential

end Attempt

/-! ## Calls -/

open Attempt (Sequential)

/-- A call of a procedure value asks only for its body, in the scope of the call. -/
theorem sequential_callLambda (lambda : Expression) (arguments : List Expression)
    (environment : Environment) :
    Sequential fun evaluate => callLambda evaluate lambda arguments environment := by
  unfold callLambda
  split
  · next parameters body _ =>
      exact .bind (.const _) fun _ => .bind (.const _) fun scope => .ask body scope
  · exact .const _

namespace Callable

/-- A call is sequential whether or not the procedure is builtin; a builtin one asks
for nothing. -/
theorem sequential_call (callable : Callable) (arguments : List Expression)
    (environment : Environment) :
    Sequential fun evaluate => callable.call evaluate arguments environment := by
  cases callable with
  | builtin procedure => exact .const _
  | lambda value => exact sequential_callLambda value arguments environment

/-- Calling for each element in order is sequential. -/
theorem sequential_callEach (callable : Callable) (environment : Environment)
    (arguments : List Expression) :
    Sequential fun evaluate => callable.callEach evaluate environment arguments := by
  induction arguments with
  | nil => exact .const _
  | cons argument rest inductionHypothesis =>
      exact .bind (sequential_call callable [argument] environment) fun _ =>
        .bind inductionHypothesis fun _ => .const _

end Callable

namespace ContinuousPlot

variable {function : Evaluator → Float → Attempt Float}
  (samples : ∀ x, Sequential fun evaluate => function evaluate x)

include samples

/-- Sampling a sequential function at a number is sequential. -/
theorem sequential_sampleAt (x : Float) :
    Sequential fun evaluate => sampleAt (function evaluate) x :=
  .bind (samples x) fun _ => .const _

/-- Refining a curve from a vertex on is sequential, by induction on the remaining vertices. -/
theorem sequential_refineFrom (bends : List Nat) (index : Nat) (previous : Position)
    (points : List Position) :
    Sequential fun evaluate => refineFrom (function evaluate) bends index previous points := by
  induction points generalizing index previous with
  | nil => exact .const _
  | cons next rest inductionHypothesis =>
      have further := inductionHypothesis (index + 1) next
      unfold refineFrom
      split
      · exact .bind (sequential_sampleAt samples _) fun _ => .bind further fun _ => .const _
      · exact .bind further fun _ => .const _

/-- Refining a whole curve is sequential. -/
theorem sequential_refine (points : List Position) :
    Sequential fun evaluate => refine (function evaluate) points := by
  cases points with
  | nil => exact .const _
  | cons first rest =>
      exact .bind (sequential_refineFrom samples _ 0 first rest) fun _ => .const _

/-- Drawing a curve is sequential: all samples are taken before any refinement. -/
theorem sequential_glyphs (options : PlotOptions) (lower upper : Float) :
    Sequential fun evaluate => glyphs options (function evaluate) lower upper := by
  refine .bind (.const _) fun _ => ?_
  refine .bind (.mapM _ (sequential_sampleAt samples)) fun points => ?_
  refine .bind (.const _) fun _ => .bind (sequential_refine samples points) fun refined => ?_
  exact .bind (.const _) fun _ => .const _

end ContinuousPlot

/-! ## Forms -/

namespace Forms

/-- A sequence of programs is sequential. -/
theorem sequential_sequence : Turn.Sequential sequence := by
  refine .bind sequential_evaluateChildren fun values => ?_
  cases values.getLast? with
  | none => exact .const _
  | some value => exact .const _

/-- A definition asks for its value only, after the name has been checked. -/
theorem sequential_define : Turn.Sequential define := by
  refine .bind (.const _) fun _ => .bind (.const _) fun node => ?_
  cases node.bareSymbol? with
  | none => exact .const _
  | some name =>
      refine .bind (.const _) fun environment => .bind (.const _) fun _ => ?_
      exact .bind (sequential_evaluateChild 1) fun _ => .const _

/-- Applying asks for the list first, then for each element, and for the body last. -/
theorem sequential_apply : Turn.Sequential apply := by
  refine .bind (.const _) fun _ => .bind (.const _) fun environment => ?_
  refine .bind (.const _) fun node => .bind (.const _) fun callable => ?_
  refine .bind (sequential_evaluateChild 1) fun list => .bind (.const _) fun elements => ?_
  cases callable with
  | builtin procedure => exact .const _
  | lambda value =>
      refine .bind (sequential_evaluateAllLoose elements) fun arguments => ?_
      exact .bind (.const _) fun environment => sequential_callLambda value arguments environment

/-- Mapping asks for the list first and then for one body after the other. -/
theorem sequential_map : Turn.Sequential map := by
  refine .bind (.const _) fun _ => .bind (sequential_evaluateChild 1) fun list => ?_
  refine .bind (.const _) fun elements => .bind (.const _) fun environment => ?_
  refine .bind (.const _) fun node => .bind (.const _) fun callable => ?_
  refine .bind (.const _) fun _ => .bind (.const _) fun environment => ?_
  exact .bind (callable.sequential_callEach environment elements) fun _ => .const _

/-- Setting a property asks for the property before the target. -/
theorem sequential_setProperty : Turn.Sequential setProperty := by
  refine .bind (.const _) fun _ => .bind (.const _) fun node => .bind (.const _) fun tag => ?_
  refine .bind (sequential_evaluateChild 1) fun property => ?_
  exact .bind (sequential_evaluateChild 2) fun value => .const _

/-- Reading a property asks for the target only. -/
theorem sequential_getProperty : Turn.Sequential getProperty := by
  refine .bind (.const _) fun _ => .bind (.const _) fun node => .bind (.const _) fun tag => ?_
  exact .bind (sequential_evaluateChild 1) fun target => .const _

/-- A stem plot asks for its data before its options. -/
theorem sequential_discretePlot : Turn.Sequential discretePlot := by
  refine .bind (.const _) fun _ => .bind (sequential_evaluateChild 0) fun data => ?_
  exact .bind (sequential_evaluateChild 1) fun options => .const _

/-- Options ask for their child, if there is one. -/
theorem sequential_optionsAt (form : String) (index : Nat) :
    Turn.Sequential fun evaluate => optionsAt evaluate form index := by
  refine .bind (.const _) fun children => ?_
  cases children[index]? with
  | none => exact .const _
  | some child => exact .bind (sequential_evaluateChild index) fun _ => .const _

/-- A line plot asks for its bounds, its options, and then for the samples. -/
theorem sequential_continuousPlot : Turn.Sequential continuousPlot := by
  refine .bind (.const _) fun children => .bind (.const _) fun _ => ?_
  refine .bind (.const _) fun environment => .bind (.const _) fun node => ?_
  refine .bind (.const _) fun callable => .bind (.const _) fun _ => ?_
  refine .bind (sequential_evaluateChild 1) fun bounds => .bind (.const _) fun range => ?_
  refine .bind (sequential_optionsAt _ 2) fun options => .bind (.const _) fun environment => ?_
  have samples : ∀ x, Sequential fun evaluate => sample evaluate callable environment x :=
    fun x => .bind (callable.sequential_call [.number x] environment) fun _ => .const _
  exact .bind (ContinuousPlot.sequential_glyphs samples options range.x range.y) fun _ => .const _

/-- Every form is sequential. -/
theorem sequential_ofKeyword (keyword : Keyword) :
    Turn.Sequential fun evaluate => ofKeyword evaluate keyword := by
  cases keyword with
  | lambda => exact .const lambda
  | sequence => exact sequential_sequence
  | define => exact sequential_define
  | apply => exact sequential_apply
  | map => exact sequential_map
  | setProperty => exact sequential_setProperty
  | getProperty => exact sequential_getProperty
  | discretePlot => exact sequential_discretePlot
  | continuousPlot => exact sequential_continuousPlot

/-- A call by name asks for its operands in order and then for the body. -/
theorem sequential_application (name : String) :
    Turn.Sequential fun evaluate => application evaluate name := by
  refine .bind (.const _) fun environment => ?_
  split
  · next procedure _ =>
      exact .bind sequential_evaluateChildren fun arguments => .const _
  · next value _ =>
      refine .bind (.const _) fun _ => .bind sequential_evaluateChildren fun arguments => ?_
      exact .bind (.const _) fun environment => sequential_callLambda value arguments environment
  · exact .const _

/-- What a name stands for, a form or a procedure, is sequential. -/
theorem sequential_named (name : String) :
    Turn.Sequential fun evaluate => named evaluate name := by
  unfold named
  split
  · exact sequential_ofKeyword _
  · exact sequential_application name

end Forms

/-! ## Steps -/

namespace Evaluation

/-- If the part gives up in the scope, so does the step, and if it faults, the step ends with
that fault. -/
structure Decides (evaluate : Evaluator) (expression : Expression) (environment : Environment)
    (part : Expression) (scope : Environment) : Prop where
  none : step (evaluate.answering part scope none) expression environment = none
  fault {evaluation : Evaluation} {fault : Fault} (faulted : evaluation.outcome = .error fault) :
    ∃ whole, step (evaluate.answering part scope (some evaluation)) expression environment =
      some whole ∧ whole.outcome = .error fault

/-- Two evaluators lead to the same end of a step, or they differ in an answer that decides
the end. -/
theorem step_sequential (evaluate other : Evaluator) (expression : Expression)
    (environment : Environment) :
    step other expression environment = step evaluate expression environment ∨
      ∃ part scope, other part scope ≠ evaluate part scope ∧
        Decides evaluate expression environment part scope := by
  obtain ⟨head, children, properties⟩ := expression
  by_cases leaf : (children.isEmpty && !head.isSymbol Expression.listName) = true
  · exact .inl (by simp only [step, leaf, if_true])
  cases head with
  | symbol name =>
      have composite : children ≠ [] ∨ name = Expression.listName := by
        cases children with
        | nil => exact .inr (by simpa [Atom.isSymbol, Atom.symbol?] using leaf)
        | cons child rest => exact .inl (List.cons_ne_nil child rest)
      rcases Forms.sequential_named name ⟨children, environment⟩ evaluate other with
        same | ⟨part, scope, differs, decided⟩
      · exact .inl (by rw [step_named composite, step_named composite, same])
      · refine .inr ⟨part, scope, differs, ?_, fun faulted => ?_⟩
        · rw [step_named composite, decided.none]
          rfl
        · obtain ⟨after, ran⟩ := decided.fault faulted
          rw [step_named composite, ran]
          exact ⟨_, rfl, rfl⟩
  | absent | number | complex | text =>
      refine .inl ?_
      simp only [step, leaf]
      rfl

/-- What a step asks for is what decides its end. -/
theorem asks_iff_decides {evaluate : Evaluator} {expression part : Expression}
    {environment scope : Environment} :
    Asks evaluate expression environment part scope ↔
      Decides evaluate expression environment part scope := by
  constructor
  · rintro ⟨other, outside, differs⟩
    rcases step_sequential evaluate other expression environment with
      same | ⟨elsewhere, within, unequal, decided⟩
    · exact absurd same differs
    · by_cases here : (elsewhere, within) = (part, scope)
      · cases here
        exact decided
      · exact absurd (outside elsewhere within here) unequal
  · intro decided
    by_cases stuck : step evaluate expression environment = none
    · let faulted : Evaluation := ⟨.error .absentTerminal, part, scope⟩
      have isFault : faulted.outcome = .error .absentTerminal := rfl
      obtain ⟨whole, ended, -⟩ := decided.fault isFault
      refine asks_of_answering (some faulted) ?_
      rw [stuck, ended]
      nofun
    · refine asks_of_answering none ?_
      rw [decided.none]
      exact Ne.symm stuck

/-- A step depends on its evaluator through nothing but what it asks for. -/
theorem step_eq_of_asks {evaluate other : Evaluator} {expression : Expression}
    {environment : Environment}
    (agree : ∀ part scope, Asks evaluate expression environment part scope →
      other part scope = evaluate part scope) :
    step other expression environment = step evaluate expression environment := by
  rcases step_sequential evaluate other expression environment with
    same | ⟨part, scope, differs, decided⟩
  · exact same
  · exact absurd (agree part scope (asks_iff_decides.mpr decided)) differs

namespace Visits

variable {depth rest : Nat} {expression part : Expression} {environment scope : Environment}

/-- The fault of any part that is visited is the fault of the whole: no form catches it. -/
theorem fault {evaluation : Evaluation} {fault : Fault}
    (visited : Visits depth expression environment rest part scope)
    (ended : evaluate rest part scope = some evaluation)
    (faulted : evaluation.outcome = .error fault) :
    ∃ whole, evaluate depth expression environment = some whole ∧
      whole.outcome = .error fault := by
  induction visited with
  | itself => exact ⟨evaluation, ended, faulted⟩
  | @inside depth rest expression part inner environment scope within asked _
      inductionHypothesis =>
      obtain ⟨partly, partEnded, partFaulted⟩ := inductionHypothesis ended
      have same := (evaluate depth).answering_same part scope
      rw [partEnded] at same
      have decided := (asks_iff_decides.mp asked).fault partFaulted
      rwa [same] at decided

/-- An evaluation ends within the depth only if everything that it visits does. -/
theorem eq_none (visited : Visits depth expression environment rest part scope)
    (endless : evaluate rest part scope = none) :
    evaluate depth expression environment = none := by
  induction visited with
  | itself => exact endless
  | @inside depth rest expression part inner environment scope within asked _
      inductionHypothesis =>
      have same := (evaluate depth).answering_same part scope
      rw [inductionHypothesis endless] at same
      have decided := (asks_iff_decides.mp asked).none
      rwa [same] at decided

end Visits

end Evaluation

/-- A depth that suffices can be exceeded: an evaluation that ends is the same at every
greater depth. -/
theorem evaluate_of_le {depth more : Nat} (le : depth ≤ more) {expression : Expression}
    {environment : Environment} {evaluation : Evaluation}
    (ended : evaluate depth expression environment = some evaluation) :
    evaluate more expression environment = some evaluation := by
  induction depth generalizing more expression environment evaluation with
  | zero => cases ended
  | succ depth inductionHypothesis =>
      obtain ⟨more, rfl⟩ := Nat.exists_eq_succ_of_ne_zero (Nat.ne_zero_of_lt le)
      rcases Evaluation.step_sequential (evaluate depth) (evaluate more) expression environment with
        same | ⟨part, scope, differs, decided⟩
      · exact same.trans ended
      -- Where the depths differ, the smaller one gives up, and that would decide the end.
      · cases partly : evaluate depth part scope with
        | some answer =>
            exact absurd (inductionHypothesis (Nat.le_of_succ_le_succ le) partly)
              (partly ▸ differs)
        | none =>
            have same := (evaluate depth).answering_same part scope
            rw [partly] at same
            have stuck := decided.none
            rw [same] at stuck
            exact absurd (stuck.symm.trans ended) nofun

/-- Whatever the depth, an evaluation that ends does so in one way only. -/
theorem evaluate_unique {depth other : Nat} {expression : Expression} {environment : Environment}
    {evaluation again : Evaluation}
    (ended : evaluate depth expression environment = some evaluation)
    (endedAgain : evaluate other expression environment = some again) : evaluation = again := by
  have first := evaluate_of_le (Nat.le_max_left depth other) ended
  have second := evaluate_of_le (Nat.le_max_right depth other) endedAgain
  exact Option.some.inj (first.symm.trans second)

end PlotLisp
