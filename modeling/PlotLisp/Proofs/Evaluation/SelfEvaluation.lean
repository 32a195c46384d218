import PlotLisp.Proofs.Session.Reachable

/-!
# Values as programs

A value that is evaluated as a program stands for itself: evaluation returns it without
its properties and changes nothing. Only the bodies of procedure values keep what is
attached to them, because they are not evaluated.
-/

namespace PlotLisp

namespace Expression

mutual

/-- The expression without properties outside the bodies of its procedure values. -/
def undecorated : Expression → Expression
  | node head children _ =>
      form head (if head.isSymbol lambdaName then undecoratedFirst children
        else undecoratedAll children)

/-- Children without properties, bodies apart. -/
def undecoratedAll : List Expression → List Expression
  | [] => []
  | child :: rest => child.undecorated :: undecoratedAll rest

/-- Children of which only the first one, the parameter form, loses its properties. -/
def undecoratedFirst : List Expression → List Expression
  | [] => []
  | child :: rest => child.undecorated :: rest

end

/-- Undecorating the children one by one is what the mutual recursion does. -/
theorem undecoratedAll_eq_map (children : List Expression) :
    undecoratedAll children = children.map undecorated := by
  induction children with
  | nil => rfl
  | cons child rest inductionHypothesis => simp [undecoratedAll, inductionHypothesis]

/-- A terminal is left without its properties. -/
theorem undecorated_terminal {head : Atom} (constant : head.symbol? = none)
    (properties : Table Expression) : (node head [] properties).undecorated = leaf head := by
  cases head with
  | symbol => cases constant
  | absent | number | complex | text => rfl

/-- A list is left with its elements undecorated. -/
theorem undecorated_list (elements : List Expression) (properties : Table Expression) :
    (node (.symbol listName) elements properties).undecorated =
      .list (elements.map undecorated) :=
  congrArg (form (.symbol listName)) (undecoratedAll_eq_map elements)

/-- A procedure value keeps its body as it is; only the parameter form is undecorated. -/
theorem undecorated_lambda (parameters body : Expression) (properties : Table Expression) :
    (node (.symbol lambdaName) [parameters, body] properties).undecorated =
      .lambda parameters.undecorated body :=
  rfl

/-- A bare symbol is left as that symbol. -/
theorem undecorated_of_bareSymbol? {expression : Expression} {name : String}
    (bare : expression.bareSymbol? = some name) : expression.undecorated = symbol name := by
  obtain ⟨head, children, properties⟩ := expression
  unfold bareSymbol? at bare
  split at bare
  case isFalse => cases bare
  case isTrue leaf =>
    obtain rfl : children = [] := by simpa [isLeaf] using leaf
    cases head with
    | symbol other =>
        obtain rfl : other = name := by simpa [Atom.symbol?] using bare
        unfold undecorated
        split <;> rfl
    | absent | number | complex | text => cases bare

end Expression

open Expression

/-- Evaluating the expression ends, once enough depth is allowed, in the given value,
and changes neither the expression nor the environment. -/
def EvaluatesTo (environment : Environment) (expression value : Expression) : Prop :=
  ∃ bound, ∀ depth, bound ≤ depth →
    evaluate depth expression environment = some ⟨.ok value, expression, environment⟩

namespace Turn

variable {evaluate : Evaluator} {environment : Environment} {children : List Expression}
  {result : Expression → Expression}

/-- Children that evaluation does not change are evaluated one after the other. -/
theorem runOn_evaluateFrom_of_fixed
    (fixed : ∀ child ∈ children,
      evaluate child environment = some ⟨.ok (result child), child, environment⟩)
    (count index : Nat) (within : index + count = children.length) :
    (evaluateFrom evaluate index count).runOn ⟨children, environment⟩ =
      some (.ok ((children.drop index).map result), ⟨children, environment⟩) := by
  induction count generalizing index with
  | zero => simp [evaluateFrom, ← within]
  | succ count inductionHypothesis =>
      have bounded : index < children.length := by omega
      have first : (evaluateChild evaluate index).runOn ⟨children, environment⟩ =
          some (.ok (result children[index]), ⟨children, environment⟩) := by
        rw [evaluateChild, runOn_ofRun, List.getElem?_eq_getElem bounded, Option.getD_some,
          fixed _ (List.getElem_mem bounded)]
        simp
      have others := inductionHypothesis (index + 1) (by omega)
      rw [evaluateFrom, runOn_bind, first]
      simp only [runOn_bind, others, runOn_pure]
      rw [← List.map_cons, List.getElem_cons_drop]

/-- All children that evaluation does not change give their results, and the frame stays. -/
theorem runOn_evaluateChildren_of_fixed
    (fixed : ∀ child ∈ children,
      evaluate child environment = some ⟨.ok (result child), child, environment⟩) :
    (evaluateChildren evaluate).runOn ⟨children, environment⟩ =
      some (.ok (children.map result), ⟨children, environment⟩) := by
  have all := runOn_evaluateFrom_of_fixed fixed children.length 0 (Nat.zero_add _)
  rw [List.drop_zero] at all
  rw [evaluateChildren, runOn_bind, runOn_children]
  exact all

end Turn

namespace EvaluatesTo

variable {environment : Environment}

/-- A terminal that is no symbol and not absent stands for itself. -/
theorem terminal {head : Atom} {properties : Table Expression}
    (constant : head.symbol? = none) (present : head ≠ .absent) :
    EvaluatesTo environment (.node head [] properties) (leaf head) := by
  refine ⟨1, fun depth enough => ?_⟩
  obtain ⟨depth, rfl⟩ := Nat.exists_eq_add_of_le' enough
  cases head with
  | absent => exact absurd rfl present
  | symbol => cases constant
  | number | complex | text => rfl

/-- Finitely many expressions are evaluated within a common depth. -/
theorem uniform {result : Expression → Expression} {expressions : List Expression}
    (each : ∀ expression ∈ expressions,
      EvaluatesTo environment expression (result expression)) :
    ∃ bound, ∀ depth, bound ≤ depth → ∀ expression ∈ expressions,
      evaluate depth expression environment =
        some ⟨.ok (result expression), expression, environment⟩ := by
  induction expressions with
  | nil => exact ⟨0, by simp⟩
  | cons expression rest inductionHypothesis =>
      obtain ⟨first, others⟩ := List.forall_mem_cons.mp each
      obtain ⟨firstBound, firstEnds⟩ := first
      obtain ⟨restBound, restEnds⟩ := inductionHypothesis others
      refine ⟨max firstBound restBound, fun depth enough => ?_⟩
      refine List.forall_mem_cons.mpr ⟨firstEnds depth (by omega), ?_⟩
      exact restEnds depth (by omega)

/-- A list of expressions that stand for themselves does so where its head denotes the
builtin procedure. -/
theorem list {result : Expression → Expression} {elements : List Expression}
    {properties : Table Expression}
    (builtin : environment.find? listName = some (.procedure .list))
    (each : ∀ element ∈ elements, EvaluatesTo environment element (result element)) :
    EvaluatesTo environment (.node (.symbol listName) elements properties)
      (.list (elements.map result)) := by
  obtain ⟨bound, ends⟩ := uniform each
  refine ⟨bound + 1, fun depth enough => ?_⟩
  obtain ⟨depth, rfl⟩ := Nat.exists_eq_add_of_le' (Nat.le_trans (Nat.le_add_left 1 bound) enough)
  have applied : (Forms.application (evaluate depth) listName).runOn ⟨elements, environment⟩ =
      some (.ok (.list (elements.map result)), ⟨elements, environment⟩) := by
    simp only [Forms.application, Turn.runOn_bind, Turn.runOn_environment, builtin,
      Turn.runOn_evaluateChildren_of_fixed (ends depth (by omega))]
    rfl
  have called : (Forms.named (evaluate depth) listName).runOn ⟨elements, environment⟩ =
      some (.ok (.list (elements.map result)), ⟨elements, environment⟩) := applied
  rw [evaluate, Evaluation.step_named (.inr rfl), called]
  rfl

/-- Reading that succeeds on every parameter succeeds on all of them. -/
theorem mapM_eq_ok {read : Expression → Except Fault String} {nameOf : Expression → String}
    {parameters : List Expression}
    (each : ∀ parameter ∈ parameters, read parameter = .ok (nameOf parameter)) :
    parameters.mapM read = .ok (parameters.map nameOf) := by
  induction parameters with
  | nil => rfl
  | cons parameter rest inductionHypothesis =>
      obtain ⟨first, others⟩ := List.forall_mem_cons.mp each
      rw [List.mapM_cons, first, inductionHypothesis others]
      rfl

/-- The names in a parameter form of bare symbols are read off, and none of them is
refused. -/
theorem exists_names {parameters : List Expression}
    (spelled : ∀ parameter ∈ parameters,
      ∃ name, parameter.bareSymbol? = some name ∧ Builtin.isName name = false)
    (attached : Table Expression) :
    ∃ names, Forms.parameterNames (.node (.symbol listName) parameters attached) = .ok names ∧
      names.map symbol = parameters.map undecorated ∧ names.find? Builtin.isName = none := by
  have named : ∀ parameter ∈ parameters,
      parameter.bareSymbol? = some (parameter.bareSymbol?.getD "") ∧
        Builtin.isName (parameter.bareSymbol?.getD "") = false := by
    intro parameter member
    obtain ⟨name, bare, free⟩ := spelled parameter member
    rw [bare]
    exact ⟨rfl, free⟩
  refine ⟨parameters.map fun parameter => parameter.bareSymbol?.getD "", ?read, ?symbols, ?free⟩
  case read =>
    refine bind_eq_ok_iff.mpr ⟨_, mapM_eq_ok fun parameter member => ?_, rfl⟩
    rw [(named parameter member).1]
    rfl
  case symbols =>
    rw [List.map_map]
    refine List.map_congr_left fun parameter member => ?_
    exact (undecorated_of_bareSymbol? (named parameter member).1).symm
  case free =>
    refine List.find?_eq_none.mpr fun name member => ?_
    obtain ⟨parameter, listed, rfl⟩ := List.mem_map.mp member
    simp [(named parameter listed).2]

/-- A procedure value stands for itself, its body untouched. -/
theorem lambda {parameters : List Expression} {body : Expression}
    {attached properties : Table Expression}
    (spelled : ∀ parameter ∈ parameters,
      ∃ name, parameter.bareSymbol? = some name ∧ Builtin.isName name = false) :
    EvaluatesTo environment
      (.node (.symbol lambdaName) [.node (.symbol listName) parameters attached, body] properties)
      (.lambda (.list (parameters.map undecorated)) body) := by
  obtain ⟨names, read, symbols, unshadowed⟩ := exists_names spelled attached
  refine ⟨1, fun depth enough => ?_⟩
  obtain ⟨depth, rfl⟩ := Nat.exists_eq_add_of_le' enough
  have built : Forms.lambda.runOn
      ⟨[.node (.symbol listName) parameters attached, body], environment⟩ =
        some (.ok (.lambda (.list (parameters.map undecorated)) body),
          ⟨[.node (.symbol listName) parameters attached, body], environment⟩) := by
    simp [Forms.lambda, Forms.checkChildren, checkCount, Turn.runOn_bind, read, unshadowed, symbols]
    rfl
  have taken : (Forms.named (evaluate depth) lambdaName).runOn
      ⟨[.node (.symbol listName) parameters attached, body], environment⟩ =
        some (.ok (.lambda (.list (parameters.map undecorated)) body),
          ⟨[.node (.symbol listName) parameters attached, body], environment⟩) := built
  rw [evaluate, Evaluation.step_named (.inl (by simp)), taken]
  rfl

/-- Every value with nothing absent in it stands for itself. -/
theorem of_isValue {value : Expression} (isValue : IsValue value)
    (present : ∀ part, PartOf part value → part.head ≠ .absent)
    (builtin : environment.find? listName = some (.procedure .list)) :
    EvaluatesTo environment value value.undecorated := by
  induction isValue with
  | terminal constant =>
      rw [undecorated_terminal constant]
      exact terminal constant (present _ .whole)
  | list _ inductionHypothesis =>
      rw [undecorated_list]
      refine list builtin fun element member => ?_
      refine inductionHypothesis element member fun part within => ?_
      exact present part (.inside (by simpa using member) within)
  | lambda spelled =>
      rw [undecorated_lambda, undecorated_list]
      exact lambda spelled

end EvaluatesTo

/-! ## Values of a session -/

/-- A value, with nothing but values attached to it. -/
def Expression.IsValueThroughout (value : Expression) : Prop :=
  IsValue value ∧ ∀ property, AttachedTo property value → IsValue property

/-- Settled values are values with only values attached, at every level. -/
theorem Expression.Settled.isValueThroughout {value : Expression} (settled : Settled value) :
    value.IsValueThroughout :=
  ⟨settled.isValue, fun _ attached => (settled.of_attachedTo attached).isValue⟩

/-- In every session, the names are bound to values and programs result in values, and
what is attached to any of these is a value as well. Conversely, every value with
nothing absent in it evaluates to itself without its decorations, wherever the name of
lists denotes the builtin procedure. -/
theorem values_are_closed_and_stand_for_themselves :
    (∀ session : Session, session.Reached →
      (∀ name value, session.environment.value? name = some value →
        value.IsValueThroughout) ∧
      (∀ depth value after, session.evaluate depth = some (.ok value, after) →
        value.IsValueThroughout) ∧
      ∀ depth source value after, session.run depth source = some (.ok value, after) →
        value.IsValueThroughout) ∧
    ∀ (value : Expression) (environment : Environment), IsValue value →
      (∀ part, PartOf part value → part.head ≠ .absent) →
      environment.find? listName = some (.procedure .list) →
      EvaluatesTo environment value value.undecorated := by
  refine ⟨fun session reached => ?sessions, fun value environment => ?standing⟩
  case standing => exact EvaluatesTo.of_isValue
  case sessions =>
    have results : ∀ {session : Session} {depth value after}, session.Reached →
        session.evaluate depth = some (.ok value, after) → value.IsValueThroughout := by
      intro session depth value after reached ended
      obtain ⟨evaluation, evaluated, outcome, -⟩ := Session.evaluate_eq_some ended
      obtain ⟨-, values, -⟩ := evaluate_settles depth reached.holds_settled evaluated
      exact (values value outcome).isValueThroughout
    refine ⟨fun name value bound => ?_, fun depth value after => results reached, ?_⟩
    · exact (reached.holds_settled.value? bound).isValueThroughout
    · intro depth source value after ran
      obtain ⟨loaded, accepted, ended⟩ := Session.run_eq_ok ran
      exact results (.read reached accepted) ended

/-- A list of a text with a property and of a procedure value. -/
def decoratedList : Expression :=
  .list [(Expression.literal "a").withProperty "tag" (.literal "b"),
    .lambda (.list [.symbol "x"]) (.form (.symbol "list") [.symbol "x"])]

/-- The constant of every session is a value, and the decorated list evaluates to itself
without the property. -/
theorem decoratedList_stands_for_itself :
    (Expression.number Number.pi).IsValueThroughout ∧
      EvaluatesTo .fresh decoratedList (.list [.literal "a",
        .lambda (.list [.symbol "x"]) (.form (.symbol "list") [.symbol "x"])]) := by
  obtain ⟨sessions, standing⟩ := values_are_closed_and_stand_for_themselves
  refine ⟨(sessions .fresh .fresh).1 "pi" _ rfl, ?_⟩
  refine standing decoratedList .fresh ?isValue ?present rfl
  case isValue =>
    refine .list fun element member => ?_
    rcases List.mem_cons.mp member with rfl | member
    · exact .terminal rfl
    · obtain rfl := List.mem_singleton.mp member
      refine .lambda fun parameter member => ?_
      obtain rfl := List.mem_singleton.mp member
      exact ⟨"x", rfl, by decide⟩
  case present =>
    refine PartOf.forall_iff.mpr ⟨nofun, fun element member => ?_⟩
    rcases List.mem_cons.mp member with rfl | member
    · exact PartOf.forall_iff.mpr ⟨nofun, nofun⟩
    · obtain rfl := List.mem_singleton.mp member
      refine PartOf.forall_iff.mpr ⟨nofun, fun parameters member => ?_⟩
      obtain rfl := List.mem_singleton.mp member
      refine PartOf.forall_iff.mpr ⟨nofun, fun parameter member => ?_⟩
      obtain rfl := List.mem_singleton.mp member
      exact PartOf.forall_iff.mpr ⟨nofun, nofun⟩

end PlotLisp
