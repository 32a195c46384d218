import PlotLisp.Proofs.Correspondence.Binding
import PlotLisp.Proofs.Evaluation.Step

/-!
# Matching evaluations

One lemma for each form: with matching evaluators for its parts it matches itself. So one
step of evaluation takes matching evaluators to matching ones, and by induction on the
depth every evaluator matches itself under the laws of a correspondence.
-/

namespace PlotLisp

variable {correspondence : Correspondence} (laws : correspondence.Laws)

namespace Environment

variable {environment environment' : Environment} {name other : String}

include laws

/-- Looking up matching heads in matching environments finds matching values or the same kind of
fault: a name that is bound to a builtin procedure has no value on either side. -/
theorem lookUp_matches {head head' : Atom} (heads : correspondence.Heads head head')
    (environments : correspondence.Environments environment environment') :
    Matches correspondence.Faults correspondence.Values (Evaluation.lookUp head environment)
      (Evaluation.lookUp head' environment') := by
  cases heads with
  | constant constant =>
      cases head with
      | symbol => cases constant
      | absent => exact .error (laws.faults .absentTerminal)
      | number | complex | text => exact .ok (laws.data.constant rfl)
  | @symbol name other names =>
      have found := laws.found names environments
      unfold Evaluation.lookUp value?
      dsimp only
      generalize environment.find? name = binding at found
      generalize environment'.find? other = binding' at found
      cases found with
      | none => exact .error (laws.faults (.unknownSymbol names))
      | some bindings =>
          cases bindings with
          | procedure => exact .error (laws.faults (.unknownSymbol names))
          | value values => exact .ok values

end Environment

namespace Callable

/-- The same builtin procedure, or matching procedure values. -/
inductive Corresponds (correspondence : Correspondence) : Callable → Callable → Prop where
  | builtin (procedure : Builtin) :
      Corresponds correspondence (.builtin procedure) (.builtin procedure)
  | lambda {value other : Expression} (values : correspondence.Values value other)
      (isLambda : value.isLambda = true) :
      Corresponds correspondence (.lambda value) (.lambda other)

variable {callable callable' : Callable} {environment environment' : Environment}

include laws

/-- Matching names resolve to the same builtin procedure or to matching procedure values. -/
theorem resolve_matches (form : String) {node node' : Expression}
    (programs : correspondence.Programs node node')
    (environments : correspondence.Environments environment environment') :
    Matches correspondence.Faults (Corresponds correspondence) (resolve environment form node)
      (resolve environment' form node') := by
  have spelled := laws.bareSymbol? programs
  unfold resolve
  generalize node.bareSymbol? = name at spelled
  generalize node'.bareSymbol? = name' at spelled
  cases spelled with
  | none => exact .error (laws.blames rfl)
  | @some name other names =>
      have found := laws.found names environments
      dsimp only
      generalize environment.find? name = binding at found
      generalize environment'.find? other = binding' at found
      cases found with
      | none => exact .error (laws.faults (.notAProcedure names))
      | some bindings =>
          cases bindings with
          | procedure builtin => exact .ok (.builtin builtin)
          | @value value value' values =>
              dsimp only
              rw [← laws.data.isLambda values]
              split
              case isTrue isLambda => exact .ok (.lambda values isLambda)
              case isFalse => exact .error (laws.faults (.notAProcedure names))

/-- Matching callables take the same numbers of arguments. -/
theorem accepts_eq (callables : Corresponds correspondence callable callable') (count : Nat) :
    callable.accepts count = callable'.accepts count := by
  cases callables with
  | builtin => rfl
  | lambda values isLambda =>
      unfold accepts
      rw [laws.parameterCount values isLambda]

variable {evaluate other : Evaluator} (evaluators : correspondence.Evaluators evaluate other)
  (callables : Corresponds correspondence callable callable')
  (environments : correspondence.Environments environment environment')
  {arguments arguments' : List Expression}
  (related : List.Forall₂ correspondence.Values arguments arguments')

include evaluators callables environments related

/-- Calling matching callables with matching arguments ends alike: builtin procedures by the laws
of data, procedure values by the correspondence's own law of calls. -/
theorem call_matches :
    Attempt.Matches correspondence.Faults correspondence.Values
      (callable.call evaluate arguments environment)
      (callable'.call other arguments' environment') := by
  cases callables with
  | builtin procedure => exact Builtin.call_matches laws.data related fun _ => laws.blames
  | lambda values isLambda => exact laws.call evaluators values isLambda related environments

/-- Calling once for each of several matching elements matches, by induction on the elements; the
first fault ends both. -/
theorem callEach_matches :
    Attempt.Matches correspondence.Faults (List.Forall₂ correspondence.Values)
      (callable.callEach evaluate environment arguments)
      (callable'.callEach other environment' arguments') := by
  induction related with
  | nil => exact .pure .nil
  | cons values _ inductionHypothesis =>
      have called := call_matches laws evaluators callables environments (.cons values .nil)
      refine .bind called fun result result' results => ?_
      exact .bind inductionHypothesis fun _ _ others => .pure (.cons results others)

end Callable

namespace Forms

open Turn

/-- The check of how many children a form has sees only their number, and blames the form. -/
theorem checkChildren_matches (laws : correspondence.Laws) (keyword : Keyword) (count : Nat) :
    Turn.Matches correspondence (fun _ _ => True) (checkChildren keyword count)
      (checkChildren keyword count) := by
  refine .bind children_matches fun children children' related => ?_
  unfold checkCount
  rw [related.length_eq]
  exact .ofExcept (.imp (fun _ _ _ => trivial) (.check (laws.blames rfl)))

include laws

/-- Matching parameter forms list matching names, with the same exception for the
head of a list. -/
theorem parameterNames_matches {parameters other : Expression}
    (programs : correspondence.Programs parameters other) :
    Matches correspondence.Faults (List.Forall₂ correspondence.Names)
      (parameterNames parameters) (parameterNames other) := by
  have heads := laws.heads programs
  have children := laws.children programs
  have kinds := laws.isSymbol_listName heads
  unfold parameterNames Expression.isList
  rw [kinds]
  generalize parameters.head = head at heads
  generalize other.head = head' at heads
  cases heads with
  | constant constant =>
      rw [constant]
      exact .error (laws.blames rfl)
  | symbol names =>
      refine .bind (.mapM (fun parameter parameter' programs => ?spelled) children)
        fun rest rest' (related : List.Forall₂ correspondence.Names rest rest') => ?_
      case spelled =>
        have named := laws.bareSymbol? programs
        generalize parameter.bareSymbol? = name at named
        generalize parameter'.bareSymbol? = name' at named
        cases named with
        | none => exact .error (laws.blames rfl)
        | some names => exact .ok names
      split
      · exact .ok related
      · exact .ok (.cons names related)

/-- Building procedure values evaluates nothing. They match where what is built does. -/
theorem lambda_matches
    (builds : ∀ {names others : List String} {body other : Expression},
      List.Forall₂ correspondence.Names names others →
      (∀ name ∈ names, Builtin.isName name = false) → correspondence.Programs body other →
      correspondence.Values (.lambda (.list (names.map .symbol)) body)
        (.lambda (.list (others.map .symbol)) other)) :
    Turn.Matches correspondence correspondence.Values lambda lambda := by
  refine .bind (checkChildren_matches laws _ _) fun _ _ _ => ?_
  refine .bind (child_matches laws 0) fun parameters parameters' programs => ?_
  refine .bind (.ofExcept (parameterNames_matches laws programs)) fun names names' related => ?_
  have searched := forall₂_find? (fun _ _ names => laws.builtin names) related
  cases shadowed : names.find? Builtin.isName with
  | some name =>
      rw [shadowed] at searched
      generalize names'.find? Builtin.isName = shadowed' at searched
      cases searched with
      | some both => exact .throw (laws.faults (.builtinRedefinition both))
  | none =>
      rw [shadowed] at searched
      generalize names'.find? Builtin.isName = shadowed' at searched
      cases searched with
      | none =>
          refine .bind (child_matches laws 1) fun body body' bodies => ?_
          refine .pure (builds related (fun name member => ?_) bodies)
          simpa using List.find?_eq_none.mp shadowed name member

variable {evaluate other : Evaluator} (evaluators : correspondence.Evaluators evaluate other)

include evaluators

/-- A sequence gives the last of its matching values, and without any both sequences
are refused. -/
theorem sequence_matches :
    Turn.Matches correspondence correspondence.Values (sequence evaluate) (sequence other) := by
  refine .bind (evaluateChildren_matches laws evaluators) fun values values' related => ?_
  have last := forall₂_getElem? related (values.length - 1)
  rw [← List.getLast?_eq_getElem?, related.length_eq, ← List.getLast?_eq_getElem?] at last
  generalize values.getLast? = value at last
  generalize values'.getLast? = value' at last
  cases last with
  | none => exact .throw (laws.blames rfl)
  | some values => exact .pure values

/-- A definition checks and binds matching names, and the environments match again afterwards. -/
theorem define_matches :
    Turn.Matches correspondence correspondence.Values (define evaluate) (define other) := by
  refine .bind (checkChildren_matches laws _ _) fun _ _ _ => ?_
  refine .bind (child_matches laws 0) fun node node' programs => ?_
  have spelled := laws.bareSymbol? programs
  generalize node.bareSymbol? = name at spelled
  generalize node'.bareSymbol? = name' at spelled
  cases spelled with
  | none => exact .throw (laws.blames rfl)
  | some names =>
      refine .bind environment_matches fun environment environment' environments => ?_
      refine .bind (.ofExcept (laws.checkDefinable_matches names environments))
        fun _ _ _ => ?_
      refine .bind (evaluateChild_matches laws evaluators 1) fun value value' values => ?_
      refine .bind environment_matches fun environment environment' environments => ?_
      refine .bind (.ofExcept (laws.define names environments values))
        fun after after' afterMatches => ?_
      refine .bind (setEnvironment_matches afterMatches) fun _ _ _ => ?_
      exact .pure values

/-- Applying matches with both kinds of callables; a procedure value's arguments are evaluated once
more first. -/
theorem apply_matches :
    Turn.Matches correspondence correspondence.Values (apply evaluate) (apply other) := by
  refine .bind (checkChildren_matches laws _ _) fun _ _ _ => ?_
  refine .bind environment_matches fun environment environment' environments => ?_
  refine .bind (child_matches laws 0) fun node node' programs => ?_
  refine .bind (.ofExcept (Callable.resolve_matches laws _ programs environments))
    fun callable callable' callables => ?_
  refine .bind (evaluateChild_matches laws evaluators 1) fun list list' lists => ?_
  refine .bind (.ofExcept (laws.data.toElements (fun _ => laws.blames) lists))
    fun elements elements' related => ?_
  cases callables with
  | builtin procedure =>
      exact .ofAttempt (Builtin.call_matches laws.data related fun _ => laws.blames)
  | lambda values isLambda =>
      refine .bind (evaluateAllLoose_matches laws evaluators related)
        fun arguments arguments' argumentsRelated => ?_
      refine .bind environment_matches fun environment environment' environments => ?_
      exact .ofAttempt (laws.call evaluators values isLambda argumentsRelated environments)

/-- Mapping evaluates the list before it resolves the procedure, so both sides meet their first
fault at the same step. -/
theorem map_matches :
    Turn.Matches correspondence correspondence.Values (map evaluate) (map other) := by
  refine .bind (checkChildren_matches laws _ _) fun _ _ _ => ?_
  refine .bind (evaluateChild_matches laws evaluators 1) fun list list' lists => ?_
  refine .bind (.ofExcept (laws.data.toElements (fun _ => laws.blames) lists))
    fun elements elements' related => ?_
  refine .bind environment_matches fun environment environment' environments => ?_
  refine .bind (child_matches laws 0) fun node node' programs => ?_
  refine .bind (.ofExcept (Callable.resolve_matches laws _ programs environments))
    fun callable callable' callables => ?_
  rw [Callable.accepts_eq laws callables]
  refine .bind (.ofExcept (.check (laws.blames rfl))) fun _ _ _ => ?_
  refine .bind environment_matches fun environment environment' environments => ?_
  have called := Callable.callEach_matches laws evaluators callables environments related
  exact .bind (.ofAttempt called) fun _ _ results => .pure (laws.data.list results)

/-- Setting a property decorates matching children and gives matching values. -/
theorem setProperty_matches :
    Turn.Matches correspondence correspondence.Values (setProperty evaluate)
      (setProperty other) := by
  refine .bind (checkChildren_matches laws _ _) fun _ _ _ => ?_
  refine .bind (child_matches laws 0) fun node node' programs => ?_
  refine .bind (.ofExcept (laws.toContent _ programs)) fun tag _ same => ?_
  subst same
  refine .bind (evaluateChild_matches laws evaluators 1) fun property property' properties => ?_
  refine .bind (evaluateChild_matches laws evaluators 2) fun value value' values => ?_
  refine .bind (child_matches laws 2) fun target target' targets => ?_
  refine .bind (setChild_matches 2 (laws.decorate tag targets properties)) fun _ _ _ => ?_
  exact .pure (laws.data.withProperty tag values properties)

/-- Reading a property matches where the properties that are read do. -/
theorem getProperty_matches
    (reads : ∀ {value value' : Expression}, correspondence.Values value value' →
      ∀ tag, Option.Rel correspondence.Values (value.property? tag) (value'.property? tag)) :
    Turn.Matches correspondence correspondence.Values (getProperty evaluate)
      (getProperty other) := by
  refine .bind (checkChildren_matches laws _ _) fun _ _ _ => ?_
  refine .bind (child_matches laws 0) fun node node' programs => ?_
  refine .bind (.ofExcept (laws.toContent _ programs)) fun tag _ same => ?_
  subst same
  refine .bind (evaluateChild_matches laws evaluators 1) fun target target' targets => ?_
  have read := reads targets tag
  generalize target.property? tag = property at read
  generalize target'.property? tag = property' at read
  cases read with
  | none => exact .pure (laws.data.constant rfl)
  | some values => exact .pure values

/-- A stem plot depends on its data only through numbers and texts, which are equal on both sides,
and so is the drawing. -/
theorem discretePlot_matches :
    Turn.Matches correspondence correspondence.Values (discretePlot evaluate)
      (discretePlot other) := by
  have blames : ∀ fault : Fault, fault.blamed? = some DiscretePlot.form →
      correspondence.Faults fault fault := fun _ => laws.blames
  refine .bind (checkChildren_matches laws _ _) fun _ _ _ => ?_
  refine .bind (evaluateChild_matches laws evaluators 0) fun data data' datas => ?_
  refine .bind (evaluateChild_matches laws evaluators 1) fun options options' optionsMatch => ?_
  refine .bind (.ofExcept (laws.data.toElements blames datas)) fun points points' related => ?_
  refine .bind (.ofExcept (.mapM (fun _ _ => Position.ofExpression_matches laws.data blames)
    related)) fun positions positions' same => ?_
  rw [List.forall₂_eq_eq_eq] at same
  subst same
  refine .bind (.ofExcept (PlotOptions.ofExpression_matches laws.data blames optionsMatch))
    fun options _ same => ?_
  subst same
  refine .bind (.ofExcept (DiscretePlot.glyphs_matches options positions blames))
    fun glyphs _ same => ?_
  subst same
  exact .pure (Glyph.drawing_matches laws.data glyphs)

/-- The options read from matching children, or the default ones on both sides, are equal. -/
theorem optionsAt_matches (form : String) (index : Nat) :
    Turn.Matches correspondence Eq (optionsAt evaluate form index)
      (optionsAt other form index) := by
  refine .bind children_matches fun children children' related => ?_
  have found := forall₂_getElem? related index
  generalize children[index]? = child at found
  generalize children'[index]? = child' at found
  cases found with
  | none => exact .pure rfl
  | some =>
      refine .bind (evaluateChild_matches laws evaluators index) fun options options' same => ?_
      exact .ofExcept (PlotOptions.ofExpression_matches laws.data (fun _ => laws.blames) same)

/-- A matching callable sampled at a number gives the same number or matching faults. -/
theorem sample_matches {callable callable' : Callable} {environment environment' : Environment}
    (callables : callable.Corresponds correspondence callable')
    (environments : correspondence.Environments environment environment') (x : Float) :
    Attempt.Matches correspondence.Faults Eq (sample evaluate callable environment x)
      (sample other callable' environment' x) := by
  have called := Callable.call_matches laws evaluators callables environments
    (.cons (laws.data.number x) .nil)
  exact .bind called fun value value' values =>
    .ofExcept (laws.data.toNumber (fun _ => laws.blames) values)

/-- A line plot depends on its function only through the samples, so the drawings are equal. -/
theorem continuousPlot_matches :
    Turn.Matches correspondence correspondence.Values (continuousPlot evaluate)
      (continuousPlot other) := by
  have blames : ∀ fault : Fault, fault.blamed? = some ContinuousPlot.form →
      correspondence.Faults fault fault := fun _ => laws.blames
  refine .bind children_matches fun children children' related => ?_
  dsimp only
  rw [related.length_eq]
  refine .bind (.ofExcept (.check (blames _ rfl))) fun _ _ _ => ?_
  refine .bind environment_matches fun environment environment' environments => ?_
  refine .bind (child_matches laws 0) fun node node' programs => ?_
  refine .bind (.ofExcept (Callable.resolve_matches laws _ programs environments))
    fun callable callable' callables => ?_
  rw [Callable.accepts_eq laws callables]
  refine .bind (.ofExcept (.check (blames _ rfl))) fun _ _ _ => ?_
  refine .bind (evaluateChild_matches laws evaluators 1) fun bounds bounds' values => ?_
  refine .bind (.ofExcept (Position.ofExpression_matches laws.data blames values))
    fun range _ same => ?_
  subst same
  refine .bind (optionsAt_matches laws evaluators _ 2) fun options _ same => ?_
  subst same
  refine .bind environment_matches fun environment environment' environments => ?_
  have samples := sample_matches laws evaluators callables environments
  refine .bind (.ofAttempt (ContinuousPlot.glyphs_matches samples options range.x range.y blames))
    fun glyphs _ same => ?_
  subst same
  exact .pure (Glyph.drawing_matches laws.data glyphs)

/-- A call by name looks the name up before it evaluates arguments, and does so on both sides. -/
theorem application_matches {name name' : String} (names : correspondence.Names name name') :
    Turn.Matches correspondence correspondence.Values (application evaluate name)
      (application other name') := by
  refine .bind environment_matches fun environment environment' environments => ?_
  have found := laws.found names environments
  generalize environment.find? name = binding at found
  generalize environment'.find? name' = binding' at found
  cases found with
  | none => exact .throw (laws.faults (.notAProcedure names))
  | some bindings =>
      cases bindings with
      | procedure builtin =>
          refine .bind (evaluateChildren_matches laws evaluators)
            fun arguments arguments' related => ?_
          exact .ofAttempt (Builtin.call_matches laws.data related fun _ => laws.blames)
      | @value procedure procedure' values =>
          dsimp only
          rw [← laws.data.isLambda values]
          refine .bind (.ofExcept (.check (laws.faults (.notAProcedure names))))
            fun _ _ isLambda => ?_
          refine .bind (evaluateChildren_matches laws evaluators)
            fun arguments arguments' related => ?_
          refine .bind environment_matches fun environment environment' environments => ?_
          exact .ofAttempt (laws.call evaluators values isLambda related environments)

/-- Every form matches itself. -/
theorem ofKeyword_matches {program program' : Expression} {keyword : Keyword}
    (programs : correspondence.Programs program program')
    (named : program.head = .symbol keyword.name) :
    Turn.Matches correspondence correspondence.Values (ofKeyword evaluate keyword)
      (ofKeyword other keyword) := by
  cases keyword with
  | lambda => exact lambda_matches laws (laws.lambda programs named)
  | sequence => exact sequence_matches laws evaluators
  | define => exact define_matches laws evaluators
  | apply => exact apply_matches laws evaluators
  | map => exact map_matches laws evaluators
  | setProperty => exact setProperty_matches laws evaluators
  | getProperty => exact getProperty_matches laws evaluators (laws.property programs named)
  | discretePlot => exact discretePlot_matches laws evaluators
  | continuousPlot => exact continuousPlot_matches laws evaluators

/-- What is headed by matching names takes matching turns. -/
theorem named_matches {program program' : Expression} {name name' : String}
    (programs : correspondence.Programs program program') (headed : program.head = .symbol name)
    (names : correspondence.Names name name') :
    Turn.Matches correspondence correspondence.Values (named evaluate name)
      (named other name') := by
  unfold named
  rw [← laws.keyword names]
  cases found : Keyword.ofName? name with
  | none => exact application_matches laws evaluators names
  | some keyword =>
      obtain rfl := Keyword.name_of_ofName? found
      exact ofKeyword_matches laws evaluators programs headed

end Forms

namespace Correspondence

variable {evaluate other : Evaluator}

include laws

/-- One step of evaluation takes matching evaluators to matching ones. -/
theorem step_matches (evaluators : correspondence.Evaluators evaluate other) :
    correspondence.Evaluators (Evaluation.step evaluate) (Evaluation.step other) := by
  intro program program' environment environment' programs environments
  have heads := laws.heads programs
  have related := laws.children programs
  have leaves := laws.isLeaf programs
  have lists := laws.isSymbol_listName heads
  obtain ⟨head, children, properties⟩ := program
  obtain ⟨head', children', properties'⟩ := program'
  simp only [Expression.head] at heads lists
  simp only [Expression.isLeaf, Expression.children] at leaves
  simp only [Evaluation.step]
  rw [← leaves, ← lists]
  split
  · exact .some ⟨Environment.lookUp_matches laws heads environments, programs, environments⟩
  · cases heads with
    | constant constant =>
        rw [constant]
        exact .some ⟨.error (laws.faults (.constantHead constant)), programs, environments⟩
    | symbol names =>
        have turns := Forms.named_matches laws evaluators programs rfl names
          ⟨children, environment⟩ ⟨children', environment'⟩ ⟨environments, related⟩
        refine optionRel_map turns fun result result' both => ?_
        exact ⟨both.1, laws.rebuild programs both.2.children, both.2.environments⟩

/-- Matching programs in matching environments are evaluated to matching ends at every
depth. -/
theorem evaluate_matches (depth : Nat) :
    correspondence.Evaluators (PlotLisp.evaluate depth) (PlotLisp.evaluate depth) := by
  induction depth with
  | zero => exact fun _ _ => .none
  | succ depth inductionHypothesis => exact step_matches laws inductionHypothesis

end Correspondence

end PlotLisp
