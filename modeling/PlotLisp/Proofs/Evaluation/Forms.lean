import PlotLisp.Proofs.Correspondence.Plots
import PlotLisp.Proofs.Evaluation.Regime

/-!
# What the forms keep

One lemma for each form: under the laws of a regime it keeps the regime and returns a
value of it. The proofs follow the forms step by step, and each step is one law.
-/

namespace PlotLisp

/-- A drawing belongs to every class of values, its properties included. -/
theorem Expression.ValueClass.drawing {Value : Expression → Prop}
    (values : Expression.ValueClass Value) (glyphs : List Glyph) : Value (Glyph.drawing glyphs) :=
  (Glyph.drawing_matches values.diagonal glyphs).1

namespace Keyword

/-- The form that is found under a name bears it. -/
theorem name_of_ofName? {name : String} {keyword : Keyword}
    (found : ofName? name = some keyword) : keyword.name = name := by
  have matching := List.find?_some found
  simpa using matching

/-- Distinct forms have distinct names. -/
theorem name_injective {left right : Keyword} (same : left.name = right.name) :
    left = right := by
  simpa using congrArg ofName? same

end Keyword

/-- A call of a procedure value that returns one has bound the parameters, and
evaluated the body in that scope. -/
theorem callLambda_eq_ok {evaluate : Evaluator} {lambda value : Expression}
    {arguments : List Expression} {environment : Environment}
    (called : (callLambda evaluate lambda arguments environment).run = some (.ok value)) :
    ∃ parameters body scope evaluation, lambda.children = [parameters, body] ∧
      environment.bindAll (parameters.children.zip arguments) = .ok scope ∧
      evaluate body scope = some evaluation ∧ evaluation.outcome = .ok value := by
  unfold callLambda at called
  split at called
  · next parameters body shape =>
      obtain ⟨-, -, remaining⟩ := Attempt.run_bind_eq_ok_iff.mp called
      obtain ⟨scope, bound, evaluated⟩ := Attempt.run_bind_eq_ok_iff.mp remaining
      obtain ⟨evaluation, ended, outcome⟩ := Option.map_eq_some_iff.mp evaluated
      exact ⟨parameters, body, scope, evaluation, shape, Option.some.inj bound, ended, outcome⟩
  · cases called

namespace Callable

variable {regime : Regime} {evaluate : Evaluator} {environment : Environment}

/-- What is called, if it is a procedure value, is a value of the regime. -/
def Fits (regime : Regime) : Callable → Prop
  | builtin _ => True
  | lambda value => regime.Value value

/-- A name resolves to a builtin procedure or to a value of the regime. -/
theorem resolve_fits (laws : regime.Laws evaluate) (allowed : regime.Allows environment)
    {form : String} {node : Expression} {callable : Callable}
    (resolved : resolve environment form node = .ok callable) : callable.Fits regime := by
  unfold resolve at resolved
  cases named : node.bareSymbol? with
  | none => rw [named] at resolved; cases resolved
  | some name =>
      simp only [named] at resolved
      split at resolved
      · cases resolved
        trivial
      · next value found =>
          split at resolved <;> cases resolved
          exact laws.bound allowed name value found
      · cases resolved

/-- A call with values of the regime returns a value of the regime. -/
theorem call_yields (values : Expression.ValueClass regime.Value) (laws : regime.Laws evaluate)
    (allowed : regime.Allows environment) {callable : Callable} (fits : callable.Fits regime)
    {arguments : List Expression} {value : Expression}
    (given : ∀ argument ∈ arguments, regime.Value argument)
    (called : (callable.call evaluate arguments environment).run = some (.ok value)) :
    regime.Value value := by
  cases callable with
  | builtin procedure => exact Builtin.call_mem_class values given called
  | lambda procedure => exact laws.call allowed fits given called

/-- Calls with values of the regime, one for each element, return values of it, by induction on
the elements. -/
theorem callEach_yields (values : Expression.ValueClass regime.Value)
    (laws : regime.Laws evaluate) (allowed : regime.Allows environment) {callable : Callable}
    (fits : callable.Fits regime) {arguments results : List Expression}
    (given : ∀ argument ∈ arguments, regime.Value argument)
    (called : (callable.callEach evaluate environment arguments).run = some (.ok results)) :
    ∀ result ∈ results, regime.Value result := by
  induction arguments generalizing results with
  | nil =>
      cases called
      simp
  | cons argument rest inductionHypothesis =>
      obtain ⟨first, others⟩ := List.forall_mem_cons.mp given
      obtain ⟨value, firstCalled, remaining⟩ := Attempt.run_bind_eq_ok_iff.mp called
      obtain ⟨restResults, restCalled, same⟩ := Attempt.run_bind_eq_ok_iff.mp remaining
      cases same
      refine List.forall_mem_cons.mpr ⟨?_, inductionHypothesis others restCalled⟩
      exact call_yields values laws allowed fits (by simpa using first) firstCalled

end Callable

namespace Forms

open Turn

variable {regime : Regime} {evaluate : Evaluator}

/-- Counting children touches nothing. -/
theorem keeps_checkChildren {keyword : Keyword} {count : Nat} :
    (checkChildren keyword count).Keeps regime fun _ => True :=
  keeps_bind keeps_children fun _ _ => keeps_check

/-- A sequence returns the last of several values of the regime. -/
theorem keeps_sequence (laws : regime.Laws evaluate) :
    (sequence evaluate).Keeps regime regime.Value := by
  refine keeps_bind (keeps_evaluateChildren laws) fun values holds => ?_
  cases last : values.getLast? with
  | none => exact keeps_throw
  | some value => exact keeps_pure (holds value (List.mem_of_getLast? last))

/-- A definition keeps the regime as long as binding the name that it spells is allowed; nothing
else binds a name. -/
theorem keeps_define (laws : regime.Laws evaluate) (definition : regime.AllowsDefinition) :
    (define evaluate).Keeps regime regime.Value := by
  refine keeps_bind keeps_checkChildren fun _ _ => ?_
  refine keeps_bind (keeps_child 0) fun node ⟨children, parts, first⟩ => ?_
  cases named : node.bareSymbol? with
  | none => exact keeps_throw
  | some name =>
      refine keeps_bind keeps_environment fun _ _ => ?_
      refine keeps_bind (keeps_ofExcept fun _ _ => trivial) fun _ (_ : True) => ?_
      refine keeps_bind (keeps_evaluateChild laws 1) fun value holds => ?_
      refine keeps_bind keeps_environment fun environment allowed => ?_
      have extended : ∀ after, environment.define name value = .ok after →
          regime.Allows after := by
        intro after defined
        exact definition parts (first ▸ named) allowed holds defined
      refine keeps_bind (keeps_ofExcept extended) fun after allowedAfter => ?_
      refine keeps_bind (keeps_setEnvironment allowedAfter) fun _ _ => ?_
      exact keeps_pure holds

/-- Building a procedure value evaluates nothing, so it keeps every regime that has
procedure values. -/
theorem keeps_lambda (values : Expression.ValueClass regime.Value) :
    lambda.Keeps regime regime.Value := by
  refine keeps_bind keeps_checkChildren fun _ _ => ?_
  refine keeps_bind (keeps_child 0) fun parameters _ => ?_
  refine keeps_bind (keeps_ofExcept fun _ _ => trivial) fun names (_ : True) => ?_
  cases shadowed : names.find? Builtin.isName with
  | some name => exact keeps_throw
  | none =>
      refine keeps_bind (keeps_child 1) fun body _ => ?_
      refine keeps_pure (values.lambda body fun name member => ?_)
      simpa using List.find?_eq_none.mp shadowed name member

/-- The elements of a list value are values. -/
theorem keeps_toElements (values : Expression.ValueClass regime.Value) {list : Expression}
    {form : String} (holds : regime.Value list) :
    (ofExcept (list.toElements form) : Turn (List Expression)).Keeps regime fun elements =>
      ∀ element ∈ elements, regime.Value element := by
  refine keeps_ofExcept fun elements read element member => ?_
  unfold Expression.toElements at read
  split at read <;> cases read
  next isList => exact values.element holds isList member

/-- Applying returns what a call returns, whether or not the procedure is builtin. -/
theorem keeps_apply (values : Expression.ValueClass regime.Value) (laws : regime.Laws evaluate) :
    (apply evaluate).Keeps regime regime.Value := by
  refine keeps_bind keeps_checkChildren fun _ _ => ?_
  refine keeps_bind keeps_environment fun environment allowed => ?_
  refine keeps_bind (keeps_child 0) fun node _ => ?_
  refine keeps_bind
    (keeps_ofExcept fun _ resolved => Callable.resolve_fits laws allowed resolved)
    fun callable fits => ?_
  refine keeps_bind (keeps_evaluateChild laws 1) fun list holds => ?_
  refine keeps_bind (keeps_toElements values holds) fun elements given => ?_
  cases callable with
  | builtin procedure =>
      exact keeps_ofAttempt fun _ called => Builtin.call_mem_class values given called
  | lambda procedure =>
      refine keeps_bind (keeps_evaluateAllLoose laws given) fun arguments argumentsHold => ?_
      refine keeps_bind keeps_environment fun environment allowed => ?_
      exact keeps_ofAttempt fun _ called => laws.call allowed fits argumentsHold called

/-- Mapping returns a list of what calls return. -/
theorem keeps_map (values : Expression.ValueClass regime.Value) (laws : regime.Laws evaluate) :
    (map evaluate).Keeps regime regime.Value := by
  refine keeps_bind keeps_checkChildren fun _ _ => ?_
  refine keeps_bind (keeps_evaluateChild laws 1) fun list holds => ?_
  refine keeps_bind (keeps_toElements values holds) fun elements given => ?_
  refine keeps_bind keeps_environment fun environment allowed => ?_
  refine keeps_bind (keeps_child 0) fun node _ => ?_
  refine keeps_bind
    (keeps_ofExcept fun _ resolved => Callable.resolve_fits laws allowed resolved)
    fun callable fits => ?_
  refine keeps_bind keeps_check fun _ _ => ?_
  refine keeps_bind keeps_environment fun environment allowed => ?_
  refine keeps_bind
    (keeps_ofAttempt fun _ called =>
      Callable.callEach_yields values laws allowed fits given called)
    fun results resultsHold => ?_
  exact keeps_pure (values.list resultsHold)

/-- Setting a property puts back a decorated child and returns a decorated value, both within
the regime. -/
theorem keeps_setProperty (values : Expression.ValueClass regime.Value)
    (laws : regime.Laws evaluate) : (setProperty evaluate).Keeps regime regime.Value := by
  refine keeps_bind keeps_checkChildren fun _ _ => ?_
  refine keeps_bind (keeps_child 0) fun _ _ => ?_
  refine keeps_bind (keeps_ofExcept fun _ _ => trivial) fun tag (_ : True) => ?_
  refine keeps_bind (keeps_evaluateChild laws 1) fun property propertyHolds => ?_
  refine keeps_bind (keeps_evaluateChild laws 2) fun value valueHolds => ?_
  refine keeps_bind (keeps_child 2) fun target ⟨former, read, same⟩ => ?_
  subst same
  have fits : ∀ children, regime.Parts children → regime.Parts (children.set 2
      (((former[2]?).getD Expression.absent).withProperty tag property)) :=
    fun children parts => laws.decorate parts read propertyHolds
  refine keeps_bind (keeps_setChild fits) fun _ _ => ?_
  exact keeps_pure (values.withProperty tag valueHolds propertyHolds)

/-- The property that is read was attached to a value, so it is one too, and so is the absent
expression. -/
theorem keeps_getProperty (values : Expression.ValueClass regime.Value)
    (laws : regime.Laws evaluate) : (getProperty evaluate).Keeps regime regime.Value := by
  refine keeps_bind keeps_checkChildren fun _ _ => ?_
  refine keeps_bind (keeps_child 0) fun _ _ => ?_
  refine keeps_bind (keeps_ofExcept fun _ _ => trivial) fun tag (_ : True) => ?_
  refine keeps_bind (keeps_evaluateChild laws 1) fun target holds => ?_
  refine keeps_pure ?_
  cases found : target.property? tag with
  | none => exact values.constant rfl
  | some property => exact values.property holds found

/-- A stem plot returns a drawing, whatever the data were. -/
theorem keeps_discretePlot (values : Expression.ValueClass regime.Value)
    (laws : regime.Laws evaluate) : (discretePlot evaluate).Keeps regime regime.Value := by
  refine keeps_bind keeps_checkChildren fun _ _ => ?_
  refine keeps_bind (keeps_evaluateChild laws 0) fun _ _ => ?_
  refine keeps_bind (keeps_evaluateChild laws 1) fun _ _ => ?_
  refine keeps_bind (keeps_ofExcept fun _ _ => trivial) fun _ (_ : True) => ?_
  refine keeps_bind (keeps_ofExcept fun _ _ => trivial) fun _ (_ : True) => ?_
  refine keeps_bind (keeps_ofExcept fun _ _ => trivial) fun _ (_ : True) => ?_
  refine keeps_bind (keeps_ofExcept fun _ _ => trivial) fun glyphs (_ : True) => ?_
  exact keeps_pure (values.drawing glyphs)

/-- Reading options evaluates a child at most, and nothing is asked of the options. -/
theorem keeps_optionsAt (laws : regime.Laws evaluate) {form : String} {index : Nat} :
    (optionsAt evaluate form index).Keeps regime fun _ => True := by
  refine keeps_bind keeps_children fun children _ => ?_
  cases children[index]? with
  | none => exact keeps_pure trivial
  | some child =>
      refine keeps_bind (keeps_evaluateChild laws index) fun _ _ => ?_
      exact keeps_ofExcept fun _ _ => trivial

/-- A line plot returns a drawing, whatever the samples were. -/
theorem keeps_continuousPlot (values : Expression.ValueClass regime.Value)
    (laws : regime.Laws evaluate) : (continuousPlot evaluate).Keeps regime regime.Value := by
  refine keeps_bind keeps_children fun children _ => ?_
  refine keeps_bind keeps_check fun _ _ => ?_
  refine keeps_bind keeps_environment fun _ _ => ?_
  refine keeps_bind (keeps_child 0) fun _ _ => ?_
  refine keeps_bind (keeps_ofExcept fun _ _ => trivial) fun _ (_ : True) => ?_
  refine keeps_bind keeps_check fun _ _ => ?_
  refine keeps_bind (keeps_evaluateChild laws 1) fun _ _ => ?_
  refine keeps_bind (keeps_ofExcept fun _ _ => trivial) fun _ (_ : True) => ?_
  refine keeps_bind (keeps_optionsAt laws) fun _ _ => ?_
  refine keeps_bind keeps_environment fun _ _ => ?_
  -- Whatever the samples are, the drawing is a value: nothing is asked of the calls.
  refine keeps_bind (keeps_ofAttempt fun _ _ => trivial) fun glyphs (_ : True) => ?_
  exact keeps_pure (values.drawing glyphs)

/-- Every form keeps a regime whose laws hold, and returns a value of it. Building a
procedure value needs none of the laws. -/
theorem keeps_ofKeyword (values : Expression.ValueClass regime.Value) {keyword : Keyword}
    (laws : keyword ≠ .lambda → regime.Laws evaluate)
    (definition : keyword = .define → regime.AllowsDefinition) :
    (ofKeyword evaluate keyword).Keeps regime regime.Value := by
  cases keyword with
  | lambda => exact keeps_lambda values
  | sequence => exact keeps_sequence (laws (by decide))
  | define => exact keeps_define (laws (by decide)) (definition rfl)
  | apply => exact keeps_apply values (laws (by decide))
  | map => exact keeps_map values (laws (by decide))
  | setProperty => exact keeps_setProperty values (laws (by decide))
  | getProperty => exact keeps_getProperty values (laws (by decide))
  | discretePlot => exact keeps_discretePlot values (laws (by decide))
  | continuousPlot => exact keeps_continuousPlot values (laws (by decide))

/-- A call by name returns a value of the regime, and a fault keeps the regime as well. -/
theorem keeps_application (values : Expression.ValueClass regime.Value)
    (laws : regime.Laws evaluate) {name : String} :
    (application evaluate name).Keeps regime regime.Value := by
  refine keeps_bind keeps_environment fun environment allowed => ?_
  split
  · refine keeps_bind (keeps_evaluateChildren laws) fun arguments given => ?_
    exact keeps_ofAttempt fun _ called => Builtin.call_mem_class values given called
  · next procedure found =>
      have holds : regime.Value procedure := laws.bound allowed name procedure found
      refine keeps_bind keeps_check fun _ _ => ?_
      refine keeps_bind (keeps_evaluateChildren laws) fun arguments given => ?_
      refine keeps_bind keeps_environment fun environment allowed => ?_
      exact keeps_ofAttempt fun _ called => laws.call allowed holds given called
  · exact keeps_throw

/-- The turn that a form or a call headed by the given symbol takes. -/
def named (evaluate : Evaluator) (name : String) : Turn Expression :=
  match Keyword.ofName? name with
  | some keyword => ofKeyword evaluate keyword
  | none => application evaluate name

/-- What a form or a call headed by a symbol keeps. -/
theorem keeps_named (values : Expression.ValueClass regime.Value) {name : String}
    (laws : name ≠ Keyword.lambda.name → regime.Laws evaluate)
    (definition : name = Keyword.define.name → regime.AllowsDefinition) :
    (named evaluate name).Keeps regime regime.Value := by
  unfold named
  cases found : Keyword.ofName? name with
  | none =>
      refine keeps_application values (laws ?_)
      rintro rfl
      rw [Keyword.ofName?_name] at found
      cases found
  | some keyword =>
      obtain rfl := Keyword.name_of_ofName? found
      refine keeps_ofKeyword values (fun other => laws fun same => other ?_)
        (fun same => definition (same ▸ rfl))
      exact Keyword.name_injective same

end Forms

end PlotLisp
