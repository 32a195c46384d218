import PlotLisp.Proofs.Evaluation.Mapping
import PlotLisp.Proofs.Evaluation.Unmentioned
import PlotLisp.Proofs.Renaming
import PlotLisp.Proofs.Session.Application

/-!
# Mapping twice and mapping once

Mapping distributes over joined lists. And instead of mapping one procedure over what another
one was mapped to, their composition may be mapped. The calls in its body are made in a scope
with two more names bound, its own and that of its parameter, but nothing mentions these.
-/

namespace PlotLisp

open Expression

variable {environment other : Environment} {name key : String} {callable : Callable}

/-! ## Joined lists -/

/-- Two expressions are evaluated and joined. -/
def joining (front back : Expression) : Expression :=
  calling Builtin.join.name [front, back]

/-- A row of two expressions is one after the other, and the first fault of either is final. -/
theorem evaluateAll_pair {β : Type} {evaluate : Evaluator} {first second : Expression}
    (next : List Expression → Environment → Ending β) :
    (evaluateAll evaluate [first, second] environment).andThen next =
      (evaluate.ending first environment).andThen fun front middle =>
        (evaluate.ending second middle).andThen fun back after => next [front, back] after := by
  unfold evaluateAll
  rcases evaluate.ending first environment with _ | ⟨fault | front, middle⟩
  · rfl
  · rfl
  · simp only [Ending.ok_andThen, evaluateAll]
    rcases evaluate.ending second middle with _ | ⟨fault | back, after⟩ <;> rfl

/-- What joining ends in, one depth above its two parts. -/
theorem ending_joining (builtin : environment.find? Builtin.join.name = some (.procedure .join))
    (first second : Expression) (depth : Nat) :
    (evaluate (depth + 1)).ending (joining first second) environment =
      ((evaluate depth).ending first environment).andThen fun front middle =>
        ((evaluate depth).ending second middle).andThen fun back after =>
          (Builtin.join.call [front, back]).within after := by
  rw [joining, ending_calling rfl (.builtin builtin) (by simp), evaluateAll_pair]
  rfl

/-- Joining two lists gives the list of both their elements; other values do not come here. -/
theorem Builtin.call_join {left right : Expression} (leftIsList : left.isList = true)
    (rightIsList : right.isList = true) :
    Builtin.join.call [left, right] = pure (.list (left.children ++ right.children)) := by
  show Attempt.ofExcept (Sequence.join [left, right]) = _
  simp only [Sequence.join, Arithmetic.pair, bind, Except.bind, toElements_of_isList leftIsList,
    toElements_of_isList rightIsList]
  rfl

/-- Mapping over joined lists takes one level less than joining what was mapped. -/
theorem ending_mappingOver_joining {front back : String} {left right : Expression}
    (guarded : environment.Guarded) (denotes : environment.Denotes name callable)
    (accepts : callable.accepts 1 = true) (leftBound : environment.DenotesList front left)
    (rightBound : environment.DenotesList back right) (depth : Nat) :
    (evaluate (depth + 3)).ending (mappingOver name (joining (.symbol front) (.symbol back)))
        environment =
      (evaluate (depth + 4)).ending
        (joining (mappingOver name (.symbol front)) (mappingOver name (.symbol back)))
        environment := by
  have builtin := guarded.builtins .join
  have frontNotList := guarded.ne_listName leftBound.found
  have backNotList := guarded.ne_listName rightBound.found
  rw [ending_mappingOver denotes accepts, ending_joining builtin,
    ending_symbol frontNotList leftBound.found, Ending.ok_andThen,
    ending_symbol backNotList rightBound.found, Ending.ok_andThen,
    Builtin.call_join leftBound.isList rightBound.isList, ending_joining builtin,
    ending_mappingOver_symbol frontNotList denotes accepts leftBound]
  show callable.mapped (evaluate (depth + 2)) (left.children ++ right.children) environment = _
  rw [Callable.mapped_append]
  rcases ended : callable.mapped (evaluate (depth + 2)) left.children environment with
    _ | ⟨fault | first, middle⟩
  · rfl
  · rfl
  · obtain ⟨-, -, rfl, -⟩ := Callable.mapped_eq_ok_iff.mp ended
    rw [Ending.ok_andThen, Ending.ok_andThen,
      ending_mappingOver_symbol backNotList denotes accepts rightBound]

/-! ## Names that nothing mentions -/

/-- A name that is bound nowhere in an environment and that occurs in none of its values. -/
structure Environment.Unused (environment : Environment) (name : String) : Prop where
  free : environment.find? name = none
  unmentioned : environment.Holds (Avoids name)

namespace Environment.Unused

variable {value : Expression} {binding : Binding}

/-- An unused name is not among those that are bound. -/
theorem ne_of_find? (unused : environment.Unused name)
    (found : environment.find? key = some binding) : key ≠ name := by
  rintro rfl
  rw [unused.free] at found
  cases found

/-- An unused name is not that of a callable. -/
theorem ne_of_denotes (unused : environment.Unused name)
    (denotes : environment.Denotes key callable) : key ≠ name := by
  cases denotes with
  | builtin found | lambda found => exact unused.ne_of_find? found

/-- A name stays unused while others are bound to values without it. -/
theorem bindName (unused : environment.Unused name) (different : name ≠ key)
    (avoids : value.Avoids name) : (environment.bindName key value).Unused name where
  free := by rw [find?_bindName_of_ne different, unused.free]
  unmentioned := unused.unmentioned.bindName avoids

/-- Binding an unused name extends the environment by it and by nothing else. -/
theorem extendedWith (unused : environment.Unused name) (value : Expression) :
    environment.ExtendedWith name value (environment.bindName name value) :=
  ⟨unused.free, fun _ => rfl⟩

/-- A call comes to the same after the name was bound, whatever to, and what it results in does
not mention the name either. -/
theorem call_eq {arguments : List Expression} (unused : environment.Unused name)
    (notList : name ≠ listName) (extended : environment.ExtendedWith name value other)
    (denotes : environment.Denotes key callable)
    (avoid : ∀ argument ∈ arguments, argument.Avoids name) (depth : Nat) :
    (callable.call (evaluate depth) arguments other).run =
        (callable.call (evaluate depth) arguments environment).run ∧
      ∀ result, (callable.call (evaluate depth) arguments environment).run = some (.ok result) →
        result.Avoids name := by
  have laws := @Correspondence.unmentioned_laws name value notList
  have corresponds : Callable.Corresponds (.unmentioned name value) callable callable := by
    cases denotes with
    | builtin => exact .builtin _
    | lambda found isLambda => exact .lambda ⟨unused.unmentioned _ _ found, rfl⟩ isLambda
  have matching := Callable.call_matches laws (Correspondence.evaluate_matches laws depth)
    corresponds ⟨extended, unused.unmentioned⟩ (forall₂_eq_iff.mpr ⟨avoid, rfl⟩)
  unfold Attempt.Matches at matching
  generalize (callable.call (evaluate depth) arguments environment).run = outcome at matching
  generalize (callable.call (evaluate depth) arguments other).run = outcome' at matching
  cases matching with
  | none => simp
  | some matching =>
      cases matching with
      | error same =>
          obtain rfl : _ = _ := same
          simp
      | ok values =>
          obtain ⟨avoids, rfl⟩ := values
          simp [avoids]

end Environment.Unused

/-! ## Compositions -/

/-- The second procedure is called with what the first one results in for the parameter. -/
def nested (parameter first second : String) : Expression :=
  calling second [calling first [.symbol parameter]]

/-- The form of a procedure value that is the composition of two procedures. -/
def composing (parameter first second : String) : Expression :=
  .form (.symbol Keyword.lambda.name) [.symbol parameter, nested parameter first second]

/-- The composition of two procedures. -/
def composition (parameter first second : String) : Expression :=
  .lambda (.list [.symbol parameter]) (nested parameter first second)

/-- The form of the composition has it for its value at once, since building it
evaluates nothing. -/
theorem ending_composing {parameter : String} (free : Builtin.isName parameter = false)
    (first second : String) (environment : Environment) (depth : Nat) :
    (evaluate (depth + 1)).ending (composing parameter first second) environment =
      some (.ok (composition parameter first second), environment) := by
  apply ending_of_endsLike (.inl (by simp))
  rw [Forms.named, Keyword.ofName?_name]
  have notList : parameter ≠ listName := by
    rintro rfl
    cases free
  have read : Forms.parameterNames (.symbol parameter) = .ok [parameter] := by
    rw [Forms.parameterNames, isList_symbol notList]
    rfl
  have unshadowed : [parameter].find? Builtin.isName = none := by simp [free]
  show Forms.lambda.EndsLike _ _
  apply @Turn.EndsLike.step _ _ _ _ _ _ () rfl
  apply Turn.EndsLike.step (Turn.runOn_child _ 0)
  rw [List.getElem?_cons_zero, Option.getD_some, read]
  apply Turn.EndsLike.step (Turn.runOn_ofExcept _ _)
  rw [unshadowed]
  apply Turn.EndsLike.step (Turn.runOn_child _ 1)
  exact Turn.EndsLike.pure _

section

variable {parameter first second : String} {inner outer : Callable} {argument : Expression}

/-- A call of the composition is both calls in a row, in a scope of their own. The first one is
an operand of the second one, so it is made one level deeper. -/
theorem callLambda_composition {scope : Environment}
    (firstCalls : Keyword.ofName? first = none) (secondCalls : Keyword.ofName? second = none)
    (innerDenoted : scope.Denotes first inner) (outerDenoted : scope.Denotes second outer)
    (notList : parameter ≠ listName) (bound : environment.bindName parameter argument = scope)
    (depth : Nat) :
    (callLambda (evaluate (depth + 3)) (composition parameter first second) [argument]
        environment).run =
      (do
        let middle ← inner.call (evaluate (depth + 1)) [argument] scope
        outer.call (evaluate (depth + 2)) [middle] scope).run := by
  have called : (callLambda (evaluate (depth + 3)) (composition parameter first second) [argument]
      environment).run =
      ((evaluate (depth + 3)).ending (nested parameter first second) scope).map Prod.fst := by
    subst bound
    rw [Evaluator.ending, Option.map_map]
    rfl
  have found : scope.find? parameter = some (.value argument) := by
    rw [← bound, Environment.find?_bindName_self]
  rw [called, nested, ending_calling secondCalls outerDenoted (by simp)]
  simp only [evaluateAll, ending_calling firstCalls innerDenoted (List.cons_ne_nil _ _),
    ending_symbol notList found, Ending.ok_andThen]
  unfold Attempt.within
  rw [Attempt.run_bind]
  rcases (inner.call (evaluate (depth + 1)) [argument] scope).run with _ | fault | middle
  · rfl
  · rfl
  · simp [Option.map_map, Function.comp_def]

end

/-- Two procedures of an environment, and two names that are unused there: one for the
composition of the procedures and one for its parameter. -/
structure Composable (environment : Environment) (composed parameter first second : String)
    (inner outer : Callable) : Prop where
  guarded : environment.Guarded
  unused : environment.Unused composed
  parameterUnused : environment.Unused parameter
  distinct : parameter ≠ composed
  inner : environment.Denotes first inner
  outer : environment.Denotes second outer
  firstCalls : Keyword.ofName? first = none
  secondCalls : Keyword.ofName? second = none

namespace Composable

variable {composed parameter first second : String} {inner outer : Callable}
  {argument value : Expression} {arguments elements : List Expression}
  (composable : Composable environment composed parameter first second inner outer)

include composable

/-- The procedures are still denoted where the name of their composition is bound. -/
theorem denotes_bindName (denotes : environment.Denotes key callable) (bound : Expression) :
    (environment.bindName composed bound).Denotes key callable :=
  denotes.bindName (composable.unused.ne_of_denotes denotes)

/-- The scope of the composition makes no difference to calls in it, and what they result in
mentions neither of the names. -/
theorem call_eq (denotes : environment.Denotes key callable)
    (avoids : argument.Avoids composed)
    (avoid : ∀ given ∈ arguments, given.Avoids composed ∧ given.Avoids parameter)
    (bound : Expression) (depth : Nat) :
    (callable.call (evaluate depth) arguments
        ((environment.bindName composed bound).bindName parameter argument)).run =
      (callable.call (evaluate depth) arguments (environment.bindName composed bound)).run ∧
      ∀ result, (callable.call (evaluate depth) arguments
          (environment.bindName composed bound)).run = some (.ok result) →
        result.Avoids composed ∧ result.Avoids parameter := by
  have builtin := composable.guarded.builtins .list
  have notList : composed ≠ listName := (composable.unused.ne_of_find? builtin).symm
  have parameterNotList : parameter ≠ listName :=
    (composable.parameterUnused.ne_of_find? builtin).symm
  -- The composition mentions its parameter, which is therefore no unused name where the
  -- composition is bound. So the name of the composition is the one that is added last.
  have unusedThere : (environment.bindName parameter argument).Unused composed :=
    composable.unused.bindName composable.distinct.symm avoids
  have extendedThere : (environment.bindName parameter argument).ExtendedWith composed bound
      ((environment.bindName composed bound).bindName parameter argument) :=
    ⟨unusedThere.free, Environment.find?_bindName_bindName composable.distinct argument⟩
  have denotesThere : (environment.bindName parameter argument).Denotes key callable :=
    denotes.bindName (composable.parameterUnused.ne_of_denotes denotes)
  obtain ⟨avoidComposed, avoidParameter⟩ := forall₂_and.mp avoid
  obtain ⟨here, avoidsComposed⟩ := composable.unused.call_eq notList
    (composable.unused.extendedWith bound) denotes avoidComposed depth
  obtain ⟨there, avoidsParameter⟩ := composable.parameterUnused.call_eq parameterNotList
    (composable.parameterUnused.extendedWith argument) denotes avoidParameter depth
  obtain ⟨inScope, -⟩ :=
    unusedThere.call_eq notList extendedThere denotesThere avoidComposed depth
  rw [inScope, there, here]
  exact ⟨rfl, fun result called => ⟨avoidsComposed result called, avoidsParameter result called⟩⟩

/-- In the environment that has the composition under its name, a call of it has a value if and
only if the calls of both procedures have, one after the other. -/
theorem callLambda_iff (avoids : argument.Avoids composed ∧ argument.Avoids parameter)
    (bound : Expression) (depth : Nat) :
    (callLambda (evaluate (depth + 3)) (composition parameter first second) [argument]
        (environment.bindName composed bound)).run = some (.ok value) ↔
      ∃ middle,
        (inner.call (evaluate (depth + 1)) [argument]
          (environment.bindName composed bound)).run = some (.ok middle) ∧
        (outer.call (evaluate (depth + 2)) [middle]
          (environment.bindName composed bound)).run = some (.ok value) := by
  have notList : parameter ≠ listName :=
    (composable.parameterUnused.ne_of_find? (composable.guarded.builtins .list)).symm
  have denotesThere : ∀ {key callable}, environment.Denotes key callable →
      ((environment.bindName composed bound).bindName parameter argument).Denotes key callable :=
    fun denotes => (composable.denotes_bindName denotes bound).bindName
      (composable.parameterUnused.ne_of_denotes denotes)
  rw [callLambda_composition composable.firstCalls composable.secondCalls
    (denotesThere composable.inner) (denotesThere composable.outer) notList rfl,
    Attempt.run_bind_eq_ok_iff]
  obtain ⟨innerSame, innerAvoids⟩ := composable.call_eq composable.inner avoids.1
    (List.forall_mem_singleton.mpr avoids) bound (depth + 1)
  rw [innerSame]
  refine exists_congr fun middle => and_congr_right fun called => ?_
  obtain ⟨outerSame, -⟩ := composable.call_eq composable.outer avoids.1
    (List.forall_mem_singleton.mpr (innerAvoids middle called)) bound (depth + 2)
  rw [outerSame]

/-- Calling the composition with each element has a list of values if and only if calling both
procedures, one list after the other, has the same. -/
theorem mapped_iff {after : Environment}
    (avoid : ∀ element ∈ elements, element.Avoids composed ∧ element.Avoids parameter)
    (bound : Expression) (depth : Nat) :
    (Callable.lambda (composition parameter first second)).mapped (evaluate (depth + 3)) elements
        (environment.bindName composed bound) = some (.ok value, after) ↔
      ((inner.mapped (evaluate (depth + 1)) elements
        (environment.bindName composed bound)).andThen fun list middle =>
          Ending.andThen (some (list.toElements Keyword.map.name, middle))
            (outer.mapped (evaluate (depth + 2)))) = some (.ok value, after) := by
  have staged : ∀ element ∈ elements, ∀ result,
      ((Callable.lambda (composition parameter first second)).call (evaluate (depth + 3))
          [element] (environment.bindName composed bound)).run = some (.ok result) ↔ _ :=
    fun element member result => composable.callLambda_iff (avoid element member) bound depth
  rw [Callable.mapped_eq_ok_iff, Ending.andThen_eq_ok_iff]
  simp only [Callable.mapped_eq_ok_iff, forall₂_comp_iff staged]
  constructor
  · rintro ⟨values, rfl, rfl, middles, inner, outer⟩
    refine ⟨.list middles, _, ⟨middles, rfl, rfl, inner⟩, ?_⟩
    exact Callable.mapped_eq_ok_iff.mpr ⟨values, rfl, rfl, outer⟩
  · rintro ⟨_, _, ⟨middles, rfl, rfl, inner⟩, ended⟩
    obtain ⟨values, rfl, rfl, outer⟩ := Callable.mapped_eq_ok_iff.mp ended
    exact ⟨values, rfl, rfl, middles, inner, outer⟩

/-- Mapping the composition over a list under a name takes one level more than mapping both
procedures. -/
theorem ending_mappingOver_iff {name : String} {list : Expression} {after : Environment}
    (named : environment.DenotesList name list) (innerAccepts : inner.accepts 1 = true)
    (outerAccepts : outer.accepts 1 = true) (depth : Nat) :
    (evaluate (depth + 4)).ending (mappingOver composed (.symbol name))
        (environment.bindName composed (composition parameter first second)) =
          some (.ok value, after) ↔
      (evaluate (depth + 3)).ending (mappingOver second (mappingOver first (.symbol name)))
        (environment.bindName composed (composition parameter first second)) =
          some (.ok value, after) := by
  have notList := composable.guarded.ne_listName named.found
  have avoid : ∀ element ∈ list.children, element.Avoids composed ∧ element.Avoids parameter :=
    fun element member => ⟨(composable.unused.unmentioned _ _ named.found).child member,
      (composable.parameterUnused.unmentioned _ _ named.found).child member⟩
  have namedThere : (environment.bindName composed
      (composition parameter first second)).DenotesList name list :=
    named.bindName (composable.unused.ne_of_find? named.found)
  have composedThere : (environment.bindName composed
      (composition parameter first second)).Denotes composed _ :=
    .lambda Environment.find?_bindName_self rfl
  rw [ending_mappingOver_symbol notList composedThere rfl namedThere,
    composable.mapped_iff avoid,
    ending_mappingOver (composable.denotes_bindName composable.outer _) outerAccepts,
    ending_mappingOver_symbol notList (composable.denotes_bindName composable.inner _)
      innerAccepts namedThere]

end Composable

/-- In every session, mapping over two joined lists ends like joining what was mapped over each of
them, in the same value with the same properties or with the same fault. And under two names that
nothing in the session mentions, one for the parameter and one for the composition of two
procedures, mapping the composition has a value if and only if mapping the second procedure over
what the first one was mapped to has the same value. -/
theorem map_joins_and_fuses {session : Session} (reached : session.Reached)
    {first second front back : String} {inner outer : Callable} {left right : Expression}
    (innerDenoted : session.environment.Denotes first inner) (innerAccepts : inner.accepts 1 = true)
    (outerDenoted : session.environment.Denotes second outer)
    (outerAccepts : outer.accepts 1 = true)
    (leftNamed : session.environment.DenotesList front left)
    (rightNamed : session.environment.DenotesList back right) :
    (∀ outcome after,
      (mappingOver first (joining (.symbol front) (.symbol back))).Ends session.environment
          outcome after ↔
        (joining (mappingOver first (.symbol front)) (mappingOver first (.symbol back))).Ends
          session.environment outcome after) ∧
      ∀ parameter composed, parameter ≠ composed → session.environment.Unused parameter →
        session.environment.Unused composed →
        (composing parameter first second).Ends session.environment
            (.ok (composition parameter first second)) session.environment ∧
          ∀ value after,
            (mappingOver composed (.symbol front)).Ends
                (session.environment.bindName composed (composition parameter first second))
                (.ok value) after ↔
              (mappingOver second (mappingOver first (.symbol front))).Ends
                (session.environment.bindName composed (composition parameter first second))
                (.ok value) after := by
  refine ⟨fun outcome after => ?joins, fun parameter composed distinct parameterUnused unused => ?_⟩
  case joins =>
    apply ends_iff_of_shift
    intro depth
    rw [ending_mappingOver_joining reached.guarded innerDenoted innerAccepts leftNamed rightNamed]
  have free : Builtin.isName parameter = false := by
    rw [← Bool.not_eq_true, Builtin.isName_iff]
    rintro ⟨builtin, rfl⟩
    exact parameterUnused.ne_of_find? (reached.guarded.builtins builtin) rfl
  have composable : Composable session.environment composed parameter first second inner outer :=
    { guarded := reached.guarded
      unused, parameterUnused, distinct
      inner := innerDenoted
      outer := outerDenoted
      firstCalls := reached.ofName?_eq_none innerDenoted
      secondCalls := reached.ofName?_eq_none outerDenoted }
  refine ⟨⟨1, ending_composing free first second _ 0⟩, fun value after => ?fuses⟩
  case fuses =>
    apply ends_iff_of_shift
    exact composable.ending_mappingOver_iff leftNamed innerAccepts outerAccepts

/-- A session after it has named a procedure value and a list. -/
def listing : Session where
  program := .form (.symbol "define")
    [.symbol "few", .form (.symbol "list") [.symbol "pi", .symbol "I"]]
  environment := naming.environment.bindName "few"
    (.list [.number Number.pi, .complex Complex.unit])

/-- The session is reached by reading and evaluating one more definition. -/
theorem listing_reached : listing.Reached := by
  have read : naming.read "(define few (list pi I))" = .ok ⟨listing.program, naming.environment⟩ :=
    rfl
  have evaluated : Session.evaluate 3 ⟨listing.program, naming.environment⟩ =
      some (.ok (.list [.number Number.pi, .complex Complex.unit]), listing) := rfl
  exact .evaluate (.read naming_reached read) evaluated

/-- The session mentions no names but those of lists, of procedure values and of a parameter. -/
theorem unused_listing {name : String} (free : listing.environment.find? name = none)
    (notList : name ≠ listName) (notLambda : name ≠ lambdaName) (different : "x" ≠ name) :
    listing.environment.Unused name where
  free := free
  unmentioned := by
    have holds : Environment.fresh.Holds (Avoids name) := .of_constants Avoids.constant
    refine (holds.bindName ?procedure).bindName ?elements
    case procedure =>
      exact @Avoids.lambda name ["x"] _ notList notLambda (by simpa using different)
        (.leaf (by simpa using different))
    case elements =>
      apply Avoids.list notList
      rw [List.forall_mem_cons, List.forall_mem_singleton]
      exact ⟨.constant rfl, .constant rfl⟩

/-- Mapping over the list joined to itself, and mapping a composition over it. -/
theorem map_joins_and_fuses_in_listing :
    (joining (mappingOver "same" (.symbol "few")) (mappingOver "same" (.symbol "few"))).Ends
        listing.environment
        (.ok (.list [.number Number.pi, .complex Complex.unit, .number Number.pi,
          .complex Complex.unit])) listing.environment ∧
      (mappingOver "both" (.symbol "few")).Ends
        (listing.environment.bindName "both" (composition "y" "same" "list"))
        (.ok (.list [.list [.number Number.pi], .list [.complex Complex.unit]]))
        (listing.environment.bindName "both" (composition "y" "same" "list")) := by
  have named : listing.environment.DenotesList "few" _ := ⟨rfl, rfl⟩
  have unused : listing.environment.Unused "y" :=
    unused_listing rfl (by decide) (by decide) (by decide)
  have unusedToo : listing.environment.Unused "both" :=
    unused_listing rfl (by decide) (by decide) (by decide)
  obtain ⟨joins, fuses⟩ := @map_joins_and_fuses listing listing_reached "same" "list" "few" "few"
    _ (.builtin .list) _ _ (.lambda rfl rfl) rfl (.builtin rfl) rfl named named
  obtain ⟨-, fused⟩ := fuses "y" "both" (by decide) unused unusedToo
  constructor
  · exact (joins _ _).mp ⟨5, rfl⟩
  · exact (fused _ _).mpr ⟨5, rfl⟩

end PlotLisp
