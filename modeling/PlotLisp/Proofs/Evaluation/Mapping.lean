import PlotLisp.Proofs.Evaluation.Guarding
import PlotLisp.Proofs.Evaluation.Operands

/-!
# Mapping

`map` evaluates its list, finds what is called, and calls it once for each element, in the
environment that the list leaves behind. So mapping over two lists in a row is mapping over
the first one and then over the second one, and a mapping has a value if and only if every one
of its calls has.
-/

namespace PlotLisp

open Expression

/-- What a symbol names is mapped over a list. -/
def mappingOver (name : String) (list : Expression) : Expression :=
  .form (.symbol Keyword.map.name) [.symbol name, list]

/-- What is done in one stage with each element may be done in two, one after the other. -/
theorem forall₂_comp_iff {α β γ : Type} {First : α → β → Prop} {Second : β → γ → Prop}
    {Both : α → γ → Prop} {items : List α} {results : List γ}
    (staged : ∀ item ∈ items, ∀ result,
      Both item result ↔ ∃ middle, First item middle ∧ Second middle result) :
    List.Forall₂ Both items results ↔
      ∃ middles, List.Forall₂ First items middles ∧ List.Forall₂ Second middles results := by
  induction items generalizing results with
  | nil => simp
  | cons item rest inductionHypothesis =>
      obtain ⟨here, others⟩ := List.forall_mem_cons.mp staged
      simp only [List.forall₂_cons_left_iff, here, inductionHypothesis others]
      constructor
      · rintro ⟨result, more, ⟨middle, first, second⟩, ⟨middles, firsts, seconds⟩, rfl⟩
        exact ⟨middle :: middles, ⟨middle, middles, first, firsts, rfl⟩, .cons second seconds⟩
      · rintro ⟨_, ⟨middle, middles, first, firsts, rfl⟩, both⟩
        obtain ⟨result, more, second, seconds, rfl⟩ := List.forall₂_cons_left_iff.mp both
        exact ⟨result, more, ⟨middle, first, second⟩, ⟨middles, firsts, seconds⟩, rfl⟩

/-! ## One call for each element -/

namespace Callable

variable {callable : Callable} {evaluate : Evaluator} {environment after : Environment}
  {elements values : List Expression}

/-- The elements of two lists are called with in a row. -/
theorem callEach_append (front back : List Expression) :
    callable.callEach evaluate environment (front ++ back) = do
      let first ← callable.callEach evaluate environment front
      let rest ← callable.callEach evaluate environment back
      return first ++ rest := by
  induction front with
  | nil => simp [callEach]
  | cons element front inductionHypothesis => simp [callEach, inductionHypothesis]

/-- All calls together have values if and only if each of them has one. -/
theorem callEach_eq_ok_iff :
    (callable.callEach evaluate environment elements).run = some (.ok values) ↔
      List.Forall₂ (fun element value =>
        (callable.call evaluate [element] environment).run = some (.ok value)) elements values := by
  induction elements generalizing values with
  | nil => simp [callEach, eq_comm]
  | cons element rest inductionHypothesis =>
      rw [callEach, Attempt.run_bind_eq_ok_iff, List.forall₂_cons_left_iff]
      constructor
      · rintro ⟨value, called, others⟩
        obtain ⟨more, calledRest, same⟩ := Attempt.run_bind_eq_ok_iff.mp others
        cases same
        exact ⟨value, more, called, inductionHypothesis.mp calledRest, rfl⟩
      · rintro ⟨value, more, called, calledRest, rfl⟩
        refine ⟨value, called, Attempt.run_bind_eq_ok_iff.mpr ⟨more, ?_, rfl⟩⟩
        exact inductionHypothesis.mpr calledRest

/-- The list of the results of calling with each element. -/
def mapped (evaluate : Evaluator) (callable : Callable) (elements : List Expression)
    (environment : Environment) : Ending Expression :=
  ((callable.callEach evaluate environment elements).within environment).andThen fun values after =>
    some (.ok (.list values), after)

/-- The elements of two lists are mapped in a row, and the results joined. -/
theorem mapped_append (front back : List Expression) :
    callable.mapped evaluate (front ++ back) environment =
      (callable.mapped evaluate front environment).andThen fun first middle =>
        (callable.mapped evaluate back middle).andThen fun second after =>
          (Builtin.join.call [first, second]).within after := by
  unfold mapped Attempt.within
  rw [callEach_append, Attempt.run_bind]
  rcases (callable.callEach evaluate environment front).run with _ | fault | first
  · rfl
  · rfl
  · simp only [Option.map_some, Ending.ok_andThen, Attempt.run_bind]
    rcases (callable.callEach evaluate environment back).run with _ | fault | second <;> rfl

/-- The elements have a list of results if and only if each of them has one. -/
theorem mapped_eq_ok_iff {value : Expression} :
    callable.mapped evaluate elements environment = some (.ok value, after) ↔
      ∃ values, value = .list values ∧ after = environment ∧
        List.Forall₂ (fun element value =>
          (callable.call evaluate [element] environment).run = some (.ok value))
          elements values := by
  simp only [← callEach_eq_ok_iff]
  unfold mapped Attempt.within
  rcases (callable.callEach evaluate environment elements).run with _ | fault | values
  · simp [Ending.andThen]
  · simp
  · simp [eq_comm]

end Callable

namespace Turn.EndsLike

variable {α β : Type} {evaluate : Evaluator} {frame : TurnFrame}

/-- What does not touch the frame leaves the children as they are. -/
theorem ofExcept_bind {outcome : Except Fault α} {next : α → Turn β}
    {nextEnding : α → Environment → Ending β}
    (second : ∀ value, (next value).EndsLike frame (nextEnding value frame.environment)) :
    ((MonadExcept.ofExcept outcome : Turn α) >>= next).EndsLike frame
      (Ending.andThen (some (outcome, frame.environment)) nextEnding) := by
  cases outcome with
  | error fault => exact ⟨frame.children, rfl⟩
  | ok value => exact second value

/-- `map` finds what is called after its list was evaluated. -/
theorem map {environment : Environment} {name : String} {list : Expression} {callable : Callable}
    (denotes : ∀ value after, evaluate.ending list environment = some (.ok value, after) →
      after.Denotes name callable)
    (accepts : callable.accepts 1 = true) :
    (Forms.map evaluate).EndsLike ⟨[.symbol name, list], environment⟩
      ((evaluate.ending list environment).andThen fun value after =>
        Ending.andThen (some (value.toElements Keyword.map.name, after))
          (callable.mapped evaluate)) := by
  unfold Forms.map
  apply @step _ _ _ _ _ _ () rfl
  apply evaluateChild_bind
  intro value program after ended
  apply ofExcept_bind
  intro elements
  apply step (runOn_environment _)
  apply step (runOn_child _ 0)
  have found := (denotes value after ended).resolve Keyword.map.name
  dsimp only [List.set_cons_succ, List.set_cons_zero, List.getElem?_cons_zero, Option.getD_some]
  rw [found]
  apply step (runOn_ofExcept _ _)
  rw [accepts]
  apply step (runOn_ofExcept _ _)
  apply step (runOn_environment _)
  apply bind (ofAttempt _)
  intro values children final
  exact pure _

end Turn.EndsLike

/-! ## The form -/

variable {environment : Environment} {name key : String} {callable : Callable}
  {list value : Expression}

namespace Environment.Denotes

/-- Later definitions do not change what a bound name denotes. -/
theorem of_extendedBy {after : Environment} (denotes : environment.Denotes name callable)
    (extended : environment.ExtendedBy after) : after.Denotes name callable := by
  cases denotes with
  | builtin found => exact .builtin (extended.kept _ _ found)
  | lambda found isLambda => exact .lambda (extended.kept _ _ found) isLambda

/-- Binding another name does not change what a name denotes. -/
theorem bindName (denotes : environment.Denotes name callable) (different : name ≠ key) :
    (environment.bindName key value).Denotes name callable := by
  cases denotes with
  | builtin found => exact .builtin (by rw [find?_bindName_of_ne different, found])
  | lambda found isLambda =>
      exact .lambda (by rw [find?_bindName_of_ne different, found]) isLambda

end Environment.Denotes

/-- What is called is what the name denotes after the list was evaluated. -/
theorem ending_mappingOver_of_ends
    (denotes : ∀ value after, list.Ends environment (.ok value) after → after.Denotes name callable)
    (accepts : callable.accepts 1 = true) (depth : Nat) :
    (evaluate (depth + 1)).ending (mappingOver name list) environment =
      ((evaluate depth).ending list environment).andThen fun value after =>
        Ending.andThen (some (value.toElements Keyword.map.name, after))
          (callable.mapped (evaluate depth)) := by
  apply ending_of_endsLike (.inl (by simp))
  rw [Forms.named, Keyword.ofName?_name]
  exact Turn.EndsLike.map (fun value after ended => denotes value after ⟨depth, ended⟩) accepts

/-- Definitions that the list makes do not change what a bound name denotes. -/
theorem ending_mappingOver (denotes : environment.Denotes name callable)
    (accepts : callable.accepts 1 = true) (depth : Nat) :
    (evaluate (depth + 1)).ending (mappingOver name list) environment =
      ((evaluate depth).ending list environment).andThen fun value after =>
        Ending.andThen (some (value.toElements Keyword.map.name, after))
          (callable.mapped (evaluate depth)) := by
  refine ending_mappingOver_of_ends (fun value after ended => ?_) accepts depth
  obtain ⟨_, ended⟩ := ended
  obtain ⟨program, evaluated⟩ := Evaluator.ending_eq_some ended
  exact denotes.of_extendedBy (evaluate_extendedBy evaluated).1

/-! ## Lists under names -/

/-- What a name denotes is a list. -/
structure Environment.DenotesList (environment : Environment) (name : String)
    (list : Expression) : Prop where
  found : environment.find? name = some (.value list)
  isList : list.isList = true

/-- Binding another name does not change the list that a name denotes. -/
theorem Environment.DenotesList.bindName (named : environment.DenotesList name list)
    (different : name ≠ key) : (environment.bindName key value).DenotesList name list where
  found := by rw [find?_bindName_of_ne different, named.found]
  isList := named.isList

/-- What a guarded environment has under the name of lists is no value. -/
theorem Environment.Guarded.ne_listName (guarded : environment.Guarded)
    (found : environment.find? name = some (.value value)) : name ≠ listName := by
  rintro rfl
  have builtin : environment.find? listName = _ := guarded.builtins .list
  rw [builtin] at found
  cases found

/-- The elements of a list are its children, whichever procedure asks for them. -/
theorem Expression.toElements_of_isList (isList : list.isList = true) (procedure : String) :
    list.toElements procedure = .ok list.children := by
  rw [toElements, isList, if_pos rfl]

/-- A symbol is no list, unless it is the one that heads lists. -/
theorem Expression.isList_symbol (notList : name ≠ listName) :
    (Expression.symbol name).isList = false := by
  simpa [isList, symbol, leaf, form, head, Atom.isSymbol, Atom.symbol?] using notList

/-- Symbols other than that of lists are looked up. -/
theorem ending_symbol (notList : name ≠ listName)
    (found : environment.find? name = some (.value value)) (depth : Nat) :
    (evaluate (depth + 1)).ending (.symbol name) environment = some (.ok value, environment) := by
  have noList : (Atom.symbol name).isSymbol listName = false := isList_symbol notList
  simp [Evaluator.ending, evaluate, symbol, leaf, form, Evaluation.step, noList,
    Evaluation.lookUp, Environment.value?, found]

/-- Mapping over a list under a name is calling with its elements. -/
theorem ending_mappingOver_symbol (notList : name ≠ listName)
    (denotes : environment.Denotes key callable) (accepts : callable.accepts 1 = true)
    (named : environment.DenotesList name list) (depth : Nat) :
    (evaluate (depth + 2)).ending (mappingOver key (.symbol name)) environment =
      callable.mapped (evaluate (depth + 1)) list.children environment := by
  rw [ending_mappingOver denotes accepts, ending_symbol notList named.found, Ending.ok_andThen,
    toElements_of_isList named.isList, Ending.ok_andThen]

end PlotLisp
