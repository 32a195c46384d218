import PlotLisp.Proofs.Correspondence.Forms
import PlotLisp.Proofs.Evaluation.Visit

/-!
# Guarded environments

An environment is guarded when every builtin procedure is found under its name and all
values are settled. A definition cannot take a name that is bound. Parameters can, as they
are bound unchecked, but no settled procedure value has a parameter named like a builtin
procedure. So evaluation in a guarded environment never leaves the guarded ones, in no
scope that it visits.
-/

namespace PlotLisp

open Expression

/-- The children of a procedure value that can be called: a list of bare symbols, none of
them named like a builtin procedure, and a body. -/
def Expression.NamesParameters (value : Expression) : Prop :=
  ∃ (names : List String) (body : Expression),
    value.children = [.list (names.map symbol), body] ∧
      ∀ name ∈ names, Builtin.isName name = false

/-- A settled procedure value names its parameters. -/
theorem Expression.Settled.namesParameters {value : Expression} (settled : Settled value)
    (isLambda : value.isLambda = true) : value.NamesParameters := by
  cases settled with
  | terminal => simp [Expression.isLambda, children] at isLambda
  | list => cases isLambda
  | @lambda names body _ free => exact ⟨names, body, rfl, free⟩

namespace Environment

/-- Every builtin procedure is bound to its name, and every procedure value that a name
denotes can be called without touching those names. -/
structure Protected (environment : Environment) : Prop where
  builtins (builtin : Builtin) : environment.find? builtin.name = some (.procedure builtin)
  procedures {name : String} {value : Expression}
    (bound : environment.find? name = some (.value value)) (isLambda : value.isLambda = true) :
    value.NamesParameters

/-- The invariant behind `Protected`: procedure values also travel inside of other values
before they are bound to a name. -/
structure Guarded (environment : Environment) : Prop where
  builtins (builtin : Builtin) : environment.find? builtin.name = some (.procedure builtin)
  settled : environment.Holds Settled

namespace Guarded

variable {environment after : Environment}

/-- Guarded environments are protected, since settled procedure values name their parameters. -/
theorem toProtected (guarded : environment.Guarded) : environment.Protected where
  builtins := guarded.builtins
  procedures bound isLambda := (guarded.settled _ _ bound).namesParameters isLambda

/-- The environment of a fresh session is guarded. -/
theorem fresh : Environment.fresh.Guarded where
  builtins builtin := by cases builtin <;> rfl
  settled := Holds.fresh Settled.valueClass

/-- Binding a settled value keeps an environment guarded, as long as the name is not that of a
builtin procedure. -/
theorem bindName (guarded : environment.Guarded) {name : String} {value : Expression}
    (free : Builtin.isName name = false) (settled : Settled value) :
    (environment.bindName name value).Guarded where
  builtins builtin := by
    have different : builtin.name ≠ name := by
      rintro rfl
      simp [Builtin.isName] at free
    rw [find?_bindName_of_ne different, guarded.builtins builtin]
  settled := guarded.settled.bindName settled

/-- A definition keeps an environment guarded: it cannot take a name that is bound, so not that of
a builtin procedure. -/
theorem define (guarded : environment.Guarded) {name : String} {value : Expression}
    (settled : Settled value) (defined : environment.define name value = .ok after) :
    after.Guarded where
  builtins builtin := (ExtendedBy.of_define defined).kept _ _ (guarded.builtins builtin)
  settled := guarded.settled.define settled defined

/-- Parameters that are not named like builtin procedures are bound without a fault. -/
theorem bindAll (guarded : environment.Guarded) {names : List String}
    {arguments : List Expression} (free : ∀ name ∈ names, Builtin.isName name = false)
    (settled : ∀ argument ∈ arguments, Settled argument) :
    ∃ scope, environment.bindAll ((names.map symbol).zip arguments) = .ok scope ∧
      scope.Guarded := by
  induction names generalizing environment arguments with
  | nil => exact ⟨environment, rfl, guarded⟩
  | cons name names inductionHypothesis =>
      cases arguments with
      | nil => exact ⟨environment, rfl, guarded⟩
      | cons argument arguments =>
          obtain ⟨first, others⟩ := List.forall_mem_cons.mp free
          obtain ⟨given, rest⟩ := List.forall_mem_cons.mp settled
          exact inductionHypothesis (guarded.bindName first given) others rest

end Guarded

end Environment

/-- A definition that is refused is refused because of its name. -/
theorem Environment.alike_of_define {environment : Environment} {name : String}
    {value : Expression} {fault : Fault}
    (refused : environment.define name value = .error fault) : fault.Alike Eq fault := by
  unfold define checkDefinable at refused
  split at refused
  · cases refused
    exact .keywordRedefinition rfl
  · split at refused <;> cases refused
    · exact .builtinRedefinition rfl
    · exact .symbolRedefinition rfl

/-! ## Two evaluators that agree in guarded environments -/

/-- Everything matches only itself, and only if it is settled or guarded. -/
def Correspondence.guarded : Correspondence where
  Names := Eq
  Programs := Eq
  Values value other := Settled value ∧ value = other
  Environments environment other := environment.Guarded ∧ environment = other
  Faults := Fault.Alike Eq

namespace Correspondence

/-- A call of a settled procedure value enters a guarded scope, in which the evaluators agree. -/
theorem guarded_callLambda {evaluate other : Evaluator} {lambda : Expression}
    {arguments : List Expression} {environment : Environment}
    (evaluators : guarded.Evaluators evaluate other) (settled : Settled lambda)
    (isLambda : lambda.isLambda = true) (given : ∀ argument ∈ arguments, Settled argument)
    (allowed : environment.Guarded) :
    Attempt.Matches guarded.Faults guarded.Values (callLambda evaluate lambda arguments environment)
      (callLambda other lambda arguments environment) := by
  obtain ⟨names, body, shape, free⟩ := settled.namesParameters isLambda
  obtain ⟨scope, bound, scopeGuarded⟩ := allowed.bindAll free given
  have parameters : (Expression.list (names.map symbol)).children = names.map symbol := rfl
  unfold callLambda
  rw [shape]
  dsimp only
  rw [parameters, bound]
  refine .bind (.ofExcept (.check (.blaming rfl))) fun _ _ _ => ?_
  have same : guarded.Environments scope scope := ⟨scopeGuarded, rfl⟩
  refine .bind (.ofExcept (.ok same)) fun inner inner' scopes => ?_
  exact optionRel_map (evaluators rfl scopes) fun _ _ both => both.outcomes

/-- The laws hold of settled values and guarded environments, in which everything matches
itself only. -/
theorem guarded_laws : guarded.Laws where
  data := Settled.valueClass.diagonal
  faults alike := alike
  keyword names := names ▸ rfl
  builtin names := names ▸ rfl
  listName names := names ▸ .rfl
  heads := by
    rintro program _ rfl
    exact .itself fun _ _ => rfl
  children := by
    rintro program _ rfl
    exact List.forall₂_same.mpr fun _ _ => rfl
  rebuild programs related := by
    cases programs
    rw [show guarded.Programs = Eq from rfl, List.forall₂_eq_eq_eq] at related
    exact related ▸ rfl
  absent := rfl
  decorate tag programs values := by
    obtain rfl : _ = _ := programs
    obtain ⟨-, rfl⟩ := values
    rfl
  ofValues values := values.2
  lambda := by
    intro _ _ _ _ names others body other parameters free bodies
    rw [show guarded.Names = Eq from rfl, List.forall₂_eq_eq_eq] at parameters
    obtain rfl : body = other := bodies
    exact ⟨Settled.valueClass.lambda body free, parameters ▸ rfl⟩
  parameterCount values _ := values.2 ▸ rfl
  property := by
    rintro _ _ value _ - - ⟨settled, rfl⟩ tag
    cases read : value.property? tag with
    | none => exact .none
    | some property => exact .some ⟨settled.property read, rfl⟩
  found := by
    rintro name _ environment _ rfl ⟨allowed, rfl⟩
    cases bound : environment.find? name with
    | none => exact .none
    | some binding =>
        cases binding with
        | procedure builtin => exact .some (.procedure builtin)
        | value value => exact .some (.value ⟨allowed.settled name value bound, rfl⟩)
  define := by
    rintro name _ environment _ value _ rfl ⟨allowed, rfl⟩ ⟨settled, rfl⟩
    cases defined : environment.define name value with
    | ok after => exact .ok ⟨allowed.define settled defined, rfl⟩
    | error fault => exact .error (Environment.alike_of_define defined)
  call := by
    rintro evaluate other lambda _ arguments arguments' environment _ evaluators ⟨settled, rfl⟩
      isLambda related ⟨allowed, rfl⟩
    obtain ⟨given, rfl⟩ := forall₂_eq_iff.mp related
    exact guarded_callLambda evaluators settled isLambda given allowed

/-- Faults that are alike up to equality of names are equal, and none of them comes from
binding something other than a symbol. -/
theorem eq_of_alike {fault other : Fault} (alike : fault.Alike Eq other) :
    fault = other ∧ fault ≠ .unnamedBinding := by
  constructor
  · exact alike.eq fun _ _ names => names
  · rintro rfl
    cases alike with
    | blaming blamed => cases blamed

/-- Evaluations only match themselves. -/
theorem eq_of_guarded {left right : Option Evaluation}
    (both : Option.Rel guarded.Evaluations left right) : left = right := by
  cases both with
  | none => rfl
  | @some evaluation other both =>
      obtain ⟨outcomes, programs, -, environments⟩ := both
      obtain ⟨outcome, program, environment⟩ := evaluation
      obtain ⟨outcome', program', environment'⟩ := other
      have same : outcome = outcome' :=
        outcomes.eq (fun _ _ faults => (eq_of_alike faults).1) fun _ _ values => values.2
      obtain rfl : program = program' := programs
      obtain rfl : environment = environment' := environments
      rw [same]

/-- Evaluators that match agree in guarded environments, and what they leave behind there
is guarded. -/
theorem evaluators_guarded_iff {evaluate other : Evaluator} :
    guarded.Evaluators evaluate other ↔
      ∀ expression environment, environment.Guarded →
        Option.Rel guarded.Evaluations (evaluate expression environment)
          (other expression environment) := by
  constructor
  · intro evaluators expression environment allowed
    exact evaluators rfl ⟨allowed, rfl⟩
  · rintro agree program _ environment _ rfl ⟨allowed, rfl⟩
    exact agree program environment allowed

end Correspondence

open Correspondence

/-- Evaluation in a guarded environment leaves a guarded one behind, and no fault of it
comes from binding something other than a symbol. -/
theorem evaluate_guarded {depth : Nat} {expression : Expression} {environment : Environment}
    {evaluation : Evaluation} (allowed : environment.Guarded)
    (ended : evaluate depth expression environment = some evaluation) :
    evaluation.environment.Guarded ∧ evaluation.outcome ≠ .error .unnamedBinding := by
  have evaluated := evaluators_guarded_iff.mp (evaluate_matches guarded_laws depth) expression
    environment allowed
  rw [ended] at evaluated
  cases evaluated with
  | some both =>
      refine ⟨both.environments.1, fun faulted => ?_⟩
      have outcomes := both.outcomes
      rw [faulted] at outcomes
      cases outcomes with
      | error faults => exact (eq_of_alike faults).2 rfl

/-- A step in a guarded environment asks about guarded scopes only: an evaluator that
differs elsewhere makes no difference to it. -/
theorem Evaluation.Asks.guarded {depth : Nat} {expression part : Expression}
    {environment scope : Environment} (allowed : environment.Guarded)
    (asked : Asks (evaluate depth) expression environment part scope) : scope.Guarded := by
  obtain ⟨other, outside, differs⟩ := asked
  by_contra unguarded
  have matching := evaluators_guarded_iff.mp (evaluate_matches guarded_laws depth)
  have agree : Correspondence.guarded.Evaluators (evaluate depth) other := by
    refine evaluators_guarded_iff.mpr fun expression environment allowed => ?_
    have elsewhere : (expression, environment) ≠ (part, scope) := fun same =>
      unguarded ((Prod.mk.inj same).2 ▸ allowed)
    rw [outside expression environment elsewhere]
    exact matching expression environment allowed
  have stepped := evaluators_guarded_iff.mp (step_matches guarded_laws agree) expression
    environment allowed
  exact differs (eq_of_guarded stepped).symm

end PlotLisp
