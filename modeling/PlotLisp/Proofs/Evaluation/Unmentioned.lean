import PlotLisp.Proofs.Correspondence.Binding
import PlotLisp.Proofs.Evaluation.Guarding
import PlotLisp.Proofs.Expression.Mention

/-!
# Bindings that a program does not mention

The scope of a call is a copy of the caller's whole environment, so a binding that is there
in addition reaches every scope of the run. It makes no difference as long as neither the
program nor any value in the environment mentions its name: evaluation makes up no symbol
but the one that heads lists, and it only asks for names that it was given.
-/

namespace PlotLisp

open Expression

/-- The other environment has one more name bound than this one, and nothing else is
different. Bindings have no order. -/
structure Environment.ExtendedWith (name : String) (value : Expression)
    (environment other : Environment) : Prop where
  free : environment.find? name = none
  bindings (key : String) :
    other.find? key = (environment.bindName name value).find? key

/-- The other evaluation left the same behind, with one more name bound. -/
structure Evaluation.ExtendedWith (name : String) (value : Expression)
    (evaluation other : Evaluation) : Prop where
  outcome : other.outcome = evaluation.outcome
  program : other.program = evaluation.program
  environment : evaluation.environment.ExtendedWith name value other.environment

namespace Environment

variable {environment other : Environment} {name key : String} {value : Expression}

/-- Names that are bound one after the other may be bound in either order. -/
theorem find?_bindName_bindName (different : key ≠ name) (bound : Expression) (searched : String) :
    ((environment.bindName name value).bindName key bound).find? searched =
      ((environment.bindName key bound).bindName name value).find? searched := by
  by_cases atKey : searched = key
  · subst atKey
    rw [find?_bindName_self, find?_bindName_of_ne different, find?_bindName_self]
  · rw [find?_bindName_of_ne atKey]
    by_cases atName : searched = name
    · subst atName
      rw [find?_bindName_self, find?_bindName_self]
    · rw [find?_bindName_of_ne atName, find?_bindName_of_ne atName, find?_bindName_of_ne atKey]

namespace ExtendedWith

/-- Every other name denotes the same in both. -/
theorem find?_of_ne (extended : environment.ExtendedWith name value other)
    (different : key ≠ name) : other.find? key = environment.find? key := by
  rw [extended.bindings, find?_bindName_of_ne different]

/-- Binding another name in both environments keeps the one difference between them. -/
theorem bindName (extended : environment.ExtendedWith name value other) (different : key ≠ name)
    (bound : Expression) :
    (environment.bindName key bound).ExtendedWith name value (other.bindName key bound) := by
  constructor
  · rw [find?_bindName_of_ne (Ne.symm different), extended.free]
  · intro searched
    rw [← find?_bindName_bindName different]
    by_cases atKey : searched = key
    · subst atKey
      rw [find?_bindName_self, find?_bindName_self]
    · rw [find?_bindName_of_ne atKey, find?_bindName_of_ne atKey, extended.bindings]

end ExtendedWith

end Environment

/-- Everything matches itself if it does not mention the name. Environments match the ones
that have the name bound in addition. -/
def Correspondence.unmentioned (name : String) (value : Expression) : Correspondence where
  Names first second := first ≠ name ∧ first = second
  Programs program other := program.Avoids name ∧ program = other
  Values first second := first.Avoids name ∧ first = second
  Environments environment other :=
    environment.ExtendedWith name value other ∧ environment.Holds (Avoids name)
  Faults := Eq

namespace Correspondence

variable {name : String} {value : Expression}

/-- Data without the name match themselves: procedures build no symbol but the one that
heads lists. -/
theorem unmentioned_data (notList : name ≠ listName) :
    DataCorrespondence (unmentioned name value).Values where
  head values := values.2 ▸ rfl
  length values := values.2 ▸ rfl
  elements := by
    rintro list _ ⟨avoids, rfl⟩ -
    exact forall₂_eq_iff.mpr ⟨fun _ member => avoids.child member, rfl⟩
  constant constant := ⟨.constant constant, rfl⟩
  list related := by
    obtain ⟨avoid, rfl⟩ := forall₂_eq_iff.mp related
    exact ⟨.list notList avoid, rfl⟩
  withProperty := by
    rintro target _ property _ tag ⟨avoids, rfl⟩ ⟨added, rfl⟩
    exact ⟨avoids.withProperty tag added, rfl⟩

/-- The static laws hold, since nothing that avoids a name has it for a head or looks it up. -/
theorem unmentioned_static (notList : name ≠ listName) :
    (unmentioned name value).StaticLaws where
  data := unmentioned_data notList
  faults alike := alike.eq fun _ _ names => names.2
  keyword names := names.2 ▸ rfl
  builtin names := names.2 ▸ rfl
  listName names := names.2 ▸ .rfl
  heads := by
    rintro program _ ⟨avoids, rfl⟩
    refine .itself fun key headed => ⟨?_, rfl⟩
    rintro rfl
    exact avoids.head headed
  children := by
    rintro program _ ⟨avoids, rfl⟩
    exact forall₂_eq_iff.mpr ⟨fun _ member => avoids.child member, rfl⟩
  rebuild := by
    rintro head _ children _ former _ properties _ ⟨avoids, same⟩ related
    obtain ⟨parts, rfl⟩ := forall₂_eq_iff.mp related
    cases same
    exact ⟨avoids.withChildren parts, rfl⟩
  absent := ⟨.constant rfl, rfl⟩
  decorate := by
    rintro program _ property _ tag ⟨avoids, rfl⟩ ⟨added, rfl⟩
    exact ⟨avoids.withProperty tag added, rfl⟩
  ofValues values := values
  -- The name that heads procedure values is mentioned by the program that builds one.
  lambda := by
    rintro program _ ⟨avoids, -⟩ building names others body _ parameters - ⟨bodyAvoids, rfl⟩
    have notLambda : name ≠ lambdaName := by
      rintro rfl
      exact avoids.head building
    obtain ⟨different, rfl⟩ := forall₂_eq_iff.mp parameters
    exact ⟨.lambda notList notLambda different bodyAvoids, rfl⟩
  parameterCount values _ := values.2 ▸ rfl
  property := by
    rintro _ _ target _ - - ⟨avoids, rfl⟩ tag
    cases set : target.property? tag with
    | none => exact .none
    | some property => exact .some ⟨avoids.property set, rfl⟩
  found := by
    rintro key _ environment other ⟨different, rfl⟩ ⟨extended, holds⟩
    rw [extended.find?_of_ne different]
    cases bound : environment.find? key with
    | none => exact .none
    | some binding =>
        cases binding with
        | procedure builtin => exact .some (.procedure builtin)
        | value expression => exact .some (.value ⟨holds key expression bound, rfl⟩)

/-- Binding another name to values that avoid this one leaves environments that match. -/
theorem unmentioned_binds : (unmentioned name value).BindsNames := by
  rintro key _ environment other bound _ ⟨different, rfl⟩ ⟨extended, holds⟩ ⟨avoids, rfl⟩
  exact ⟨extended.bindName different bound, holds.bindName avoids⟩

/-- All laws hold, so every evaluation that avoids a name matches the one with the name bound. -/
theorem unmentioned_laws (notList : name ≠ listName) : (unmentioned name value).Laws :=
  (unmentioned_static notList).toLaws unmentioned_binds rfl

end Correspondence

/-- If neither a program nor any value in its environment mentions a name, and the name is
free, then binding it changes nothing: at every depth the program ends in the extended
environment if and only if it ends in the given one, in the same value or with the same
fault, and the environments left behind differ by that binding again. The name of lists is
the exception, because evaluation itself puts it at the head of lists. -/
theorem unmentioned_binding_changes_nothing {name : String} (notList : name ≠ listName)
    (value : Expression) {expression : Expression} {environment : Environment}
    (free : environment.find? name = none) (avoids : expression.Avoids name)
    (holds : environment.Holds (Avoids name)) (depth : Nat) :
    Option.Rel (Evaluation.ExtendedWith name value) (evaluate depth expression environment)
      (evaluate depth expression (environment.bindName name value)) := by
  have extended : environment.ExtendedWith name value (environment.bindName name value) :=
    ⟨free, fun _ => rfl⟩
  have matching := Correspondence.evaluate_matches
    (@Correspondence.unmentioned_laws name value notList) depth ⟨avoids, rfl⟩ ⟨extended, holds⟩
  apply optionRel_imp matching
  rintro evaluation other ⟨outcomes, programs, environments⟩
  have same : evaluation.outcome = other.outcome :=
    outcomes.eq (fun _ _ faults => faults) fun _ _ values => values.2
  exact ⟨same.symm, programs.2.symm, environments.1⟩

/-- A program that defines a procedure value and calls it. -/
def callingLocally : Expression :=
  .form (.symbol "begin")
    [.form (.symbol "define") [.symbol "f", .form (.symbol "lambda")
      [.symbol "y", .form (.symbol "list") [.symbol "y", .symbol "pi"]]],
    .form (.symbol "f") [.symbol "e"]]

/-- A binding that the program does not mention reaches the scope of the call and changes
nothing there. -/
theorem unmentioned_binding_changes_nothing_in_call :
    Option.Rel (Evaluation.ExtendedWith "x" (.literal "unread"))
        (evaluate 4 callingLocally .fresh)
        (evaluate 4 callingLocally (Environment.fresh.bindName "x" (.literal "unread"))) ∧
      (evaluate 4 callingLocally .fresh).map Evaluation.outcome =
        some (.ok (.list [.number Number.euler, .number Number.pi])) := by
  have avoids : callingLocally.Avoids "x" := by
    simp [callingLocally, symbol, leaf, avoids_form_iff]
  refine ⟨unmentioned_binding_changes_nothing (by decide) _ rfl avoids ?_ 4, rfl⟩
  exact Environment.Holds.of_constants Avoids.constant

end PlotLisp
