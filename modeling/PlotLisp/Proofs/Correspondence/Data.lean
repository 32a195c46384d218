import PlotLisp.Proofs.Correspondence.Outcome
import PlotLisp.Proofs.Expression.Value

/-!
# Matching data

A procedure sees of its arguments their heads, how many children they have, and the
elements of lists. So arguments that match in these respects lead to matching results,
whatever else distinguishes them. Every fault on the way blames the procedure.
-/

namespace PlotLisp

/-- The procedure or the form that a fault names as the one that was used wrongly. -/
def Fault.blamed? : Fault → Option String
  | argumentCount name | expectedNumber name | expectedComplex name | expectedList name
  | expectedSymbol name | expectedText name | shortList name | outsideDomain name _ => some name
  | unknownSymbol _ | absentTerminal | unnamedBinding | keywordRedefinition _
  | builtinRedefinition _ | symbolRedefinition _ | notAProcedure _ => none

/-- Every fault that blames this procedure matches itself. -/
abbrev MatchesBlame (Faults : Fault → Fault → Prop) (procedure : String) : Prop :=
  ∀ fault : Fault, fault.blamed? = some procedure → Faults fault fault

/-- A relation between values that procedures respect: it shows in what they read, and
holds again of what they build. -/
structure DataCorrespondence (Values : Expression → Expression → Prop) : Prop where
  head {value other : Expression} (values : Values value other) : value.head = other.head
  length {value other : Expression} (values : Values value other) :
    value.children.length = other.children.length
  elements {value other : Expression} (values : Values value other)
    (isList : value.isList = true) : List.Forall₂ Values value.children other.children
  constant {head : Atom} (constant : head.symbol? = none) : Values (.leaf head) (.leaf head)
  list {elements others : List Expression} (related : List.Forall₂ Values elements others) :
    Values (.list elements) (.list others)
  withProperty {value other property attached : Expression} (tag : String)
    (values : Values value other) (properties : Values property attached) :
    Values (value.withProperty tag property) (other.withProperty tag attached)

/-- A class of values, each of which matches itself only. -/
theorem Expression.ValueClass.diagonal {Value : Expression → Prop}
    (values : Expression.ValueClass Value) :
    DataCorrespondence fun value other => Value value ∧ value = other where
  head same := same.2 ▸ rfl
  length same := same.2 ▸ rfl
  elements := by
    rintro value _ ⟨holds, rfl⟩ isList
    exact List.forall₂_same.mpr fun element member => ⟨values.element holds isList member, rfl⟩
  constant constant := ⟨values.constant constant, rfl⟩
  list {elements others} related := by
    obtain ⟨holds, rfl⟩ := forall₂_eq_iff.mp related
    exact ⟨values.list holds, rfl⟩
  withProperty := by
    rintro value _ property _ tag ⟨holds, rfl⟩ ⟨attached, rfl⟩
    exact ⟨values.withProperty tag holds attached, rfl⟩

section

variable {Values : Expression → Expression → Prop} {Faults : Fault → Fault → Prop}
  {procedure : String}

namespace DataCorrespondence

variable {value other : Expression} (data : DataCorrespondence Values)

include data

/-- A number matches itself under every correspondence of data. -/
theorem number (x : Float) : Values (.number x) (.number x) :=
  data.constant rfl

/-- A complex number matches itself under every correspondence of data. -/
theorem complex (z : Complex) : Values (.complex z) (.complex z) :=
  data.constant rfl

/-- Matching values are leaves together, because they have as many children. -/
theorem isLeaf (values : Values value other) : value.isLeaf = other.isLeaf := by
  unfold Expression.isLeaf
  rw [Bool.eq_iff_iff, List.isEmpty_iff_length_eq_zero, List.isEmpty_iff_length_eq_zero,
    data.length values]

/-- Matching values are lists together, because they have one head. -/
theorem isList (values : Values value other) : value.isList = other.isList := by
  unfold Expression.isList
  rw [data.head values]

/-- Matching values are procedure values together: the head and the number of children
decide that. -/
theorem isLambda (values : Values value other) : value.isLambda = other.isLambda := by
  unfold Expression.isLambda
  rw [data.head values, data.length values]

/-! ## Reading arguments -/

variable (blames : MatchesBlame Faults procedure)

include blames

/-- From matching values the same real or complex quantity is read, or the procedure is
blamed for both. -/
theorem toQuantity (values : Values value other) :
    Matches Faults Eq (value.toQuantity procedure) (other.toQuantity procedure) := by
  unfold Expression.toQuantity
  rw [data.head values, data.isLeaf values]
  split
  · exact .ok rfl
  · exact .ok rfl
  · exact .error (blames _ rfl)

/-- From matching values the same number is read, or the procedure is blamed for both. -/
theorem toNumber (values : Values value other) :
    Matches Faults Eq (value.toNumber procedure) (other.toNumber procedure) := by
  unfold Expression.toNumber
  rw [data.head values, data.isLeaf values]
  split
  · exact .ok rfl
  · exact .error (blames _ rfl)

/-- From matching values the same complex number is read, or the procedure is blamed for both. -/
theorem toComplex (values : Values value other) :
    Matches Faults Eq (value.toComplex procedure) (other.toComplex procedure) := by
  unfold Expression.toComplex
  rw [data.head values, data.isLeaf values]
  split
  · exact .ok rfl
  · exact .error (blames _ rfl)

/-- From matching values the same text is read, or the procedure is blamed for both. -/
theorem toContent (values : Values value other) :
    Matches Faults Eq (value.toContent procedure) (other.toContent procedure) := by
  unfold Expression.toContent
  rw [data.head values, data.isLeaf values]
  split
  · exact .ok rfl
  · exact .error (blames _ rfl)

/-- Matching values have elements that match one by one, or neither is a list and the procedure is
blamed for both. -/
theorem toElements (values : Values value other) :
    Matches Faults (List.Forall₂ Values) (value.toElements procedure)
      (other.toElements procedure) := by
  unfold Expression.toElements
  rw [← data.isList values]
  split
  case isTrue isList => exact .ok (data.elements values isList)
  case isFalse => exact .error (blames _ rfl)

end DataCorrespondence

/-! ## Builtin procedures -/

variable {arguments others : List Expression}

namespace Arithmetic

/-! ### Shared steps -/

section

variable (blames : MatchesBlame Faults procedure)

section

variable (related : List.Forall₂ Values arguments others)

include blames related

/-- A single argument is passed on, and any other number of arguments is blamed on the
procedure. -/
theorem single_matches :
    Matches Faults Values (single procedure arguments) (single procedure others) := by
  rcases related with _ | ⟨first, _ | _⟩
  case cons.nil => exact .ok first
  all_goals exact .error (blames _ rfl)

/-- Two arguments are passed on, and any other number of them is blamed on the procedure. -/
theorem pair_matches :
    Matches Faults (fun left right => Values left.1 right.1 ∧ Values left.2 right.2)
      (pair procedure arguments) (pair procedure others) := by
  rcases related with _ | ⟨first, _ | ⟨second, _ | _⟩⟩
  case cons.cons.nil => exact .ok ⟨first, second⟩
  all_goals exact .error (blames _ rfl)

end

section

variable {left right leftOther rightOther : Expression} (data : DataCorrespondence Values)

include data blames

/-- An operation on two quantities sees nothing of its arguments but the quantities. -/
theorem combine_matches (onReals : Float → Float → Float)
    (onComplex : Complex → Complex → Complex) (lefts : Values left leftOther)
    (rights : Values right rightOther) :
    Matches Faults Values (combine procedure onReals onComplex left right)
      (combine procedure onReals onComplex leftOther rightOther) := by
  refine .bind (data.toQuantity blames lefts) fun first _ same => ?_
  subst same
  refine .bind (data.toQuantity blames rights) fun second _ same => ?_
  subst same
  split
  · exact .ok (data.number _)
  · exact .ok (data.complex _)

/-- An operation on one quantity sees nothing of its argument but the quantity. -/
theorem transform_matches (onReal : Float → Float) (onComplex : Complex → Complex)
    (values : Values left leftOther) :
    Matches Faults Values (transform procedure onReal onComplex left)
      (transform procedure onReal onComplex leftOther) := by
  refine .bind (data.toQuantity blames values) fun quantity _ same => ?_
  subst same
  cases quantity with
  | real => exact .ok (data.number _)
  | complex => exact .ok (data.complex _)

variable (related : List.Forall₂ Values arguments others)

include related

/-- Folding reads all arguments before it computes, so what it blames on the procedure is
the same too. -/
theorem fold_matches (identity : Float) (onReals : Float → Float → Float)
    (onComplex : Complex → Complex → Complex) :
    Matches Faults Values (fold procedure identity onReals onComplex arguments)
      (fold procedure identity onReals onComplex others) := by
  refine .bind (.mapM (fun _ _ => data.toQuantity blames) related) fun quantities _ same => ?_
  rw [List.forall₂_eq_eq_eq] at same
  subst same
  split
  · exact .ok (data.number _)
  · exact .ok (data.complex _)

/-- A function of one real number sees nothing of its argument but the number. -/
theorem realFunction_matches (function : Float → Float) :
    Matches Faults Values (realFunction procedure function arguments)
      (realFunction procedure function others) := by
  refine .bind (single_matches blames related) fun argument other values => ?_
  refine .bind (data.toNumber blames values) fun x _ same => ?_
  exact same ▸ .ok (data.number _)

/-- A function of one complex number matches itself as long as its results do. -/
theorem complexFunction_matches {function : Complex → Expression}
    (results : ∀ z, Values (function z) (function z)) :
    Matches Faults Values (complexFunction procedure function arguments)
      (complexFunction procedure function others) := by
  refine .bind (single_matches blames related) fun argument other values => ?_
  refine .bind (data.toComplex blames values) fun z _ same => ?_
  exact same ▸ .ok (results z)

end

end

/-! ### Procedures that name themselves -/

section

variable (data : DataCorrespondence Values) (related : List.Forall₂ Values arguments others)

include data related

/-- With one argument `-` negates and with two it subtracts, on both sides alike. -/
theorem difference_matches (blames : MatchesBlame Faults "-") :
    Matches Faults Values (difference arguments) (difference others) := by
  rcases related with _ | ⟨first, _ | ⟨second, _ | _⟩⟩
  case cons.nil => exact transform_matches blames data _ _ first
  case cons.cons.nil => exact combine_matches blames data _ _ first second
  all_goals exact .error (blames _ rfl)

/-- With one argument `/` inverts and with two it divides, on both sides alike. -/
theorem quotient_matches (blames : MatchesBlame Faults "/") :
    Matches Faults Values (quotient arguments) (quotient others) := by
  rcases related with _ | ⟨first, _ | ⟨second, _ | _⟩⟩
  case cons.nil => exact transform_matches blames data _ _ first
  case cons.cons.nil => exact combine_matches blames data _ _ first second
  all_goals exact .error (blames _ rfl)

/-- Raising to a power matches itself and blames `^` alone. -/
theorem power_matches (blames : MatchesBlame Faults "^") :
    Matches Faults Values (power arguments) (power others) :=
  .bind (pair_matches blames related) fun _ _ both =>
    combine_matches blames data _ _ both.1 both.2

/-- The square root matches itself, whether its result is real or, for a negative
number, complex. -/
theorem squareRoot_matches (blames : MatchesBlame Faults "sqrt") :
    Matches Faults Values (squareRoot arguments) (squareRoot others) := by
  refine .bind (single_matches blames related) fun argument other values => ?_
  refine .bind (data.toQuantity blames values) fun quantity _ same => ?_
  subst same
  cases quantity with
  | real x =>
      dsimp only
      split
      · exact .ok (data.number _)
      · exact .ok (data.complex _)
  | complex z => exact .ok (data.complex _)

/-- The logarithm matches itself; a number outside its domain is outside on both sides. -/
theorem logarithm_matches (blames : MatchesBlame Faults "ln") :
    Matches Faults Values (logarithm arguments) (logarithm others) := by
  refine .bind (single_matches blames related) fun argument other values => ?_
  refine .bind (data.toNumber blames values) fun x _ same => ?_
  subst same
  exact .bind (.check (blames _ rfl)) fun _ _ _ => .ok (data.number _)

end

end Arithmetic

namespace Sequence

open Arithmetic

section

variable (data : DataCorrespondence Values) (related : List.Forall₂ Values arguments others)

include data related

/-- The first elements of matching lists match, and empty lists are blamed on `first` together. -/
theorem first_matches (blames : MatchesBlame Faults "first") :
    Matches Faults Values (first arguments) (first others) := by
  refine .bind (single_matches blames related) fun argument other values => ?_
  refine .bind (data.toElements blames values) fun elements _ listed => ?_
  cases listed with
  | nil => exact .error (blames _ rfl)
  | cons element _ => exact .ok element

/-- The rests of matching lists match, and lists with nothing behind their first element are blamed
on `rest` together. -/
theorem rest_matches (blames : MatchesBlame Faults "rest") :
    Matches Faults Values (rest arguments) (rest others) := by
  refine .bind (single_matches blames related) fun argument other values => ?_
  refine .bind (data.toElements blames values) fun elements _ listed => ?_
  cases listed with
  | nil => exact .error (blames _ rfl)
  | cons _ others =>
      cases others with
      | nil => exact .error (blames _ rfl)
      | cons next others => exact .ok (data.list (.cons next others))

/-- Matching lists have the same length, or the same one that no number holds. -/
theorem length_matches (blames : MatchesBlame Faults "length") :
    Matches Faults Values (length arguments) (length others) := by
  refine .bind (single_matches blames related) fun argument other values => ?_
  refine .bind (data.toElements blames values) fun elements _ listed => ?_
  rw [listed.length_eq]
  refine @Matches.bind _ _ _ _ Faults Eq _ _ _ _ _ (.refl fun fault counted => ?_) ?_
  · unfold countToNumber at counted
    split at counted <;> cases counted
    exact blames _ rfl
  · rintro count _ rfl
    exact .ok (data.number _)

/-- Matching elements appended to matching lists leave matching lists. -/
theorem append_matches (blames : MatchesBlame Faults "append") :
    Matches Faults Values (append arguments) (append others) := by
  refine .bind (pair_matches blames related) fun both others values => ?_
  refine .bind (data.toElements blames values.1) fun elements _ listed => ?_
  exact .ok (data.list (List.rel_append listed (.cons values.2 .nil)))

/-- Matching lists joined to matching lists are matching lists. -/
theorem join_matches (blames : MatchesBlame Faults "join") :
    Matches Faults Values (join arguments) (join others) := by
  refine .bind (pair_matches blames related) fun both others values => ?_
  refine .bind (data.toElements blames values.1) fun front _ frontListed => ?_
  refine .bind (data.toElements blames values.2) fun back _ backListed => ?_
  exact .ok (data.list (List.rel_append frontListed backListed))

/-- Matching arguments describe the same interval or fail the same check of it. -/
theorem interval_matches (blames : MatchesBlame Faults "range") :
    Matches Faults Eq (interval arguments) (interval others) := by
  rcases related with _ | ⟨low, _ | ⟨high, _ | ⟨step, _ | _⟩⟩⟩
  case cons.cons.cons.nil =>
    refine .bind (data.toNumber blames low) fun first _ same => ?_
    subst same
    refine .bind (data.toNumber blames high) fun last _ same => ?_
    subst same
    refine .bind (data.toNumber blames step) fun increment _ same => ?_
    subst same
    refine .bind (.check (blames _ rfl)) fun _ _ _ => ?_
    refine .bind (.check (blames _ rfl)) fun _ _ _ => ?_
    exact .bind (.check (blames _ rfl)) fun _ _ _ => .ok rfl
  all_goals exact .error (blames _ rfl)

end

end Sequence

namespace Builtin

variable (data : DataCorrespondence Values) (related : List.Forall₂ Values arguments others)

include data related

/-- The samples of an interval are numbers, so they match one by one. -/
theorem computeRange_matches (blames : MatchesBlame Faults "range") :
    Attempt.Matches Faults Values (computeRange arguments) (computeRange others) := by
  refine .bind (.ofExcept (Sequence.interval_matches data related blames)) fun interval _ same => ?_
  subst same
  refine .bind (.ofOption interval.samples) fun samples _ same => ?_
  subst same
  refine .pure (data.list ?_)
  rw [List.forall₂_map_left_iff, List.forall₂_map_right_iff, List.forall₂_same]
  exact fun sample _ => data.number sample

/-- A builtin procedure gives matching results for matching arguments, and all its faults
blame itself. -/
theorem call_matches {builtin : Builtin} (blames : MatchesBlame Faults builtin.name) :
    Attempt.Matches Faults Values (builtin.call arguments) (builtin.call others) := by
  unfold call
  rw [related.length_eq]
  split
  case isFalse => exact .throw (blames _ rfl)
  cases builtin with
  | add | multiply => exact .ofExcept (Arithmetic.fold_matches blames data related _ _ _)
  | subtract => exact .ofExcept (Arithmetic.difference_matches data related blames)
  | divide => exact .ofExcept (Arithmetic.quotient_matches data related blames)
  | power => exact .ofExcept (Arithmetic.power_matches data related blames)
  | squareRoot => exact .ofExcept (Arithmetic.squareRoot_matches data related blames)
  | logarithm => exact .ofExcept (Arithmetic.logarithm_matches data related blames)
  | sine | cosine | tangent =>
      exact .ofExcept (Arithmetic.realFunction_matches blames data related _)
  | realPart | imaginaryPart | argument | modulus =>
      exact .ofExcept (Arithmetic.complexFunction_matches blames data related
        fun _ => data.number _)
  | conjugate =>
      exact .ofExcept (Arithmetic.complexFunction_matches blames data related
        fun _ => data.complex _)
  | list => exact .ofExcept (.ok (data.list related))
  | first => exact .ofExcept (Sequence.first_matches data related blames)
  | rest => exact .ofExcept (Sequence.rest_matches data related blames)
  | length => exact .ofExcept (Sequence.length_matches data related blames)
  | append => exact .ofExcept (Sequence.append_matches data related blames)
  | join => exact .ofExcept (Sequence.join_matches data related blames)
  | range => exact computeRange_matches data related blames

end Builtin

end

/-- A builtin procedure whose arguments belong to a class of values returns a value of
that class. -/
theorem Builtin.call_mem_class {Value : Expression → Prop}
    (values : Expression.ValueClass Value) {builtin : Builtin} {arguments : List Expression}
    {value : Expression} (given : ∀ argument ∈ arguments, Value argument)
    (called : (builtin.call arguments).run = some (.ok value)) : Value value := by
  have related : List.Forall₂ (fun value other => Value value ∧ value = other) arguments
      arguments := List.forall₂_same.mpr fun argument member => ⟨given argument member, rfl⟩
  have matching : Attempt.Matches (fun _ _ => True) (fun value other => Value value ∧ value = other)
      (builtin.call arguments) (builtin.call arguments) :=
    Builtin.call_matches values.diagonal related fun _ _ => trivial
  unfold Attempt.Matches at matching
  rw [called] at matching
  cases matching with
  | some outcomes =>
      cases outcomes with
      | ok both => exact both.1

end PlotLisp
