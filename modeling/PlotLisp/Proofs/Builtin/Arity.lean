import PlotLisp.Proofs.Correspondence.Data

/-!
# Counting arguments and naming procedures

A procedure is called through a table of arities, and it also takes its arguments apart by
itself. Both refuse the same numbers of arguments, but for the product, which multiplies any
number of factors and leaves it to the table to refuse a single one. So once the table has
accepted a number of arguments, a fault is about what some argument is. The table spells the
name of a procedure, and so does the procedure, at each place where it may raise a fault; the
names are the same everywhere.
-/

namespace PlotLisp

namespace Fault

/-- The procedure does not accept what one of its arguments is. -/
inductive RefusesArgument (procedure : String) : Fault → Prop where
  | notNumber : RefusesArgument procedure (.expectedNumber procedure)
  | notComplex : RefusesArgument procedure (.expectedComplex procedure)
  | notList : RefusesArgument procedure (.expectedList procedure)
  | short : RefusesArgument procedure (.shortList procedure)
  | outside (cause : DomainCause) : RefusesArgument procedure (.outsideDomain procedure cause)

/-- Refusing an argument blames the procedure whose argument it is. -/
theorem RefusesArgument.blamed?_eq {procedure : String} {fault : Fault}
    (refuses : fault.RefusesArgument procedure) : fault.blamed? = some procedure := by
  cases refuses <;> rfl

/-- Refusing an argument is never a complaint about how many there are. -/
theorem RefusesArgument.ne_argumentCount {procedure other : String} {fault : Fault}
    (refuses : fault.RefusesArgument procedure) : fault ≠ .argumentCount other := by
  cases refuses <;> simp

end Fault

/-! ## Faults of a class -/

/-- If the outcome is a fault, then it is one of the class. -/
def FaultsWithin {α : Type} (Class : Fault → Prop) (outcome : Except Fault α) : Prop :=
  ∀ fault, outcome = .error fault → Class fault

namespace FaultsWithin

variable {α β : Type} {Class : Fault → Prop} {outcome : Except Fault α}

/-- A value is no fault, so it stays within every class. -/
theorem ok (value : α) : FaultsWithin Class (.ok value) := by
  intro fault failed
  cases failed

/-- A fault stays within each class that it belongs to. -/
theorem error {fault : Fault} (member : Class fault) :
    FaultsWithin Class (.error fault : Except Fault α) := by
  rintro _ ⟨⟩
  exact member

/-- A check can only raise its own fault. -/
theorem check {condition : Bool} {fault : Fault} (member : Class fault) :
    FaultsWithin Class (check condition fault) := by
  cases condition with
  | true => exact ok ()
  | false => exact error member

/-- A sequence of steps has no other faults than its steps. -/
theorem bind {next : α → Except Fault β} (first : FaultsWithin Class outcome)
    (second : ∀ value, FaultsWithin Class (next value)) :
    FaultsWithin Class (outcome >>= next) := by
  cases outcome with
  | ok value => exact second value
  | error fault => exact error (first fault rfl)

/-- Steps over a list of items have no other faults than a single step. -/
theorem mapM {step : α → Except Fault β} (each : ∀ item, FaultsWithin Class (step item))
    (items : List α) : FaultsWithin Class (items.mapM step) := by
  induction items with
  | nil => exact ok []
  | cons item rest inductionHypothesis =>
      rw [List.mapM_cons]
      exact (each item).bind fun _ => inductionHypothesis.bind fun _ => ok _

end FaultsWithin

/-! ## Reading arguments -/

namespace Expression

variable (argument : Expression) (procedure : String)

/-- Reading a quantity refuses the argument in the name of the procedure, or gives the quantity. -/
theorem toQuantity_faults :
    FaultsWithin (Fault.RefusesArgument procedure) (argument.toQuantity procedure) := by
  unfold toQuantity
  split
  · exact .ok _
  · exact .ok _
  · exact .error .notNumber

/-- Reading a number refuses the argument in the name of the procedure, or gives the number. -/
theorem toNumber_faults :
    FaultsWithin (Fault.RefusesArgument procedure) (argument.toNumber procedure) := by
  unfold toNumber
  split
  · exact .ok _
  · exact .error .notNumber

/-- Reading a complex number refuses the argument in the name of the procedure, or gives
the number. -/
theorem toComplex_faults :
    FaultsWithin (Fault.RefusesArgument procedure) (argument.toComplex procedure) := by
  unfold toComplex
  split
  · exact .ok _
  · exact .error .notComplex

/-- Reading a list refuses the argument in the name of the procedure, or gives the elements. -/
theorem toElements_faults :
    FaultsWithin (Fault.RefusesArgument procedure) (argument.toElements procedure) := by
  unfold toElements
  split
  · exact .ok _
  · exact .error .notList

end Expression

/-! ## Heeding an arity -/

/-- A procedure that refuses exactly the numbers of arguments outside of an arity, and that
blames single arguments otherwise. -/
structure HeedsArity {α : Type} (procedure : String) (arity : Arity)
    (compute : List Expression → Attempt α) : Prop where
  refuses {arguments : List Expression} (outside : arity.admits arguments.length = false) :
    (compute arguments).run = some (.error (.argumentCount procedure))
  blames {arguments : List Expression} (inside : arity.admits arguments.length = true)
    {fault : Fault} (failed : (compute arguments).run = some (.error fault)) :
    fault.RefusesArgument procedure

namespace HeedsArity

variable {α β : Type} {procedure : String} {arity : Arity}

/-- A procedure that always ends, by its outcome for every number of arguments. -/
theorem ofExcept {compute : List Expression → Except Fault α}
    (each : ∀ arguments,
      arity.admits arguments.length = false ∧
          compute arguments = .error (.argumentCount procedure) ∨
        arity.admits arguments.length = true ∧
          FaultsWithin (Fault.RefusesArgument procedure) (compute arguments)) :
    HeedsArity procedure arity fun arguments => .ofExcept (compute arguments) where
  refuses {arguments} outside := by
    rcases each arguments with ⟨-, refused⟩ | ⟨inside, -⟩
    · exact congrArg some refused
    · exact absurd inside (by simp [outside])
  blames {arguments} inside {fault} failed := by
    rcases each arguments with ⟨outside, -⟩ | ⟨-, blamed⟩
    · exact absurd inside (by simp [outside])
    · exact blamed fault (Option.some.inj failed)

/-- What comes after the arguments have been taken apart only blames single arguments. -/
theorem bind {unpack : List Expression → Except Fault α} {next : α → Except Fault β}
    (first : HeedsArity procedure arity fun arguments => .ofExcept (unpack arguments))
    (second : ∀ value, FaultsWithin (Fault.RefusesArgument procedure) (next value)) :
    HeedsArity procedure arity fun arguments => .ofExcept (unpack arguments >>= next) := by
  refine ofExcept fun arguments => ?_
  cases inside : arity.admits arguments.length with
  | false =>
      have refused : unpack arguments = .error (.argumentCount procedure) :=
        Option.some.inj (first.refuses inside)
      exact .inl ⟨rfl, refused ▸ rfl⟩
  | true =>
      have blamed : FaultsWithin (Fault.RefusesArgument procedure) (unpack arguments) :=
        fun fault failed => first.blames inside (congrArg some failed)
      exact .inr ⟨rfl, blamed.bind second⟩

/-- What raises no fault may follow, even if it does not end. -/
theorem andThen {unpack : List Expression → Attempt α} {next : α → Attempt β}
    (first : HeedsArity procedure arity unpack)
    (second : ∀ value fault, (next value).run ≠ some (.error fault)) :
    HeedsArity procedure arity fun arguments => unpack arguments >>= next where
  refuses {arguments} outside := by
    rw [Attempt.run_bind, first.refuses outside]
  blames {arguments} inside {fault} failed := by
    rw [Attempt.run_bind] at failed
    cases outcome : (unpack arguments).run with
    | none => simp [outcome] at failed
    | some ended =>
        cases ended with
        | error other =>
            obtain rfl : other = fault := by simpa [outcome] using failed
            exact first.blames inside outcome
        | ok value =>
            rw [outcome] at failed
            exact absurd failed (second value fault)

section

variable {compute : List Expression → Attempt α} (heeds : HeedsArity procedure arity compute)

include heeds

/-- Only a number of arguments outside of the arity is refused. -/
theorem argumentCount_iff (arguments : List Expression) :
    (∃ other, (compute arguments).run = some (.error (.argumentCount other))) ↔
      arity.admits arguments.length = false := by
  cases admitted : arity.admits arguments.length with
  | false => exact iff_of_true ⟨procedure, heeds.refuses admitted⟩ rfl
  | true =>
      refine iff_of_false ?_ (by simp)
      rintro ⟨other, failed⟩
      exact (heeds.blames admitted failed).ne_argumentCount rfl

/-- Every fault names the procedure. -/
theorem blamed?_eq {arguments : List Expression} {fault : Fault}
    (failed : (compute arguments).run = some (.error fault)) :
    fault.blamed? = some procedure := by
  cases admitted : arity.admits arguments.length with
  | false =>
      obtain rfl : fault = .argumentCount procedure := by
        simpa [heeds.refuses admitted] using failed.symm
      rfl
  | true => exact (heeds.blames admitted failed).blamed?_eq

end

end HeedsArity

/-! ## Arithmetic -/

namespace Arithmetic

section

variable (procedure : String)

/-- Taking a single argument apart refuses every other number of arguments. -/
theorem single_heeds :
    HeedsArity procedure (.exactly 1) fun arguments => .ofExcept (single procedure arguments) := by
  refine .ofExcept fun arguments => ?_
  rcases arguments with _ | ⟨argument, _ | ⟨next, others⟩⟩
  · exact .inl ⟨rfl, rfl⟩
  · exact .inr ⟨rfl, .ok argument⟩
  · exact .inl ⟨rfl, rfl⟩

/-- Taking two arguments apart refuses every other number of arguments. -/
theorem pair_heeds :
    HeedsArity procedure (.exactly 2) fun arguments => .ofExcept (pair procedure arguments) := by
  refine .ofExcept fun arguments => ?_
  rcases arguments with _ | ⟨left, _ | ⟨right, _ | ⟨next, others⟩⟩⟩
  · exact .inl ⟨rfl, rfl⟩
  · exact .inl ⟨rfl, rfl⟩
  · exact .inr ⟨rfl, .ok (left, right)⟩
  · exact .inl ⟨rfl, rfl⟩

/-- An operation on one quantity can only refuse its argument. -/
theorem transform_faults (onReal : Float → Float) (onComplex : Complex → Complex)
    (argument : Expression) :
    FaultsWithin (Fault.RefusesArgument procedure)
      (transform procedure onReal onComplex argument) := by
  refine (argument.toQuantity_faults procedure).bind fun quantity => ?_
  cases quantity with
  | real => exact .ok _
  | complex => exact .ok _

/-- An operation on two quantities can only refuse one of them. -/
theorem combine_faults (onReals : Float → Float → Float)
    (onComplex : Complex → Complex → Complex) (left right : Expression) :
    FaultsWithin (Fault.RefusesArgument procedure)
      (combine procedure onReals onComplex left right) := by
  refine (left.toQuantity_faults procedure).bind fun first => ?_
  refine (right.toQuantity_faults procedure).bind fun second => ?_
  split
  · exact .ok _
  · exact .ok _

/-- A fold takes any number of arguments. -/
theorem fold_heeds (identity : Float) (onReals : Float → Float → Float)
    (onComplex : Complex → Complex → Complex) :
    HeedsArity procedure .anyNumber fun arguments =>
      .ofExcept (fold procedure identity onReals onComplex arguments) := by
  refine .ofExcept fun arguments => .inr ⟨rfl, ?_⟩
  have read := FaultsWithin.mapM (fun argument => argument.toQuantity_faults procedure) arguments
  refine read.bind fun quantities => ?_
  split
  · exact .ok _
  · exact .ok _

/-- One argument is transformed, and two are combined. -/
theorem oneOrTwo_heeds {compute : List Expression → Except Fault Expression}
    (none : compute [] = .error (.argumentCount procedure))
    (one : ∀ argument, FaultsWithin (Fault.RefusesArgument procedure) (compute [argument]))
    (two : ∀ left right, FaultsWithin (Fault.RefusesArgument procedure) (compute [left, right]))
    (more : ∀ first second third others,
      compute (first :: second :: third :: others) = .error (.argumentCount procedure)) :
    HeedsArity procedure .oneOrTwo fun arguments => .ofExcept (compute arguments) := by
  refine .ofExcept fun arguments => ?_
  rcases arguments with _ | ⟨first, _ | ⟨second, _ | ⟨third, others⟩⟩⟩
  · exact .inl ⟨rfl, none⟩
  · exact .inr ⟨rfl, one first⟩
  · exact .inr ⟨rfl, two first second⟩
  · exact .inl ⟨rfl, more first second third others⟩

/-- A function of a real number takes exactly one argument and may refuse what it is. -/
theorem realFunction_heeds (function : Float → Float) :
    HeedsArity procedure (.exactly 1) fun arguments =>
      .ofExcept (realFunction procedure function arguments) :=
  (single_heeds procedure).bind fun argument =>
    (argument.toNumber_faults procedure).bind fun _ => .ok _

/-- A function of a complex number takes exactly one argument and may refuse what it is. -/
theorem complexFunction_heeds (function : Complex → Expression) :
    HeedsArity procedure (.exactly 1) fun arguments =>
      .ofExcept (complexFunction procedure function arguments) :=
  (single_heeds procedure).bind fun argument =>
    (argument.toComplex_faults procedure).bind fun _ => .ok _

end

/-- The name that subtraction and negation spell is `-`, for counts and for arguments. -/
theorem difference_heeds :
    HeedsArity "-" .oneOrTwo fun arguments => .ofExcept (difference arguments) :=
  oneOrTwo_heeds "-" rfl (transform_faults "-" _ _) (combine_faults "-" _ _) fun _ _ _ _ => rfl

/-- The name that division and inversion spell is `/`, for counts and for arguments. -/
theorem quotient_heeds :
    HeedsArity "/" .oneOrTwo fun arguments => .ofExcept (quotient arguments) :=
  oneOrTwo_heeds "/" rfl (transform_faults "/" _ _) (combine_faults "/" _ _) fun _ _ _ _ => rfl

/-- Raising to a power takes two arguments and spells the name `^` at each fault. -/
theorem power_heeds :
    HeedsArity "^" (.exactly 2) fun arguments => .ofExcept (power arguments) :=
  (pair_heeds "^").bind fun operands => combine_faults "^" _ _ operands.1 operands.2

/-- The square root takes one argument and spells the name `sqrt` at each fault. -/
theorem squareRoot_heeds :
    HeedsArity "sqrt" (.exactly 1) fun arguments => .ofExcept (squareRoot arguments) := by
  refine (single_heeds "sqrt").bind fun argument => ?_
  refine (argument.toQuantity_faults "sqrt").bind fun quantity => ?_
  cases quantity with
  | real x =>
      dsimp only
      split
      · exact .ok _
      · exact .ok _
  | complex z => exact .ok _

/-- The logarithm takes one argument and spells the name `ln`, also where it refuses a number that
is not positive. -/
theorem logarithm_heeds :
    HeedsArity "ln" (.exactly 1) fun arguments => .ofExcept (logarithm arguments) :=
  (single_heeds "ln").bind fun argument =>
    (argument.toNumber_faults "ln").bind fun _ =>
      (FaultsWithin.check (.outside .notPositive)).bind fun _ => .ok _

end Arithmetic

/-! ## Lists -/

namespace Sequence

open Arithmetic (single_heeds pair_heeds)

/-- A list takes any number of arguments, whatever its name is. -/
theorem list_heeds (procedure : String) :
    HeedsArity procedure .anyNumber fun arguments => .ofExcept (list arguments) :=
  .ofExcept fun _ => .inr ⟨rfl, .ok _⟩

/-- The first element is taken of one list; an empty one is refused in the name of `first`. -/
theorem first_heeds :
    HeedsArity "first" (.exactly 1) fun arguments => .ofExcept (first arguments) := by
  refine (single_heeds "first").bind fun argument => ?_
  refine (argument.toElements_faults "first").bind fun elements => ?_
  cases elements with
  | nil => exact .error .short
  | cons element others => exact .ok element

/-- The rest is taken of one list; a list of one element is refused in the name of `rest` like an
empty one. -/
theorem rest_heeds :
    HeedsArity "rest" (.exactly 1) fun arguments => .ofExcept (rest arguments) := by
  refine (single_heeds "rest").bind fun argument => ?_
  refine (argument.toElements_faults "rest").bind fun elements => ?_
  rcases elements with _ | ⟨element, _ | ⟨next, others⟩⟩
  · exact .error .short
  · exact .error .short
  · exact .ok _

/-- A count is refused only because it is too large. -/
theorem countToNumber_faults (procedure : String) (count : Nat) :
    FaultsWithin (Fault.RefusesArgument procedure) (countToNumber procedure count) := by
  unfold countToNumber
  split
  · exact .error (.outside .tooLarge)
  · exact .ok _

/-- The length is taken of one list and refused in the name of `length`, also where no number
counts that far. -/
theorem length_heeds :
    HeedsArity "length" (.exactly 1) fun arguments => .ofExcept (length arguments) :=
  (single_heeds "length").bind fun argument =>
    (argument.toElements_faults "length").bind fun elements =>
      (countToNumber_faults "length" elements.length).bind fun _ => .ok _

/-- An element is appended to one list; the element may be anything, so only the list
is refused. -/
theorem append_heeds :
    HeedsArity "append" (.exactly 2) fun arguments => .ofExcept (append arguments) :=
  (pair_heeds "append").bind fun operands =>
    (operands.1.toElements_faults "append").bind fun _ => .ok _

/-- Two lists are joined, and `join` refuses either one that is no list. -/
theorem join_heeds :
    HeedsArity "join" (.exactly 2) fun arguments => .ofExcept (join arguments) :=
  (pair_heeds "join").bind fun operands =>
    (operands.1.toElements_faults "join").bind fun _ =>
      (operands.2.toElements_faults "join").bind fun _ => .ok _

/-- A range takes three numbers; each check that they fail is raised in the name of `range`. -/
theorem interval_heeds :
    HeedsArity "range" (.exactly 3) fun arguments => .ofExcept (interval arguments) := by
  refine .ofExcept fun arguments => ?_
  rcases arguments with _ | ⟨low, _ | ⟨high, _ | ⟨step, _ | ⟨next, others⟩⟩⟩⟩
  · exact .inl ⟨rfl, rfl⟩
  · exact .inl ⟨rfl, rfl⟩
  · exact .inl ⟨rfl, rfl⟩
  · refine .inr ⟨rfl, ?_⟩
    refine (low.toNumber_faults "range").bind fun first => ?_
    refine (high.toNumber_faults "range").bind fun last => ?_
    refine (step.toNumber_faults "range").bind fun increment => ?_
    refine (FaultsWithin.check (.outside .notFinite)).bind fun _ => ?_
    refine (FaultsWithin.check (.outside .emptyInterval)).bind fun _ => ?_
    exact (FaultsWithin.check (.outside .noProgress)).bind fun _ => .ok _
  · exact .inl ⟨rfl, rfl⟩

end Sequence

/-! ## The table and the procedures -/

namespace Builtin

/-- The numbers of arguments that a procedure takes as far as it checks them by itself. The
product multiplies a single factor, too. -/
def ownArity : Builtin → Arity
  | multiply => .anyNumber
  | builtin => builtin.arity

/-- A procedure refuses what the table does, if it is not the product. -/
theorem admits_ownArity_eq_false_iff {builtin : Builtin} {count : Nat} :
    builtin.ownArity.admits count = false ↔
      builtin.arity.admits count = false ∧ builtin ≠ .multiply := by
  cases builtin with
  | multiply => simp [ownArity, Arity.admits]
  | _ => simp [ownArity]

/-- Taking the samples of an interval may not end, but it raises no fault. -/
theorem computeRange_heeds : HeedsArity "range" (.exactly 3) computeRange := by
  refine Sequence.interval_heeds.andThen fun interval fault failed => ?_
  rw [Attempt.run_bind] at failed
  cases samples : interval.samples with
  | none => simp [samples, Attempt.ofOption] at failed
  | some numbers => simp [samples, Attempt.ofOption] at failed

/-- Each procedure by itself heeds its own arity, and the name that it spells in its faults is
its name in the table. -/
theorem compute_heeds (builtin : Builtin) :
    HeedsArity builtin.name builtin.ownArity builtin.compute := by
  -- The lemma of each procedure is about the name that the procedure spells, and the goal about
  -- the name in the table, so every case also compares the two.
  cases builtin with
  | add => exact Arithmetic.fold_heeds "+" _ _ _
  | subtract => exact Arithmetic.difference_heeds
  | multiply => exact Arithmetic.fold_heeds "*" _ _ _
  | divide => exact Arithmetic.quotient_heeds
  | power => exact Arithmetic.power_heeds
  | squareRoot => exact Arithmetic.squareRoot_heeds
  | logarithm => exact Arithmetic.logarithm_heeds
  | sine => exact Arithmetic.realFunction_heeds "sin" _
  | cosine => exact Arithmetic.realFunction_heeds "cos" _
  | tangent => exact Arithmetic.realFunction_heeds "tan" _
  | realPart => exact Arithmetic.complexFunction_heeds "real" _
  | imaginaryPart => exact Arithmetic.complexFunction_heeds "imag" _
  | argument => exact Arithmetic.complexFunction_heeds "arg" _
  | conjugate => exact Arithmetic.complexFunction_heeds "conj" _
  | modulus => exact Arithmetic.complexFunction_heeds "mag" _
  | list => exact Sequence.list_heeds _
  | first => exact Sequence.first_heeds
  | rest => exact Sequence.rest_heeds
  | length => exact Sequence.length_heeds
  | append => exact Sequence.append_heeds
  | join => exact Sequence.join_heeds
  | range => exact computeRange_heeds

/-- Through the table, each procedure heeds its arity. -/
theorem call_heeds (builtin : Builtin) :
    HeedsArity builtin.name builtin.arity builtin.call where
  refuses {arguments} outside := by
    rw [call, if_neg (by simp [outside])]
    rfl
  blames {arguments} inside {fault} failed := by
    rw [call, if_pos inside] at failed
    have own : builtin.ownArity.admits arguments.length = true := by
      rw [← Bool.not_eq_false, admits_ownArity_eq_false_iff]
      simp [inside]
    exact builtin.compute_heeds.blames own failed

/-- A call is refused for the number of its arguments if and only if the arity in the table says
so. A procedure by itself refuses the same numbers of arguments, and so none that the table has
accepted; only the product refuses none at all. Whatever fault a call raises, it names the
procedure that was called. -/
theorem faults_agree_with_table (builtin : Builtin) (arguments : List Expression) :
    ((∃ procedure, (builtin.call arguments).run = some (.error (.argumentCount procedure))) ↔
        builtin.arity.admits arguments.length = false) ∧
      ((∃ procedure, (builtin.compute arguments).run = some (.error (.argumentCount procedure))) ↔
        builtin.arity.admits arguments.length = false ∧ builtin ≠ .multiply) ∧
      ∀ fault, (builtin.call arguments).run = some (.error fault) →
        fault.blamed? = some builtin.name := by
  refine ⟨builtin.call_heeds.argumentCount_iff arguments, ?_, fun fault failed => ?_⟩
  · rw [builtin.compute_heeds.argumentCount_iff, admits_ownArity_eq_false_iff]
  · exact builtin.call_heeds.blamed?_eq failed

end Builtin

end PlotLisp
