import PlotLisp.Evaluation.Basic
import PlotLisp.Proofs.Correspondence.Plots

/-!
# Matching turns

Two evaluations are compared under a correspondence, which says what matches: names,
programs, values, environments and faults. The laws of a correspondence speak of the data
only. This module derives from them that the building blocks of the forms match, given
two evaluators for their parts that do.
-/

namespace PlotLisp

/-- What is compared with what in two evaluations. -/
structure Correspondence where
  Names : String → String → Prop
  Programs : Expression → Expression → Prop
  Values : Expression → Expression → Prop
  Environments : Environment → Environment → Prop
  Faults : Fault → Fault → Prop

/-- Faults with the same cause and matching names in it. The one cause that is missing is an
attempt to bind something other than a symbol. -/
inductive Fault.Alike (Names : String → String → Prop) : Fault → Fault → Prop where
  | blaming {fault : Fault} {form : String} (blamed : fault.blamed? = some form) :
      Alike Names fault fault
  | absentTerminal : Alike Names .absentTerminal .absentTerminal
  | constantHead {head : Atom} (constant : head.symbol? = none) :
      Alike Names (.notAProcedure head.render) (.notAProcedure head.render)
  | unknownSymbol {name other : String} (names : Names name other) :
      Alike Names (.unknownSymbol name) (.unknownSymbol other)
  | keywordRedefinition {name other : String} (names : Names name other) :
      Alike Names (.keywordRedefinition name) (.keywordRedefinition other)
  | builtinRedefinition {name other : String} (names : Names name other) :
      Alike Names (.builtinRedefinition name) (.builtinRedefinition other)
  | symbolRedefinition {name other : String} (names : Names name other) :
      Alike Names (.symbolRedefinition name) (.symbolRedefinition other)
  | notAProcedure {name other : String} (names : Names name other) :
      Alike Names (.notAProcedure name) (.notAProcedure other)

/-- Where only equal names match, only equal faults are alike. -/
theorem Fault.Alike.eq {Names : String → String → Prop} {fault other : Fault}
    (alike : fault.Alike Names other) (names : ∀ name other, Names name other → name = other) :
    fault = other := by
  cases alike with
  | blaming | absentTerminal | constantHead => rfl
  | unknownSymbol same | keywordRedefinition same | builtinRedefinition same
  | symbolRedefinition same | notAProcedure same => rw [names _ _ same]

namespace Correspondence

/-- Heads match when they are the same constant or symbols with matching names. -/
inductive Heads (correspondence : Correspondence) : Atom → Atom → Prop where
  | constant {head : Atom} (constant : head.symbol? = none) : Heads correspondence head head
  | symbol {name other : String} (names : correspondence.Names name other) :
      Heads correspondence (.symbol name) (.symbol other)

/-- A head matches itself if its name does. -/
theorem Heads.itself {correspondence : Correspondence} {head : Atom}
    (names : ∀ name, head = .symbol name → correspondence.Names name name) :
    correspondence.Heads head head := by
  cases head with
  | symbol name => exact .symbol (names name rfl)
  | absent | number | complex | text => exact .constant rfl

/-- Matching names denote the same procedure or matching values. -/
inductive Bindings (correspondence : Correspondence) : Binding → Binding → Prop where
  | procedure (builtin : Builtin) :
      Bindings correspondence (.procedure builtin) (.procedure builtin)
  | value {value other : Expression} (values : correspondence.Values value other) :
      Bindings correspondence (.value value) (.value other)

/-- Frames match in their environments, and in their children one by one. -/
structure Frames (correspondence : Correspondence) (frame other : TurnFrame) : Prop where
  environments : correspondence.Environments frame.environment other.environment
  children : List.Forall₂ correspondence.Programs frame.children other.children

/-- Evaluations match in all that they leave behind. -/
structure Evaluations (correspondence : Correspondence) (evaluation other : Evaluation) :
    Prop where
  outcomes : Matches correspondence.Faults correspondence.Values evaluation.outcome other.outcome
  programs : correspondence.Programs evaluation.program other.program
  environments : correspondence.Environments evaluation.environment other.environment

/-- Matching programs, evaluated in matching environments, lead to matching evaluations, or
neither of them ends. -/
def Evaluators (correspondence : Correspondence) (evaluate other : Evaluator) : Prop :=
  ∀ {program program' : Expression} {environment environment' : Environment},
    correspondence.Programs program program' →
    correspondence.Environments environment environment' →
    Option.Rel correspondence.Evaluations (evaluate program environment)
      (other program' environment')

/-- What evaluation asks of a correspondence as long as no name is bound. -/
structure StaticLaws (correspondence : Correspondence) : Prop where
  data : DataCorrespondence correspondence.Values
  faults {fault other : Fault} (alike : fault.Alike correspondence.Names other) :
    correspondence.Faults fault other
  /-- Names match only if the same form is found under them. -/
  keyword {name other : String} (names : correspondence.Names name other) :
    Keyword.ofName? name = Keyword.ofName? other
  builtin {name other : String} (names : correspondence.Names name other) :
    Builtin.isName name = Builtin.isName other
  listName {name other : String} (names : correspondence.Names name other) :
    name = Expression.listName ↔ other = Expression.listName
  heads {program other : Expression} (programs : correspondence.Programs program other) :
    correspondence.Heads program.head other.head
  children {program other : Expression} (programs : correspondence.Programs program other) :
    List.Forall₂ correspondence.Programs program.children other.children
  /-- Programs still match when their children are replaced by others that match. -/
  rebuild {head other : Atom} {children children' former former' : List Expression}
    {properties properties' : Table Expression}
    (programs : correspondence.Programs (.node head former properties)
      (.node other former' properties'))
    (related : List.Forall₂ correspondence.Programs children children') :
    correspondence.Programs (.node head children properties) (.node other children' properties')
  absent : correspondence.Programs .absent .absent
  decorate {program other value value' : Expression} (tag : String)
    (programs : correspondence.Programs program other)
    (values : correspondence.Values value value') :
    correspondence.Programs (program.withProperty tag value) (other.withProperty tag value')
  /-- Values may be evaluated once more. -/
  ofValues {value other : Expression} (values : correspondence.Values value other) :
    correspondence.Programs value other
  /-- Procedure values only have to match where programs can build them. -/
  lambda {program program' : Expression} (programs : correspondence.Programs program program')
    (building : program.head = .symbol Keyword.lambda.name)
    {names others : List String} {body other : Expression}
    (parameters : List.Forall₂ correspondence.Names names others)
    (free : ∀ name ∈ names, Builtin.isName name = false)
    (bodies : correspondence.Programs body other) :
    correspondence.Values (.lambda (.list (names.map .symbol)) body)
      (.lambda (.list (others.map .symbol)) other)
  parameterCount {value other : Expression} (values : correspondence.Values value other)
    (isLambda : value.isLambda = true) :
    (Callable.lambda value).parameterCount? = (Callable.lambda other).parameterCount?
  /-- Properties only have to match where programs can read them. -/
  property {program program' value other : Expression}
    (programs : correspondence.Programs program program')
    (reading : program.head = .symbol Keyword.getProperty.name)
    (values : correspondence.Values value other) (tag : String) :
    Option.Rel correspondence.Values (value.property? tag) (other.property? tag)
  found {name other : String} {environment environment' : Environment}
    (names : correspondence.Names name other)
    (environments : correspondence.Environments environment environment') :
    Option.Rel correspondence.Bindings (environment.find? name) (environment'.find? other)

/-- What evaluation asks of a correspondence. -/
structure Laws (correspondence : Correspondence) : Prop extends StaticLaws correspondence where
  define {name other : String} {environment environment' : Environment}
    {value value' : Expression} (names : correspondence.Names name other)
    (environments : correspondence.Environments environment environment')
    (values : correspondence.Values value value') :
    Matches correspondence.Faults correspondence.Environments (environment.define name value)
      (environment'.define other value')
  call {evaluate other : Evaluator} {lambda lambda' : Expression}
    {arguments arguments' : List Expression} {environment environment' : Environment}
    (evaluators : correspondence.Evaluators evaluate other)
    (lambdas : correspondence.Values lambda lambda') (isLambda : lambda.isLambda = true)
    (related : List.Forall₂ correspondence.Values arguments arguments')
    (environments : correspondence.Environments environment environment') :
    Attempt.Matches correspondence.Faults correspondence.Values
      (callLambda evaluate lambda arguments environment)
      (callLambda other lambda' arguments' environment')

namespace Laws

variable {correspondence : Correspondence} (laws : correspondence.Laws)

include laws

/-- A fault that blames a form or a procedure matches itself. -/
theorem blames {fault : Fault} {form : String} (blamed : fault.blamed? = some form) :
    correspondence.Faults fault fault :=
  laws.faults (.blaming blamed)

/-- Matching programs are leaves together. -/
theorem isLeaf {program other : Expression}
    (programs : correspondence.Programs program other) : program.isLeaf = other.isLeaf := by
  unfold Expression.isLeaf
  rw [Bool.eq_iff_iff, List.isEmpty_iff_length_eq_zero, List.isEmpty_iff_length_eq_zero,
    (laws.children programs).length_eq]

/-- Only programs that are lists match those that are. -/
theorem isSymbol_listName {head other : Atom} (heads : correspondence.Heads head other) :
    head.isSymbol Expression.listName = other.isSymbol Expression.listName := by
  cases heads with
  | constant => rfl
  | symbol names =>
      rw [Bool.eq_iff_iff]
      simp [Atom.isSymbol, Atom.symbol?, laws.listName names]

/-- Matching programs are bare symbols together, with matching names. -/
theorem bareSymbol? {program other : Expression}
    (programs : correspondence.Programs program other) :
    Option.Rel correspondence.Names program.bareSymbol? other.bareSymbol? := by
  have heads := laws.heads programs
  unfold Expression.bareSymbol?
  rw [laws.isLeaf programs]
  generalize program.head = head at heads
  generalize other.head = head' at heads
  split
  · cases heads with
    | constant constant =>
        rw [constant]
        exact .none
    | symbol names => exact .some names
  · exact .none

/-- Matching programs spell the same text, or neither of them does. -/
theorem toContent {program other : Expression} (form : String)
    (programs : correspondence.Programs program other) :
    Matches correspondence.Faults Eq (program.toContent form) (other.toContent form) := by
  have heads := laws.heads programs
  unfold Expression.toContent
  rw [laws.isLeaf programs]
  generalize program.head = head at heads
  generalize other.head = head' at heads
  cases heads with
  | constant =>
      split
      · exact .ok rfl
      · exact .error (laws.blames rfl)
  | symbol => exact .error (laws.blames rfl)

end Laws

end Correspondence

namespace Turn

variable {α β γ δ : Type} {correspondence : Correspondence}

/-- From matching frames, both turns give up, or both end with matching outcomes and leave
matching frames behind. -/
def Matches (correspondence : Correspondence) (Yields : α → β → Prop) (left : Turn α)
    (right : Turn β) : Prop :=
  ∀ frame other, correspondence.Frames frame other →
    Option.Rel
      (fun result result' => PlotLisp.Matches correspondence.Faults Yields result.1 result'.1 ∧
        correspondence.Frames result.2 result'.2)
      (left.runOn frame) (right.runOn other)

namespace Matches

variable {Yields : α → β → Prop} {Results : γ → δ → Prop}

/-- Turns that only give matching values match. -/
theorem pure {value : α} {other : β} (values : Yields value other) :
    Matches correspondence Yields (pure value) (pure other) :=
  fun _ _ frames => .some ⟨.ok values, frames⟩

/-- Turns that only raise matching faults match; the frames stay as they were. -/
theorem throw {fault other : Fault} (faults : correspondence.Faults fault other) :
    Matches correspondence Yields (throw fault) (throw other) :=
  fun _ _ frames => .some ⟨.error faults, frames⟩

/-- Turns that match, one after the other. -/
theorem bind {left : Turn α} {right : Turn β} {next : α → Turn γ} {nextRight : β → Turn δ}
    (first : Matches correspondence Yields left right)
    (second : ∀ value other, Yields value other →
      Matches correspondence Results (next value) (nextRight other)) :
    Matches correspondence Results (left >>= next) (right >>= nextRight) := by
  intro frame other frames
  have firstMatches := first frame other frames
  rw [runOn_bind, runOn_bind]
  generalize left.runOn frame = leftRan at firstMatches ⊢
  generalize right.runOn other = rightRan at firstMatches ⊢
  cases firstMatches with
  | none => exact .none
  | @some result result' both =>
      obtain ⟨outcome, after⟩ := result
      obtain ⟨outcome', after'⟩ := result'
      obtain ⟨outcomes, frames⟩ := both
      cases outcomes with
      | ok values => exact second _ _ values _ _ frames
      | error faults => exact .some ⟨.error faults, frames⟩

/-- Matching outcomes make matching turns, since neither touches its frame. -/
theorem ofExcept {left : Except Fault α} {right : Except Fault β}
    (outcomes : PlotLisp.Matches correspondence.Faults Yields left right) :
    Matches correspondence Yields (MonadExcept.ofExcept left) (MonadExcept.ofExcept right) := by
  intro frame other frames
  rw [runOn_ofExcept, runOn_ofExcept]
  exact .some ⟨outcomes, frames⟩

/-- Matching attempts make matching turns, and giving up on one side is giving up on the other. -/
theorem ofAttempt {left : Attempt α} {right : Attempt β}
    (attempts : Attempt.Matches correspondence.Faults Yields left right) :
    Matches correspondence Yields (ofAttempt left) (ofAttempt right) := by
  intro frame other frames
  rw [runOn_ofAttempt, runOn_ofAttempt]
  unfold Attempt.Matches at attempts
  cases attempts with
  | none => exact .none
  | some outcomes => exact .some ⟨outcomes, frames⟩

end Matches

/-! ## The frame -/

/-- Reading the environment of matching frames gives matching environments. -/
theorem environment_matches :
    Matches correspondence correspondence.Environments environment environment :=
  fun _ _ frames => .some ⟨.ok frames.environments, frames⟩

/-- Reading the children of matching frames gives children that match one by one. -/
theorem children_matches :
    Matches correspondence (List.Forall₂ correspondence.Programs) children children :=
  fun _ _ frames => .some ⟨.ok frames.children, frames⟩

/-- Frames still match after matching environments are put into them. -/
theorem setEnvironment_matches {environment environment' : Environment}
    (environments : correspondence.Environments environment environment') :
    Matches correspondence (fun _ _ => True) (setEnvironment environment)
      (setEnvironment environment') :=
  fun _ _ frames => .some ⟨.ok trivial, environments, frames.children⟩

/-- Frames still match after matching programs are put at the same index, also where there is no
such child. -/
theorem setChild_matches (index : Nat) {child child' : Expression}
    (programs : correspondence.Programs child child') :
    Matches correspondence (fun _ _ => True) (setChild index child) (setChild index child') :=
  fun _ _ frames =>
    .some ⟨.ok trivial, frames.environments, forall₂_set frames.children index programs⟩

section

variable (laws : correspondence.Laws)

include laws

/-- Children at the same index match, also where there is none. -/
theorem getD_matches {items others : List Expression}
    (related : List.Forall₂ correspondence.Programs items others) (index : Nat) :
    correspondence.Programs ((items[index]?).getD .absent) ((others[index]?).getD .absent) := by
  have found := forall₂_getElem? related index
  generalize items[index]? = item at found
  generalize others[index]? = other at found
  cases found with
  | none => exact laws.absent
  | some programs => exact programs

/-- Reading the child at one index of matching frames gives matching programs. -/
theorem child_matches (index : Nat) :
    Matches correspondence correspondence.Programs (child index) (child index) :=
  fun _ _ frames => .some ⟨.ok (getD_matches laws frames.children index), frames⟩

/-! ## Evaluating parts -/

variable {evaluate other : Evaluator} (evaluators : correspondence.Evaluators evaluate other)

include evaluators

/-- Evaluating the child at one index gives matching values, and the evaluated programs and
environments that it leaves in the frames match again. -/
theorem evaluateChild_matches (index : Nat) :
    Matches correspondence correspondence.Values (evaluateChild evaluate index)
      (evaluateChild other index) := by
  intro frame frame' frames
  have programs := getD_matches laws frames.children index
  refine optionRel_map (evaluators programs frames.environments) fun result result' both => ?_
  exact ⟨both.outcomes, both.environments, forall₂_set frames.children index both.programs⟩

/-- Evaluating children from an index on matches, by induction on how many are left. -/
theorem evaluateFrom_matches (count index : Nat) :
    Matches correspondence (List.Forall₂ correspondence.Values)
      (evaluateFrom evaluate index count) (evaluateFrom other index count) := by
  induction count generalizing index with
  | zero => exact .pure .nil
  | succ count inductionHypothesis =>
      refine .bind (evaluateChild_matches laws evaluators index) fun value value' values => ?_
      refine .bind (inductionHypothesis (index + 1)) fun rest rest' others => ?_
      exact .pure (.cons values others)

/-- Evaluating all children matches, since matching frames have as many children. -/
theorem evaluateChildren_matches :
    Matches correspondence (List.Forall₂ correspondence.Values) (evaluateChildren evaluate)
      (evaluateChildren other) := by
  refine .bind children_matches fun children children' related => ?_
  rw [related.length_eq]
  exact evaluateFrom_matches laws evaluators children'.length 0

/-- Evaluating a value that is no child changes environments only, and matches. -/
theorem evaluateLoose_matches {expression expression' : Expression}
    (values : correspondence.Values expression expression') :
    Matches correspondence correspondence.Values (evaluateLoose evaluate expression)
      (evaluateLoose other expression') := by
  intro frame frame' frames
  refine optionRel_map (evaluators (laws.ofValues values) frames.environments)
    fun result result' both => ?_
  exact ⟨both.outcomes, both.environments, frames.children⟩

/-- Evaluating several such values in order matches, by induction on the values. -/
theorem evaluateAllLoose_matches {expressions expressions' : List Expression}
    (related : List.Forall₂ correspondence.Values expressions expressions') :
    Matches correspondence (List.Forall₂ correspondence.Values)
      (evaluateAllLoose evaluate expressions) (evaluateAllLoose other expressions') := by
  induction related with
  | nil => exact .pure .nil
  | cons values _ inductionHypothesis =>
      refine .bind (evaluateLoose_matches laws evaluators values) fun value value' values => ?_
      refine .bind inductionHypothesis fun rest rest' others => ?_
      exact .pure (.cons values others)

end

end Turn

end PlotLisp
