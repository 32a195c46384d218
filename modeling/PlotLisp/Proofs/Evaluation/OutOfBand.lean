import PlotLisp.Proofs.Correspondence.Binding
import PlotLisp.Proofs.Correspondence.Forms
import PlotLisp.Proofs.Environment.Extension
import PlotLisp.Proofs.Expression.Mention

/-!
# Properties are out of band

Properties travel with values through bindings, lists and calls, and evaluation drops them in
some places and keeps them in others. None of this shows where no program reads a property:
two programs with the same skeleton, evaluated in environments with the same skeleton, lead to
the same fault or to values with the same skeleton, whatever is attached to what.
-/

namespace PlotLisp

open Expression

/-- No part of the expression reads a property, bodies of procedure values included. Nothing
is said of what is attached to it, which is out of reach then. -/
def Expression.ReadsNoProperty (expression : Expression) : Prop :=
  expression.skeleton.Avoids Keyword.getProperty.name

/-- The binding without properties in its value. -/
def Binding.skeleton : Binding → Binding
  | value expression => value expression.skeleton
  | procedure builtin => procedure builtin

/-- The environment without properties in any of its values. -/
def Environment.skeleton (environment : Environment) : Environment where
  bindings := environment.bindings.mapEntries id Binding.skeleton

/-- Both evaluations end with the same fault or in values that are the same without
properties, which are written in the same way, and so are the programs and the environments that
they leave behind. -/
structure Evaluation.SameButProperties (evaluation other : Evaluation) : Prop where
  outcome : evaluation.outcome.map Expression.skeleton = other.outcome.map Expression.skeleton
  text : evaluation.outcome.map Expression.text = other.outcome.map Expression.text
  program : evaluation.program.skeleton = other.program.skeleton
  environment : evaluation.environment.skeleton = other.environment.skeleton

namespace Expression.ReadsNoProperty

variable {expression : Expression}

/-- What reads no property is not headed by the form that reads them. -/
theorem head (reads : expression.ReadsNoProperty) :
    expression.head ≠ .symbol Keyword.getProperty.name := by
  rw [← head_skeleton]
  exact Avoids.head reads

/-- The parts of what reads no property read none. -/
theorem child {child : Expression} (reads : expression.ReadsNoProperty)
    (member : child ∈ expression.children) : child.ReadsNoProperty := by
  apply Avoids.child reads
  rw [children_skeleton]
  exact List.mem_map_of_mem member

/-- Constants read nothing. -/
theorem constant {head : Atom} (constant : head.symbol? = none) :
    (Expression.leaf head).ReadsNoProperty :=
  Avoids.constant constant

/-- What has a head of its own and such children reads no property. -/
theorem node {head : Atom} {children : List Expression} {properties : Table Expression}
    (different : head ≠ .symbol Keyword.getProperty.name)
    (parts : ∀ child ∈ children, child.ReadsNoProperty) :
    (Expression.node head children properties).ReadsNoProperty := by
  refine avoids_form_iff.mpr ⟨different, ?_⟩
  rw [skeletons_eq_map, List.forall_mem_map]
  exact parts

/-- What is attached is never read, so attaching it adds no reading. -/
theorem withProperty {property : Expression} (tag : String) (reads : expression.ReadsNoProperty) :
    (expression.withProperty tag property).ReadsNoProperty := by
  unfold ReadsNoProperty
  rw [skeleton_withProperty]
  exact reads

/-- A procedure value reads no property if its body does not and no parameter is called like
the form that reads them. -/
theorem lambda {names : List String} {body : Expression}
    (different : ∀ name ∈ names, name ≠ Keyword.getProperty.name) (reads : body.ReadsNoProperty) :
    (Expression.lambda (.list (names.map .symbol)) body).ReadsNoProperty := by
  have whole := Avoids.lambda (by decide) (by decide) different reads
  rw [← skeleton_list_symbols] at whole
  exact whole

end Expression.ReadsNoProperty

/-- How many parameters a procedure value has is not a matter of properties. -/
theorem Callable.parameterCount?_skeleton (value : Expression) :
    (lambda value.skeleton).parameterCount? = (lambda value).parameterCount? := by
  simp [parameterCount?, List.head?_map, Function.comp_def]

namespace Environment

variable {environment : Environment} {name : String} {value : Expression}

/-- Names denote the same without properties, up to the properties of what they denote. -/
theorem find?_skeleton :
    environment.skeleton.find? name = (environment.find? name).map Binding.skeleton :=
  Table.find?_mapEntries Function.injective_id environment.bindings name

/-- Binding a name and erasing properties commute. -/
theorem skeleton_bindName :
    (environment.bindName name value).skeleton = environment.skeleton.bindName name value.skeleton :=
  congrArg Environment.mk
    (Table.mapEntries_insert Function.injective_id environment.bindings name (.value value))

/-- An environment with its properties erased has none left. -/
theorem skeleton_skeleton : environment.skeleton.skeleton = environment.skeleton := by
  have once : Binding.skeleton ∘ Binding.skeleton = Binding.skeleton := by
    funext binding
    cases binding with
    | value expression => exact congrArg Binding.value expression.skeleton_skeleton
    | procedure => rfl
  apply congrArg Environment.mk
  rw [skeleton, Table.mapEntries_mapEntries, once, Function.comp_id]

end Environment

/-- Everything matches what has the same skeleton, if it reads no property. -/
def Correspondence.outOfBand : Correspondence where
  Names name other := name ≠ Keyword.getProperty.name ∧ name = other
  Programs program other := program.ReadsNoProperty ∧ program.skeleton = other.skeleton
  Values value other := value.ReadsNoProperty ∧ value.skeleton = other.skeleton
  Environments environment other :=
    environment.Holds ReadsNoProperty ∧ environment.skeleton = other.skeleton
  Faults := Eq

namespace Correspondence

/-- Expressions with the same skeleton have the same head. -/
theorem head_eq_of_skeleton {expression other : Expression}
    (same : expression.skeleton = other.skeleton) : expression.head = other.head := by
  rw [← head_skeleton, same, head_skeleton]

/-- Expressions with the same skeleton have children with the same skeletons. -/
theorem map_skeleton_children {expression other : Expression}
    (same : expression.skeleton = other.skeleton) :
    expression.children.map skeleton = other.children.map skeleton := by
  rw [← children_skeleton, same, children_skeleton]

/-- Bindings with the same skeleton match. -/
theorem bindings_of_skeleton {binding other : Binding} (same : binding.skeleton = other.skeleton)
    (reads : ∀ value, binding = .value value → value.ReadsNoProperty) :
    outOfBand.Bindings binding other := by
  cases binding with
  | value value =>
      cases other with
      | value other => exact .value ⟨reads value rfl, Binding.value.inj same⟩
      | procedure => cases same
  | procedure builtin =>
      cases other with
      | value => cases same
      | procedure other =>
          cases same
          exact .procedure builtin

/-- The children of matching expressions match one by one. -/
theorem outOfBand_children {expression other : Expression}
    (related : outOfBand.Programs expression other) :
    List.Forall₂ outOfBand.Programs expression.children other.children := by
  obtain ⟨reads, same⟩ := related
  exact forall₂_view_eq_iff.mpr ⟨fun _ member => reads.child member, map_skeleton_children same⟩

/-- Procedures cannot tell values with the same skeleton apart, since they read heads
and children. -/
theorem outOfBand_data : DataCorrespondence outOfBand.Values where
  head values := head_eq_of_skeleton values.2
  length values := by
    simpa using congrArg List.length (map_skeleton_children values.2)
  elements values _ := outOfBand_children values
  constant constant := ⟨.constant constant, rfl⟩
  list related := by
    obtain ⟨reads, same⟩ := forall₂_view_eq_iff.mp related
    refine ⟨.node (by decide) reads, ?_⟩
    simp only [Expression.list, form, skeleton, skeletons_eq_map, same]
  withProperty tag values _ := by
    refine ⟨values.1.withProperty tag, ?_⟩
    rw [skeleton_withProperty, skeleton_withProperty, values.2]

/-- The static laws hold: only reading a property could tell the two sides apart, and no program
here does so. -/
theorem outOfBand_static : outOfBand.StaticLaws where
  data := outOfBand_data
  faults alike := alike.eq fun _ _ names => names.2
  keyword names := names.2 ▸ rfl
  builtin names := names.2 ▸ rfl
  listName names := names.2 ▸ .rfl
  heads := by
    rintro program other ⟨reads, same⟩
    -- Only the form that reads a property tells the two apart, and the program has no such form.
    rw [← head_eq_of_skeleton same]
    refine .itself fun name headed => ⟨?_, rfl⟩
    rintro rfl
    exact reads.head headed
  children := outOfBand_children
  rebuild := by
    rintro head other children children' former former' properties properties' ⟨reads, same⟩ related
    obtain ⟨parts, sameParts⟩ := forall₂_view_eq_iff.mp related
    refine ⟨.node reads.head parts, ?_⟩
    have heads : head = other := head_eq_of_skeleton same
    simp only [skeleton, skeletons_eq_map, heads, sameParts]
  absent := ⟨.constant rfl, rfl⟩
  decorate tag programs values := outOfBand_data.withProperty tag programs values
  ofValues values := values
  lambda := by
    rintro _ _ - - names others body other parameters - ⟨reads, same⟩
    obtain ⟨different, rfl⟩ := forall₂_eq_iff.mp parameters
    constructor
    · exact ReadsNoProperty.lambda different reads
    · simp only [Expression.lambda, form, skeleton, skeletons, same]
  parameterCount := by
    rintro value other ⟨-, same⟩ -
    rw [← Callable.parameterCount?_skeleton, same, Callable.parameterCount?_skeleton]
  property programs reading := absurd reading programs.1.head
  found := by
    rintro name _ environment other ⟨-, rfl⟩ ⟨holds, same⟩
    have found : (environment.find? name).map Binding.skeleton =
        (other.find? name).map Binding.skeleton := by
      rw [← Environment.find?_skeleton, same, Environment.find?_skeleton]
    cases bound : environment.find? name with
    | none =>
        rw [bound] at found
        rw [Option.map_eq_none_iff.mp found.symm]
        exact .none
    | some binding =>
        rw [bound] at found
        obtain ⟨binding', bound', looks⟩ := Option.map_eq_some_iff.mp found.symm
        rw [bound']
        exact .some (bindings_of_skeleton looks.symm fun value denotes =>
          holds name value (denotes ▸ bound))

/-- Binding matching values under a name leaves environments that match. -/
theorem outOfBand_binds : outOfBand.BindsNames := by
  rintro name _ environment other value value' ⟨-, rfl⟩ ⟨holds, same⟩ ⟨reads, sameValue⟩
  refine ⟨holds.bindName reads, ?_⟩
  rw [Environment.skeleton_bindName, Environment.skeleton_bindName, same, sameValue]

/-- All laws hold, so every evaluation matches itself out of band. -/
theorem outOfBand_laws : outOfBand.Laws :=
  outOfBand_static.toLaws outOfBand_binds rfl

end Correspondence

/-- Programs that differ in properties only, in environments that do, are evaluated to the
same but for properties, if none is read. -/
theorem evaluate_sameButProperties {expression other : Expression}
    {environment environment' : Environment} (reads : expression.ReadsNoProperty)
    (holds : environment.Holds ReadsNoProperty) (sameProgram : expression.skeleton = other.skeleton)
    (sameEnvironment : environment.skeleton = environment'.skeleton) (depth : Nat) :
    Option.Rel Evaluation.SameButProperties (evaluate depth expression environment)
      (evaluate depth other environment') := by
  have matching := Correspondence.evaluate_matches Correspondence.outOfBand_laws depth
    ⟨reads, sameProgram⟩ ⟨holds, sameEnvironment⟩
  apply optionRel_imp matching
  rintro evaluation other ⟨outcomes, programs, environments⟩
  constructor
  case outcome => exact outcomes.map_eq (fun _ _ same => same) fun _ _ values => values.2
  case program => exact programs.2
  case environment => exact environments.2
  case text =>
    refine outcomes.map_eq (fun _ _ same => same) fun value value' values => ?_
    rw [← text_skeleton, values.2, text_skeleton]

/-- If neither a program nor any value in its environment reads a property, then at every depth
erasing all properties of both leads to the same end: the same fault, or the same value and
the same environment, once properties are erased. More generally, attaching and dropping
properties anywhere in the program or in the environment never changes a fault, a written
result, or a binding. -/
theorem properties_are_out_of_band {expression : Expression} {environment : Environment}
    (reads : expression.ReadsNoProperty) (holds : environment.Holds ReadsNoProperty)
    (depth : Nat) :
    Option.Rel Evaluation.SameButProperties (evaluate depth expression environment)
        (evaluate depth expression.skeleton environment.skeleton) ∧
      ∀ {other : Expression} {environment' : Environment},
        other.skeleton = expression.skeleton → environment'.skeleton = environment.skeleton →
        Option.Rel Evaluation.SameButProperties (evaluate depth expression environment)
          (evaluate depth other environment') := by
  constructor
  · exact evaluate_sameButProperties reads holds expression.skeleton_skeleton.symm
      Environment.skeleton_skeleton.symm depth
  · intro other environment' sameProgram sameEnvironment
    exact evaluate_sameButProperties reads holds sameProgram.symm sameEnvironment.symm depth

/-- An environment with a value that has a property. -/
def withNote : Environment :=
  Environment.fresh.bindName "a" ((Expression.number Number.pi).withProperty "note" (.literal "x"))

/-- A program that takes the value over and attaches another property to it. -/
def addingNote : Expression :=
  .form (.symbol "set-property") [.literal "other", .symbol "e",
    .form (.symbol "list") [.symbol "a", .symbol "a"]]

/-- The value keeps its property where there is one, and is written without it. -/
theorem properties_are_out_of_band_in_list :
    Option.Rel Evaluation.SameButProperties (evaluate 3 addingNote withNote)
        (evaluate 3 addingNote.skeleton withNote.skeleton) ∧
      (evaluate 3 addingNote withNote).map Evaluation.outcome ≠
        (evaluate 3 addingNote.skeleton withNote.skeleton).map Evaluation.outcome := by
  have reads : addingNote.ReadsNoProperty := by
    unfold ReadsNoProperty
    rw [show addingNote.skeleton = addingNote from rfl]
    simp [addingNote, literal, symbol, leaf, avoids_form_iff, Keyword.name]
  have holds : withNote.Holds ReadsNoProperty := by
    apply Environment.Holds.bindName
    · exact Environment.Holds.of_constants ReadsNoProperty.constant
    · exact (ReadsNoProperty.constant rfl).withProperty "note"
  refine ⟨(properties_are_out_of_band reads holds 3).1, ?_⟩
  decide

end PlotLisp
