import PlotLisp.Builtin.Basic
import PlotLisp.Proofs.Expression.Skeleton
import PlotLisp.Proofs.Table

/-!
# Values

Programs and values share one type of trees. `IsValue` says which trees are values;
`Settled` adds that everything attached to a value, outside the bodies of procedure
values, is a value again. A body is a program that waits for its call, so nothing is
said of it.
-/

namespace PlotLisp.Expression

/-- The children outside a body: of a procedure value only its parameter form. -/
def outer (expression : Expression) : List Expression :=
  if expression.head.isSymbol lambdaName then expression.children.take 1
  else expression.children

/-- A terminal has no outer children. -/
@[simp] theorem outer_terminal (head : Atom) (properties : Table Expression) :
    (node head [] properties).outer = [] := by
  unfold outer
  split <;> rfl

/-- All elements of a list are outer children. -/
@[simp] theorem outer_list (elements : List Expression) (properties : Table Expression) :
    (node (.symbol listName) elements properties).outer = elements :=
  rfl

/-- The body of a procedure value is no outer child. -/
@[simp] theorem outer_lambda (parameters body : Expression) (properties : Table Expression) :
    (node (.symbol lambdaName) [parameters, body] properties).outer = [parameters] :=
  rfl

/-- A part of an expression that lies outside the bodies of its procedure values. -/
inductive PartOf (part : Expression) : Expression → Prop where
  | whole : PartOf part part
  | inside {whole child} (outside : child ∈ whole.outer) (within : PartOf part child) :
      PartOf part whole

/-- The parts of an expression are itself and the parts of its outer children. -/
theorem PartOf.forall_iff {whole : Expression} {Holds : Expression → Prop} :
    (∀ part, PartOf part whole → Holds part) ↔
      Holds whole ∧ ∀ child ∈ whole.outer, ∀ part, PartOf part child → Holds part := by
  constructor
  · intro every
    exact ⟨every whole .whole, fun child outside part within =>
      every part (.inside outside within)⟩
  · rintro ⟨here, deeper⟩ part within
    cases within with
    | whole => exact here
    | inside outside within => exact deeper _ outside part within

/-- A property of a part outside all bodies, or a property attached to such a
property. -/
inductive AttachedTo : Expression → Expression → Prop where
  | own {property part whole tag} (outside : PartOf part whole)
      (set : part.property? tag = some property) : AttachedTo property whole
  | nested {property other whole} (holder : AttachedTo other whole)
      (attached : AttachedTo property other) : AttachedTo property whole

/-- The trees that are values, whatever their properties: terminals that are no
symbols, lists of values, and procedure values with an arbitrary body whose
parameters are bare symbols and not named like a builtin procedure. -/
inductive IsValue : Expression → Prop where
  | terminal {head properties} (constant : head.symbol? = none) :
      IsValue (node head [] properties)
  | list {elements properties} (values : ∀ element ∈ elements, IsValue element) :
      IsValue (node (.symbol listName) elements properties)
  | lambda {parameters body attached properties}
      (names : ∀ parameter ∈ parameters,
        ∃ name, parameter.bareSymbol? = some name ∧ Builtin.isName name = false) :
      IsValue (node (.symbol lambdaName)
        [node (.symbol listName) parameters attached, body] properties)

/-- A value all of whose properties are settled values again. The parameter form of a
procedure value carries no properties of its own. -/
inductive Settled : Expression → Prop where
  | terminal {head properties} (constant : head.symbol? = none)
      (attached : ∀ tag property, properties.find? tag = some property → Settled property) :
      Settled (node head [] properties)
  | list {elements properties} (values : ∀ element ∈ elements, Settled element)
      (attached : ∀ tag property, properties.find? tag = some property → Settled property) :
      Settled (node (.symbol listName) elements properties)
  | lambda {names : List String} {body properties}
      (free : ∀ name ∈ names, Builtin.isName name = false)
      (attached : ∀ tag property, properties.find? tag = some property → Settled property) :
      Settled (node (.symbol lambdaName) [Expression.list (names.map symbol), body] properties)

/-- What evaluation may build: a class of expressions that has every constant, holds
the elements of its lists and the properties of its members, and is closed under
building lists, procedure values, and properties. -/
structure ValueClass (Value : Expression → Prop) : Prop where
  constant {head : Atom} (constant : head.symbol? = none) : Value (leaf head)
  list {elements : List Expression} (values : ∀ element ∈ elements, Value element) :
    Value (.list elements)
  element {value element : Expression} (holds : Value value) (isList : value.isList = true)
    (member : element ∈ value.children) : Value element
  lambda {names : List String} (body : Expression)
    (free : ∀ name ∈ names, Builtin.isName name = false) :
    Value (.lambda (.list (names.map symbol)) body)
  withProperty {value property : Expression} (tag : String) (holds : Value value)
    (attached : Value property) : Value (value.withProperty tag property)
  property {value property : Expression} {tag : String} (holds : Value value)
    (found : value.property? tag = some property) : Value property

/-- Every class of values has the numbers. -/
theorem ValueClass.number {Value : Expression → Prop} (values : ValueClass Value) (x : Float) :
    Value (.number x) :=
  values.constant rfl

/-- Every class of values has the complex numbers. -/
theorem ValueClass.complex {Value : Expression → Prop} (values : ValueClass Value)
    (z : Complex) : Value (.complex z) :=
  values.constant rfl

/-- All expressions together form such a class. -/
theorem ValueClass.all : ValueClass fun _ => True where
  constant _ := trivial
  list _ := trivial
  element _ _ _ := trivial
  lambda _ _ := trivial
  withProperty _ _ _ := trivial
  property _ _ := trivial

namespace Settled

/-- A property of a settled value is settled. -/
theorem property {value property : Expression} {tag : String} (settled : Settled value)
    (found : value.property? tag = some property) : Settled property := by
  cases settled with
  | terminal _ attached | list _ attached | lambda _ attached =>
      exact attached tag property found

/-- Attaching one settled value to another gives a settled value. -/
theorem withProperty {value property : Expression} (tag : String) (settled : Settled value)
    (attached : Settled property) : Settled (value.withProperty tag property) := by
  cases settled with
  | terminal constant others =>
      exact .terminal constant (Table.forall_find?_insert attached others)
  | list values others => exact .list values (Table.forall_find?_insert attached others)
  | lambda free others => exact .lambda free (Table.forall_find?_insert attached others)

/-- The elements of a settled list are settled. -/
theorem element {value element : Expression} (settled : Settled value)
    (isList : value.isList = true) (member : element ∈ value.children) :
    Settled element := by
  cases settled with
  | terminal => simp [children] at member
  | list values => exact values element member
  | lambda => cases isList

/-- Nothing is attached to an expression without properties. -/
theorem of_find?_empty (tag : String) (property : Expression)
    (found : (Table.empty : Table Expression).find? tag = some property) :
    Settled property := by
  simp at found

/-- Settled values are what evaluation may build. -/
theorem valueClass : ValueClass Settled where
  constant constant := .terminal constant of_find?_empty
  list values := .list values of_find?_empty
  element := Settled.element
  lambda _ free := .lambda free of_find?_empty
  withProperty := Settled.withProperty
  property := Settled.property

/-- A settled value is a value. -/
theorem isValue {value : Expression} (settled : Settled value) : IsValue value := by
  induction settled with
  | terminal constant => exact .terminal constant
  | list _ _ values => exact .list values
  | lambda free =>
      refine .lambda fun parameter member => ?_
      obtain ⟨name, named, rfl⟩ := List.mem_map.mp member
      exact ⟨name, rfl, free name named⟩

end Settled

/-- A list of bare symbols has no properties to lose. -/
theorem skeleton_list_symbols (names : List String) :
    (Expression.list (names.map symbol)).skeleton = Expression.list (names.map symbol) := by
  simp [Expression.list, form, skeleton, skeletons_eq_map, symbol, leaf, skeletons]

/-- Parts of an expression without properties have none. -/
theorem PartOf.skeleton_eq {part whole : Expression} (outside : PartOf part whole)
    (bare : whole.skeleton = whole) : part.skeleton = part := by
  induction outside with
  | whole => exact bare
  | @inside whole child outside _ inductionHypothesis =>
      apply inductionHypothesis
      have member : child ∈ whole.children := by
        unfold outer at outside
        split at outside
        · exact List.mem_of_mem_take outside
        · exact outside
      have fixed : whole.children.map skeleton = whole.children := by
        rw [← children_skeleton, bare]
      exact List.map_inj_left.mp (fixed.trans (List.map_id _).symm) child member

/-- What is its own skeleton has no property under any tag. -/
theorem property?_eq_none_of_skeleton {expression : Expression}
    (bare : expression.skeleton = expression) (tag : String) :
    expression.property? tag = none := by
  rw [← bare]
  cases expression
  rfl

namespace Settled

/-- Every property of a part of a settled value is settled. -/
theorem property_of_part {value part property : Expression} {tag : String}
    (settled : Settled value) (outside : PartOf part value)
    (set : part.property? tag = some property) : Settled property := by
  induction outside with
  | whole => exact settled.property set
  | @inside whole child outside within inductionHypothesis =>
      cases settled with
      | terminal constant =>
          simp at outside
      | list values =>
          exact inductionHypothesis (values child (by simpa using outside))
      | @lambda names body properties free attached =>
          -- The only outer child is the parameter form, which has no properties at all.
          have parameters : child = Expression.list (names.map symbol) := by
            simpa using outside
          have bare : child.skeleton = child := by
            rw [parameters, skeleton_list_symbols]
          rw [property?_eq_none_of_skeleton (within.skeleton_eq bare)] at set
          cases set

/-- Whatever is attached to a settled value is settled. -/
theorem of_attachedTo {value property : Expression} (settled : Settled value)
    (attached : AttachedTo property value) : Settled property := by
  induction attached with
  | own outside set => exact settled.property_of_part outside set
  | nested _ _ holder inner => exact inner (holder settled)

end Settled

end PlotLisp.Expression
