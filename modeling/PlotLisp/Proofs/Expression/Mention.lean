import PlotLisp.Proofs.Expression.Value

/-!
# Names that an expression does not mention

An expression avoids a name when no part of it is headed by that symbol, where the bodies of
procedure values and the properties count as parts. What is taken out of the expression
avoids the name as well, and so does what is put together from such expressions, unless the
name is the one that heads the result.
-/

namespace PlotLisp.Expression

/-- The name is no symbol of the expression: neither at its head nor anywhere in its
children or its properties. -/
inductive Avoids (name : String) : Expression → Prop where
  | node {head : Atom} {children : List Expression} {properties : Table Expression}
      (different : head ≠ .symbol name) (parts : ∀ child ∈ children, Avoids name child)
      (attached : ∀ tag property, properties.find? tag = some property → Avoids name property) :
      Avoids name (node head children properties)

/-- Without properties, the head and the children are all there is. -/
theorem avoids_form_iff {name : String} {head : Atom} {children : List Expression} :
    (form head children).Avoids name ↔
      head ≠ .symbol name ∧ ∀ child ∈ children, child.Avoids name := by
  constructor
  · rintro ⟨different, parts, -⟩
    exact ⟨different, parts⟩
  · rintro ⟨different, parts⟩
    exact .node different parts (by simp)

namespace Avoids

variable {name : String} {expression : Expression}

/-- An expression that avoids a name is not headed by it. -/
theorem head (avoids : expression.Avoids name) : expression.head ≠ .symbol name := by
  cases avoids with
  | node different => exact different

/-- The children of such an expression avoid the name. -/
theorem child {child : Expression} (avoids : expression.Avoids name)
    (member : child ∈ expression.children) : child.Avoids name := by
  cases avoids with
  | node _ parts => exact parts child member

/-- The properties of such an expression avoid the name. -/
theorem property {property : Expression} {tag : String} (avoids : expression.Avoids name)
    (set : expression.property? tag = some property) : property.Avoids name := by
  cases avoids with
  | node _ _ attached => exact attached tag property set

/-- A terminal avoids every name but its own. -/
theorem leaf {head : Atom} (different : head ≠ .symbol name) : (leaf head).Avoids name :=
  avoids_form_iff.mpr ⟨different, by simp⟩

/-- What is no symbol mentions nothing. -/
theorem constant {head : Atom} (constant : head.symbol? = none) :
    (Expression.leaf head).Avoids name := by
  apply leaf
  rintro rfl
  cases constant

/-- Lists avoid every name but that of lists. -/
theorem list {elements : List Expression} (different : name ≠ listName)
    (values : ∀ element ∈ elements, element.Avoids name) :
    (Expression.list elements).Avoids name := by
  refine avoids_form_iff.mpr ⟨?_, values⟩
  intro same
  exact different (Atom.symbol.inj same).symm

/-- Procedure values avoid every name but those of lists and of procedure values. -/
theorem lambda {names : List String} {body : Expression} (notList : name ≠ listName)
    (notLambda : name ≠ lambdaName) (others : ∀ parameter ∈ names, parameter ≠ name)
    (avoids : body.Avoids name) :
    (Expression.lambda (Expression.list (names.map symbol)) body).Avoids name := by
  have parameters : (Expression.list (names.map symbol)).Avoids name := by
    apply list notList
    intro element member
    obtain ⟨parameter, listed, rfl⟩ := List.mem_map.mp member
    apply leaf
    intro same
    exact others parameter listed (Atom.symbol.inj same)
  refine avoids_form_iff.mpr ⟨?_, ?_⟩
  · intro same
    exact notLambda (Atom.symbol.inj same).symm
  · simp [parameters, avoids]

/-- Attaching what avoids the name leaves an expression that avoids it. -/
theorem withProperty {property : Expression} (tag : String) (avoids : expression.Avoids name)
    (added : property.Avoids name) : (expression.withProperty tag property).Avoids name := by
  cases avoids with
  | node different parts attached =>
      exact .node different parts (Table.forall_find?_insert added attached)

/-- The children may be replaced by others that avoid the name. -/
theorem withChildren {head : Atom} {children former : List Expression}
    {properties : Table Expression}
    (avoids : (Expression.node head former properties).Avoids name)
    (parts : ∀ child ∈ children, child.Avoids name) :
    (Expression.node head children properties).Avoids name := by
  cases avoids with
  | node different _ attached => exact .node different parts attached

end Avoids

end PlotLisp.Expression
