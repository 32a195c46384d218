import PlotLisp.Evaluation.Turn
import PlotLisp.Proofs.Environment.Extension
import PlotLisp.Proofs.Evaluation.Forms
import Mathlib.Logic.Equiv.Basic

/-!
# Consistent renaming

A renaming gives every symbol another name, distinct ones to distinct symbols. It leaves alone
the names that mean something to evaluation itself, which are the keywords and the names of the
builtin procedures. Texts and the tags of properties are no symbols.
-/

namespace PlotLisp

/-- A name is that of a builtin procedure if one bears it. -/
theorem Builtin.isName_iff {name : String} :
    Builtin.isName name = true ↔ ∃ builtin : Builtin, builtin.name = name := by
  constructor
  · intro isName
    obtain ⟨builtin, found⟩ := Option.isSome_iff_exists.mp isName
    have matching := List.find?_some found
    exact ⟨builtin, by simpa using matching⟩
  · rintro ⟨builtin, rfl⟩
    simp [isName]

/-- A bijection on names that fixes every keyword and the name of every builtin procedure. -/
structure Renaming where
  rename : Equiv.Perm String
  keyword (keyword : Keyword) : rename keyword.name = keyword.name
  builtin (builtin : Builtin) : rename builtin.name = builtin.name

namespace Renaming

/-- The renaming that takes another one back. -/
def symm (names : Renaming) : Renaming where
  rename := names.rename.symm
  keyword keyword := by rw [Equiv.symm_apply_eq, names.keyword]
  builtin builtin := by rw [Equiv.symm_apply_eq, names.builtin]

/-- One renaming after the other. -/
def trans (first second : Renaming) : Renaming where
  rename := first.rename.trans second.rename
  keyword keyword := by rw [Equiv.trans_apply, first.keyword, second.keyword]
  builtin builtin := by rw [Equiv.trans_apply, first.builtin, second.builtin]

variable (names : Renaming) (name : String)

/-- The same form is found under a name and under the new one. -/
theorem ofName?_rename : Keyword.ofName? (names.rename name) = Keyword.ofName? name := by
  cases found : Keyword.ofName? name with
  | some keyword =>
      rw [← Keyword.name_of_ofName? found, names.keyword, Keyword.ofName?_name]
  | none =>
      cases foundAfter : Keyword.ofName? (names.rename name) with
      | none => rfl
      | some keyword =>
          have named := Keyword.name_of_ofName? foundAfter
          rw [← names.keyword, names.rename.injective.eq_iff] at named
          rw [← named, Keyword.ofName?_name] at found
          cases found

/-- The new name is that of a builtin procedure exactly where the name is. -/
theorem isName_rename : Builtin.isName (names.rename name) = Builtin.isName name := by
  rw [Bool.eq_iff_iff, Builtin.isName_iff, Builtin.isName_iff]
  constructor
  · rintro ⟨builtin, named⟩
    rw [← names.builtin, names.rename.injective.eq_iff] at named
    exact ⟨builtin, named⟩
  · rintro ⟨builtin, rfl⟩
    exact ⟨builtin, (names.builtin builtin).symm⟩

/-- A renaming keeps the name that heads lists, as that of a builtin procedure. -/
theorem rename_listName : names.rename Expression.listName = Expression.listName :=
  names.builtin .list

/-- A renaming keeps the name that heads procedure values, as that of a form. -/
theorem rename_lambdaName : names.rename Expression.lambdaName = Expression.lambdaName :=
  names.keyword .lambda

/-- A name that means nothing to evaluation itself. -/
def Movable (name : String) : Prop :=
  Keyword.isName name = false ∧ Builtin.isName name = false

instance : Decidable (Movable name) :=
  inferInstanceAs (Decidable (_ ∧ _))

variable {name}

/-- A name that may be moved is no keyword. -/
theorem Movable.keyword_ne (movable : Movable name) (keyword : Keyword) : keyword.name ≠ name := by
  rintro rfl
  simpa [Keyword.isName] using movable.1

/-- A name that may be moved is not that of a builtin procedure. -/
theorem Movable.builtin_ne (movable : Movable name) (builtin : Builtin) : builtin.name ≠ name := by
  rintro rfl
  have taken := Builtin.isName_iff.mpr ⟨builtin, rfl⟩
  rw [movable.2] at taken
  cases taken

/-- Two names take the place of each other. -/
def exchange {first second : String} (firstMovable : Movable first)
    (secondMovable : Movable second) : Renaming where
  rename := Equiv.swap first second
  keyword keyword :=
    Equiv.swap_apply_of_ne_of_ne (firstMovable.keyword_ne keyword)
      (secondMovable.keyword_ne keyword)
  builtin builtin :=
    Equiv.swap_apply_of_ne_of_ne (firstMovable.builtin_ne builtin)
      (secondMovable.builtin_ne builtin)

end Renaming

/-- The atom with another name if it is a symbol. -/
def Atom.renamed (rename : String → String) : Atom → Atom
  | symbol name => symbol (rename name)
  | absent => absent
  | number value => number value
  | complex value => complex value
  | text content => text content

namespace Expression

mutual

/-- The expression with every symbol renamed, in properties as well. -/
def renamed (rename : String → String) : Expression → Expression
  | node head children properties =>
      node (head.renamed rename) (renamedAll rename children) (renamedProperties rename properties)

/-- Children with every symbol renamed. -/
def renamedAll (rename : String → String) : List Expression → List Expression
  | [] => []
  | child :: rest => child.renamed rename :: renamedAll rename rest

/-- Properties with every symbol renamed, under the same tags. -/
def renamedProperties (rename : String → String) : Table Expression → Table Expression
  | .empty => .empty
  | .entry tag value rest => .entry tag (value.renamed rename) (renamedProperties rename rest)

end

end Expression

/-- The binding with every symbol in its value renamed. -/
def Binding.renamed (rename : String → String) : Binding → Binding
  | value expression => value (expression.renamed rename)
  | procedure builtin => procedure builtin

/-- The environment with every bound name renamed, and every symbol in a value. -/
def Environment.renamed (rename : String → String) (environment : Environment) : Environment where
  bindings := environment.bindings.mapEntries rename (Binding.renamed rename)

/-- The fault with the symbol that it names renamed. -/
def Fault.renamed (rename : String → String) : Fault → Fault
  | unknownSymbol name => unknownSymbol (rename name)
  | keywordRedefinition name => keywordRedefinition (rename name)
  | builtinRedefinition name => builtinRedefinition (rename name)
  | symbolRedefinition name => symbolRedefinition (rename name)
  | notAProcedure name => notAProcedure (rename name)
  | fault => fault

/-- The outcome with every symbol renamed. -/
def Evaluation.renamed (rename : String → String) (evaluation : Evaluation) : Evaluation where
  outcome :=
    match evaluation.outcome with
    | .ok value => .ok (value.renamed rename)
    | .error fault => .error (fault.renamed rename)
  program := evaluation.program.renamed rename
  environment := evaluation.environment.renamed rename

/-! ## Renaming part by part -/

/-- Only symbols are renamed. -/
theorem Atom.renamed_of_constant {rename : String → String} {head : Atom}
    (constant : head.symbol? = none) : head.renamed rename = head := by
  cases head with
  | symbol => cases constant
  | absent | number | complex | text => rfl

/-- Renaming twice. -/
theorem Atom.renamed_renamed (first second : String → String) (head : Atom) :
    (head.renamed first).renamed second = head.renamed (second ∘ first) := by
  cases head <;> rfl

namespace Expression

variable (rename : String → String)

/-- Renaming the children one by one is what the mutual recursion does. -/
theorem renamedAll_eq_map (children : List Expression) :
    renamedAll rename children = children.map (renamed rename) := by
  induction children with
  | nil => rfl
  | cons child rest inductionHypothesis => rw [renamedAll, inductionHypothesis, List.map_cons]

/-- Renaming the properties one by one is what the mutual recursion does; tags are kept. -/
theorem renamedProperties_eq_mapEntries (properties : Table Expression) :
    renamedProperties rename properties = properties.mapEntries id (renamed rename) := by
  induction properties with
  | empty => rfl
  | entry tag value rest inductionHypothesis =>
      rw [renamedProperties, inductionHypothesis, Table.mapEntries, id]

/-- A node is renamed in its head, its children, and its properties. -/
theorem renamed_node (head : Atom) (children : List Expression) (properties : Table Expression) :
    (node head children properties).renamed rename =
      node (head.renamed rename) (children.map (renamed rename))
        (properties.mapEntries id (renamed rename)) := by
  rw [renamed, renamedAll_eq_map, renamedProperties_eq_mapEntries]

/-- The head of a renamed expression is the renamed head. -/
@[simp] theorem head_renamed (expression : Expression) :
    (expression.renamed rename).head = expression.head.renamed rename := by
  cases expression; rfl

/-- The children of a renamed expression are the renamed children. -/
@[simp] theorem children_renamed (expression : Expression) :
    (expression.renamed rename).children = expression.children.map (renamed rename) := by
  cases expression
  rw [renamed_node, children_node, children_node]

/-- Properties are found under the tags they had, with their values renamed. -/
@[simp] theorem property?_renamed (expression : Expression) (tag : String) :
    (expression.renamed rename).property? tag =
      (expression.property? tag).map (renamed rename) := by
  cases expression
  rw [renamed_node]
  exact Table.find?_mapEntries Function.injective_id _ tag

/-- Decorating commutes with renaming, the tag staying the same. -/
theorem renamed_withProperty (expression : Expression) (tag : String) (value : Expression) :
    (expression.withProperty tag value).renamed rename =
      (expression.renamed rename).withProperty tag (value.renamed rename) := by
  cases expression
  rw [withProperty, renamed_node, renamed_node, withProperty,
    Table.mapEntries_insert Function.injective_id, id]

/-- A list stays a list, since the name at its head is not moved. -/
theorem renamed_list (names : Renaming) (elements : List Expression) :
    (list elements).renamed names.rename = list (elements.map (renamed names.rename)) := by
  rw [list, form, renamed_node, Atom.renamed, names.rename_listName]
  rfl

/-- The parameters of a procedure value are renamed like any other symbols. -/
theorem renamed_parameters (names : Renaming) (parameters : List String) :
    (list (parameters.map symbol)).renamed names.rename =
      list ((parameters.map names.rename).map symbol) := by
  rw [renamed_list, List.map_map, List.map_map]
  rfl

/-- A procedure value stays one, with its parameters and its body renamed together. -/
theorem renamed_lambda (names : Renaming) (parameters body : Expression) :
    (lambda parameters body).renamed names.rename =
      lambda (parameters.renamed names.rename) (body.renamed names.rename) := by
  rw [lambda, form, renamed_node, Atom.renamed, names.rename_lambdaName]
  rfl

mutual

/-- Renaming twice. -/
theorem renamed_renamed (first second : String → String) : (expression : Expression) →
    (expression.renamed first).renamed second = expression.renamed (second ∘ first)
  | node head children properties => by
      simp only [renamed, Atom.renamed_renamed, renamedAll_renamedAll first second children,
        renamedProperties_renamedProperties first second properties]

/-- Renaming the children twice. -/
theorem renamedAll_renamedAll (first second : String → String) : (children : List Expression) →
    renamedAll second (renamedAll first children) = renamedAll (second ∘ first) children
  | [] => rfl
  | child :: rest => by
      simp only [renamedAll, renamed_renamed first second child,
        renamedAll_renamedAll first second rest]

/-- Renaming the properties twice. -/
theorem renamedProperties_renamedProperties (first second : String → String) :
    (properties : Table Expression) →
    renamedProperties second (renamedProperties first properties) =
      renamedProperties (second ∘ first) properties
  | .empty => rfl
  | .entry tag value rest => by
      simp only [renamedProperties, renamed_renamed first second value,
        renamedProperties_renamedProperties first second rest]

end

/-- A renamed value is a value. -/
theorem Settled.renamed {value : Expression} (settled : Settled value) (names : Renaming) :
    Settled (value.renamed names.rename) := by
  induction settled with
  | terminal constant _ attached =>
      rw [renamed_node, Atom.renamed_of_constant constant]
      exact .terminal constant (Table.forall_find?_mapEntries attached)
  | list _ _ values attached =>
      rw [renamed_node, Atom.renamed, names.rename_listName]
      exact .list (List.forall_mem_map.mpr values) (Table.forall_find?_mapEntries attached)
  | @lambda parameters _ _ free _ attached =>
      rw [renamed_node, Atom.renamed, names.rename_lambdaName, List.map_cons, renamed_parameters]
      refine .lambda (List.forall_mem_map.mpr ?_) (Table.forall_find?_mapEntries attached)
      intro name member
      rw [names.isName_rename]
      exact free name member

end Expression

namespace Environment

variable (environment : Environment)

/-- A renamed environment binds the new name to the renamed binding. -/
theorem find?_renamed (names : Renaming) (name : String) :
    (environment.renamed names.rename).find? (names.rename name) =
      (environment.find? name).map (Binding.renamed names.rename) :=
  Table.find?_mapEntries names.rename.injective environment.bindings name

/-- Binding a name and renaming commute, because distinct names stay distinct. -/
theorem renamed_bindName (names : Renaming) (name : String) (value : Expression) :
    (environment.bindName name value).renamed names.rename =
      (environment.renamed names.rename).bindName (names.rename name)
        (value.renamed names.rename) :=
  congrArg Environment.mk
    (Table.mapEntries_insert names.rename.injective environment.bindings name (.value value))

/-- Renaming twice. -/
theorem renamed_renamed (first second : String → String) :
    (environment.renamed first).renamed second = environment.renamed (second ∘ first) := by
  have twice : Binding.renamed second ∘ Binding.renamed first =
      Binding.renamed (second ∘ first) := by
    funext binding
    cases binding with
    | value expression => exact congrArg Binding.value (expression.renamed_renamed first second)
    | procedure => rfl
  apply congrArg Environment.mk
  rw [renamed, Table.mapEntries_mapEntries, twice]

/-- The values of a renamed environment are the renamed ones. -/
theorem Holds.renamed {environment : Environment} (holds : environment.Holds Expression.Settled)
    (names : Renaming) : (environment.renamed names.rename).Holds Expression.Settled := by
  intro name value found
  obtain ⟨former, rfl⟩ := names.rename.surjective name
  rw [find?_renamed] at found
  obtain ⟨binding, bound, same⟩ := Option.map_eq_some_iff.mp found
  cases binding with
  | procedure => cases same
  | value expression =>
      cases same
      exact (holds former expression bound).renamed names

end Environment

/-- A fault that blames a procedure or a form names no symbol. -/
theorem Fault.renamed_of_blamed {rename : String → String} {fault : Fault} {form : String}
    (blamed : fault.blamed? = some form) : fault.renamed rename = fault := by
  cases fault <;> first
    | rfl
    | cases blamed

end PlotLisp
