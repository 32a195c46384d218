import PlotLisp.Table
import PlotLisp.Atom

/-!
# Expressions

One tree serves as program and as value. A list is an expression headed by the
symbol `list`; a procedure value is one headed by `lambda` with two children, its
parameters and its body. Properties are attached out of band: they are neither
compared nor written.
-/

namespace PlotLisp

/-- A head atom, the children in order, and the attached properties. -/
inductive Expression where
  | node (head : Atom) (children : List Expression) (properties : Table Expression)

namespace Expression

mutual

/-- Decides equality of two expressions with everything attached to them. -/
def decideEqual : (left right : Expression) → Decidable (left = right)
  | node head children properties, node head' children' properties' =>
      match decEq head head', decideEqualChildren children children',
        decideEqualProperties properties properties' with
      | isTrue heads, isTrue tails, isTrue attached =>
          isTrue (by rw [heads, tails, attached])
      | isFalse different, _, _ => isFalse (by intro same; cases same; exact different rfl)
      | _, isFalse different, _ => isFalse (by intro same; cases same; exact different rfl)
      | _, _, isFalse different => isFalse (by intro same; cases same; exact different rfl)

/-- Decides equality of two sequences of children. -/
def decideEqualChildren : (left right : List Expression) → Decidable (left = right)
  | [], [] => isTrue rfl
  | [], _ :: _ => isFalse nofun
  | _ :: _, [] => isFalse nofun
  | child :: rest, child' :: rest' =>
      match decideEqual child child', decideEqualChildren rest rest' with
      | isTrue first, isTrue others => isTrue (by rw [first, others])
      | isFalse different, _ => isFalse (by intro same; cases same; exact different rfl)
      | _, isFalse different => isFalse (by intro same; cases same; exact different rfl)

/-- Decides equality of two property tables, the order of entries included. -/
def decideEqualProperties : (left right : Table Expression) → Decidable (left = right)
  | .empty, .empty => isTrue rfl
  | .empty, .entry .. => isFalse nofun
  | .entry .., .empty => isFalse nofun
  | .entry key value rest, .entry key' value' rest' =>
      match decEq key key', decideEqual value value', decideEqualProperties rest rest' with
      | isTrue keys, isTrue values, isTrue others => isTrue (by rw [keys, values, others])
      | isFalse different, _, _ => isFalse (by intro same; cases same; exact different rfl)
      | _, isFalse different, _ => isFalse (by intro same; cases same; exact different rfl)
      | _, _, isFalse different => isFalse (by intro same; cases same; exact different rfl)

end

instance : DecidableEq Expression := decideEqual

/-- The name that heads a list. -/
def listName : String := "list"

/-- The name that heads a procedure value. -/
def lambdaName : String := "lambda"

/-- The head atom. -/
def head : Expression → Atom
  | node head _ _ => head

/-- The children in order. -/
def children : Expression → List Expression
  | node _ children _ => children

/-- The attached properties. -/
def properties : Expression → Table Expression
  | node _ _ properties => properties

/-- An expression without properties. -/
def form (head : Atom) (children : List Expression) : Expression :=
  node head children .empty

/-- An expression with no children and no properties. -/
def leaf (head : Atom) : Expression :=
  form head []

/-- The expression that stands where there is none. -/
def absent : Expression :=
  leaf .absent

/-- A real number. -/
def number (value : Float) : Expression :=
  leaf (.number value)

/-- A complex number. -/
def complex (value : Complex) : Expression :=
  leaf (.complex value)

/-- A bare symbol. -/
def symbol (name : String) : Expression :=
  leaf (.symbol name)

/-- A text. -/
def literal (content : String) : Expression :=
  leaf (.text content)

/-- A list of the given elements. -/
def list (elements : List Expression) : Expression :=
  form (.symbol listName) elements

/-- A procedure value with the given parameter form and body. -/
def lambda (parameters body : Expression) : Expression :=
  form (.symbol lambdaName) [parameters, body]

/-- Whether there are no children. -/
def isLeaf (expression : Expression) : Bool :=
  expression.children.isEmpty

/-- Whether the expression is a leaf with nothing in it. -/
def isAbsent (expression : Expression) : Bool :=
  expression.head.isAbsent && expression.isLeaf

/-- Whether the expression is a list. -/
def isList (expression : Expression) : Bool :=
  expression.head.isSymbol listName

/-- Whether the expression is a procedure value. -/
def isLambda (expression : Expression) : Bool :=
  expression.head.isSymbol lambdaName && expression.children.length == 2

/-- The name of a symbol with no children. -/
def bareSymbol? (expression : Expression) : Option String :=
  if expression.isLeaf then expression.head.symbol? else none

/-- The property under a tag, if it was set. -/
def property? (expression : Expression) (tag : String) : Option Expression :=
  expression.properties.find? tag

/-- The expression with a property under a tag, replacing what was there. -/
def withProperty : Expression → String → Expression → Expression
  | node head children properties, tag, value =>
      node head children (properties.insert tag value)

/-- The expression with one more child at the end. -/
def push : Expression → Expression → Expression
  | node head children properties, child => node head (children ++ [child]) properties

/-- The expression without its last child. -/
def pop : Expression → Expression
  | node head children properties => node head children.dropLast properties

mutual

/-- Comparison of heads and children; properties take no part in it. -/
def alike : Expression → Expression → Bool
  | node head children _, node head' children' _ =>
      head.alike head' && alikeChildren children children'

/-- Comparison of two sequences of children of equal length, pair by pair. -/
def alikeChildren : List Expression → List Expression → Bool
  | [], [] => true
  | child :: rest, child' :: rest' => alike child child' && alikeChildren rest rest'
  | _, _ => false

end

mutual

/-- The written form inside another expression. A leaf is bare, except that an
empty list keeps its parentheses. -/
def nestedText : Expression → String
  | node head children _ =>
      if children.isEmpty && !head.isSymbol listName then head.render
      else "(" ++ head.render ++ childrenText children ++ ")"

/-- The written forms of children, each after a space. -/
def childrenText : List Expression → String
  | [] => ""
  | child :: rest => " " ++ nestedText child ++ childrenText rest

end

/-- The written form of a whole value: always in parentheses, except for the
absent one. -/
def text (expression : Expression) : String :=
  if expression.isAbsent then expression.head.render
  else "(" ++ expression.head.render ++ childrenText expression.children ++ ")"

/-- A property does not change the head. -/
@[simp] theorem head_withProperty (expression : Expression) (tag : String)
    (value : Expression) : (expression.withProperty tag value).head = expression.head := by
  cases expression; rfl

/-- A property does not change the children. -/
@[simp] theorem children_withProperty (expression : Expression) (tag : String)
    (value : Expression) :
    (expression.withProperty tag value).children = expression.children := by
  cases expression; rfl

/-- Attaching a property writes one entry of the table. -/
@[simp] theorem properties_withProperty (expression : Expression) (tag : String)
    (value : Expression) :
    (expression.withProperty tag value).properties =
      expression.properties.insert tag value := by
  cases expression; rfl

end Expression

end PlotLisp
