import PlotLisp.Expression

/-!
# Skeletons

The skeleton of an expression is the expression without any of its properties.
Evaluation decorates programs but never changes their skeletons, so what is said of
a program through its skeleton holds before and after.
-/

namespace PlotLisp.Expression

/-- The head of a node is the atom that it was made with. -/
@[simp] theorem head_node (head : Atom) (children : List Expression)
    (properties : Table Expression) : (node head children properties).head = head :=
  rfl

/-- The children of a node are those that it was made with. -/
@[simp] theorem children_node (head : Atom) (children : List Expression)
    (properties : Table Expression) : (node head children properties).children = children :=
  rfl

mutual

/-- The expression without properties, at any depth. -/
def skeleton : Expression → Expression
  | node head children _ => form head (skeletons children)

/-- The skeletons of children in order. -/
def skeletons : List Expression → List Expression
  | [] => []
  | child :: rest => child.skeleton :: skeletons rest

end

/-- Taking the skeletons one by one is what the mutual recursion does. -/
theorem skeletons_eq_map (children : List Expression) :
    skeletons children = children.map skeleton := by
  induction children with
  | nil => rfl
  | cons child rest inductionHypothesis => simp [skeletons, inductionHypothesis]

/-- A skeleton has the head of its expression. -/
@[simp] theorem head_skeleton (expression : Expression) :
    expression.skeleton.head = expression.head := by
  cases expression; rfl

/-- The children of a skeleton are the skeletons of the children. -/
@[simp] theorem children_skeleton (expression : Expression) :
    expression.skeleton.children = expression.children.map skeleton := by
  cases expression with
  | node head children properties => exact skeletons_eq_map children

/-- A property that is set does not show in the skeleton. -/
@[simp] theorem skeleton_withProperty (expression : Expression) (tag : String)
    (value : Expression) :
    (expression.withProperty tag value).skeleton = expression.skeleton := by
  cases expression; rfl

/-- Whether an expression is a bare symbol, and which, shows in the skeleton. -/
@[simp] theorem bareSymbol?_skeleton (expression : Expression) :
    expression.skeleton.bareSymbol? = expression.bareSymbol? := by
  simp [bareSymbol?, isLeaf]

/-- Children with the same skeletons have the same skeleton at every index. -/
theorem skeleton_getD_congr {children others : List Expression}
    (same : children.map skeleton = others.map skeleton) (index : Nat) :
    ((children[index]?).getD absent).skeleton = ((others[index]?).getD absent).skeleton := by
  have atIndex : (children[index]?).map skeleton = (others[index]?).map skeleton := by
    rw [← List.getElem?_map, ← List.getElem?_map, same]
  cases left : children[index]? <;> cases right : others[index]? <;>
    simp_all

/-- A child put in the place of one with the same skeleton changes no skeleton. -/
theorem map_skeleton_set {children : List Expression} {index : Nat} {child : Expression}
    (same : child.skeleton = ((children[index]?).getD absent).skeleton) :
    (children.set index child).map skeleton = children.map skeleton := by
  by_cases within : index < children.length
  · have bounded : index < (children.map skeleton).length := by simpa using within
    rw [List.map_set, same, List.getElem?_eq_getElem within, Option.getD_some,
      ← List.getElem_map skeleton (h := bounded), List.set_getElem_self]
  · rw [List.set_eq_of_length_le (Nat.le_of_not_gt within)]

mutual

/-- What has no properties is its own skeleton. -/
theorem skeleton_skeleton : (expression : Expression) →
    expression.skeleton.skeleton = expression.skeleton
  | node head children properties => by
      simp only [skeleton, form, skeletons_skeletons children]

/-- Children without properties are their own skeletons. -/
theorem skeletons_skeletons : (children : List Expression) →
    skeletons (skeletons children) = skeletons children
  | [] => rfl
  | child :: rest => by
      simp only [skeletons, skeleton_skeleton child, skeletons_skeletons rest]

end

mutual

/-- Properties are not written within a form either. -/
theorem nestedText_skeleton : (expression : Expression) →
    expression.skeleton.nestedText = expression.nestedText
  | node head children properties => by
      simp only [skeleton, form, nestedText, childrenText_skeletons children]
      cases children <;> rfl

/-- Properties of the children are not written. -/
theorem childrenText_skeletons : (children : List Expression) →
    childrenText (skeletons children) = childrenText children
  | [] => rfl
  | child :: rest => by
      simp only [skeletons, childrenText, nestedText_skeleton child, childrenText_skeletons rest]

end

/-- Properties are not written. -/
theorem text_skeleton (expression : Expression) : expression.skeleton.text = expression.text := by
  obtain ⟨head, children, properties⟩ := expression
  have same := childrenText_skeletons children
  cases children with
  | nil => rfl
  | cons child rest =>
      simp only [text, skeleton, form, isAbsent, isLeaf, head_node, children_node, same]
      rfl

end PlotLisp.Expression
