import PlotLisp.Proofs.Expression.Skeleton
import PlotLisp.Keyword

/-!
# Decorated programs

A `set-property` form decorates its third child, its target. What becomes of a program
then is said by position: a position lists which child is taken at each level. To keep
track of it, `plain` forgets the properties that targets have themselves, so two programs
that are plainly the same differ in the properties of targets only.
-/

namespace PlotLisp.Expression

/-- The part at a position, if there is one. -/
def at? (expression : Expression) : List Nat → Option Expression
  | [] => some expression
  | index :: position => (expression.children[index]?).bind fun child => child.at? position

/-- The position is that of the target of a `set-property` form. -/
def IsTarget (expression : Expression) (position : List Nat) : Prop :=
  ∃ outer form, position = outer ++ [2] ∧ expression.at? outer = some form ∧
    form.head = .symbol Keyword.setProperty.name

/-- The program differs from the decorated one in no head, in no child, and in the
properties of targets only. -/
structure DecoratedAs (expression decorated : Expression) : Prop where
  skeleton : decorated.skeleton = expression.skeleton
  properties {position : List Nat} {part other : Expression}
    (found : expression.at? position = some part) (foundAgain : decorated.at? position = some other)
    (different : other.properties ≠ part.properties) : expression.IsTarget position

/-- The target of a form inside of one of its children is a target of the form. -/
theorem IsTarget.inside {form child : Expression} {index : Nat} {position : List Nat}
    (found : form.children[index]? = some child) (target : child.IsTarget position) :
    form.IsTarget (index :: position) := by
  obtain ⟨outer, inner, rfl, foundInner, keyword⟩ := target
  refine ⟨index :: outer, inner, rfl, ?_, keyword⟩
  rw [at?, found]
  exact foundInner

/-! ## Without the properties of targets -/

/-- The expression without the properties that it has itself. -/
def bare : Expression → Expression
  | node head children _ => form head children

/-- The children of a form with this head, without the properties of the target. -/
def bareTarget (head : Atom) (children : List Expression) : List Expression :=
  if head = .symbol Keyword.setProperty.name then children.modify 2 bare else children

mutual

/-- The expression without the properties of targets, at any depth. -/
def plain : Expression → Expression
  | node head children properties => node head (bareTarget head (plainAll children)) properties

/-- The same for children in order. -/
def plainAll : List Expression → List Expression
  | [] => []
  | child :: rest => child.plain :: plainAll rest

end

/-- The children of a form with this head, without the properties of targets. -/
def plainParts (head : Atom) (children : List Expression) : List Expression :=
  bareTarget head (children.map plain)

/-- Forgetting in the children one by one is what the mutual recursion does. -/
theorem plainAll_eq_map (children : List Expression) : plainAll children = children.map plain := by
  induction children with
  | nil => rfl
  | cons child rest inductionHypothesis => rw [plainAll, inductionHypothesis, List.map_cons]

/-- A node keeps its head and its own properties; only its children are plain. -/
theorem plain_node (head : Atom) (children : List Expression) (properties : Table Expression) :
    (node head children properties).plain = node head (plainParts head children) properties := by
  rw [plain, plainAll_eq_map, plainParts]

/-- The properties of the whole expression are not those of a target. -/
@[simp] theorem properties_plain (expression : Expression) :
    expression.plain.properties = expression.properties := by
  cases expression; rfl

/-- Without properties of its own an expression is plainly its head and its plain children. -/
theorem bare_plain (expression : Expression) :
    expression.plain.bare =
      form expression.head (plainParts expression.head expression.children) := by
  cases expression
  rw [plain_node]
  rfl

/-- The skeleton has no properties anyway. -/
@[simp] theorem skeleton_bare (expression : Expression) :
    expression.bare.skeleton = expression.skeleton := by
  cases expression; rfl

/-- A property of the whole is forgotten along with all others that the whole has. -/
@[simp] theorem bare_plain_withProperty (expression : Expression) (tag : String)
    (value : Expression) :
    (expression.withProperty tag value).plain.bare = expression.plain.bare := by
  simp only [bare_plain, head_withProperty, children_withProperty]

/-- Setting a property a second time changes nothing. -/
@[simp] theorem withProperty_withProperty (expression : Expression) (tag : String)
    (value : Expression) :
    (expression.withProperty tag value).withProperty tag value =
      expression.withProperty tag value := by
  cases expression
  simp [withProperty]

/-- No child is lost. -/
@[simp] theorem length_plainParts (head : Atom) (children : List Expression) :
    (plainParts head children).length = children.length := by
  unfold plainParts bareTarget
  split <;> simp

/-- What remains of the child at an index of a form with this head. -/
def plainAt (head : Atom) (index : Nat) (child : Expression) : Expression :=
  if head = .symbol Keyword.setProperty.name ∧ index = 2 then child.plain.bare else child.plain

/-- Whatever is plainly the same remains the same everywhere. -/
theorem plainAt_congr {child other : Expression} (same : child.plain = other.plain)
    (head : Atom) (index : Nat) : plainAt head index child = plainAt head index other := by
  unfold plainAt
  rw [same]

/-- At the place of the target, a property that is set leaves no trace. -/
@[simp] theorem plainAt_withProperty (child : Expression) (tag : String) (value : Expression) :
    plainAt (.symbol Keyword.setProperty.name) 2 (child.withProperty tag value) =
      plainAt (.symbol Keyword.setProperty.name) 2 child := by
  simp [plainAt]

/-- Children are made plain one by one, each according to its place. -/
theorem getElem?_plainParts (head : Atom) (children : List Expression) (index : Nat) :
    (plainParts head children)[index]? = (children[index]?).map (plainAt head index) := by
  unfold plainParts bareTarget plainAt
  by_cases marks : head = .symbol Keyword.setProperty.name
  · by_cases target : index = 2
    · simp [marks, target, Function.comp_def]
    · simp [marks, target, Ne.symm target]
  · simp [marks]

/-- A child may be replaced by one of which the same remains. -/
theorem plainParts_set {head : Atom} {children : List Expression} {index : Nat}
    {new : Expression}
    (same : plainAt head index new = plainAt head index ((children[index]?).getD absent)) :
    plainParts head (children.set index new) = plainParts head children := by
  refine List.ext_getElem? fun other => ?_
  rw [getElem?_plainParts, getElem?_plainParts]
  by_cases here : index = other
  · subst here
    by_cases inside : index < children.length
    · rw [List.getElem?_eq_getElem inside, Option.getD_some] at same
      rw [List.getElem?_set_self inside, List.getElem?_eq_getElem inside, Option.map_some,
        Option.map_some, same]
    · rw [List.set_eq_of_length_le (Nat.le_of_not_gt inside)]
  · rw [List.getElem?_set_ne here]

/-- Taking the properties from a target changes no skeleton. -/
theorem map_skeleton_bareTarget (head : Atom) (children : List Expression) :
    (bareTarget head children).map skeleton = children.map skeleton := by
  unfold bareTarget
  split
  · refine List.ext_getElem? fun index => ?_
    by_cases target : 2 = index <;> simp [target, Function.comp_def]
  · rfl

mutual

/-- Properties of targets are no part of the skeleton. -/
theorem skeleton_plain : (expression : Expression) → expression.plain.skeleton = expression.skeleton
  | node head children properties => by
      rw [plain, skeleton, skeleton, skeletons_eq_map, map_skeleton_bareTarget,
        map_skeleton_plainAll children, skeletons_eq_map]

/-- Taking the properties from targets changes no skeleton of any child. -/
theorem map_skeleton_plainAll : (children : List Expression) →
    (plainAll children).map skeleton = children.map skeleton
  | [] => rfl
  | child :: rest => by
      rw [plainAll, List.map_cons, List.map_cons, skeleton_plain child, map_skeleton_plainAll rest]

end

/-- Below the root, programs that are plainly the same differ in the properties of targets
only. -/
theorem isTarget_of_bare_plain {position : List Nat} {expression decorated part other : Expression}
    (same : decorated.plain.bare = expression.plain.bare) (below : position ≠ [])
    (found : expression.at? position = some part) (foundAgain : decorated.at? position = some other)
    (different : other.properties ≠ part.properties) : expression.IsTarget position := by
  induction position generalizing expression decorated with
  | nil => exact absurd rfl below
  | cons index position inductionHypothesis =>
      obtain ⟨child, childFound, found⟩ := Option.bind_eq_some_iff.mp found
      obtain ⟨child', childFoundAgain, foundAgain⟩ := Option.bind_eq_some_iff.mp foundAgain
      rw [bare_plain, bare_plain] at same
      injection same with heads parts
      have atIndex := congrArg (fun parts => parts[index]?) parts
      simp only [getElem?_plainParts, childFound, childFoundAgain, Option.map_some,
        Option.some.injEq, heads, plainAt] at atIndex
      -- The target of a decoration is the only part compared without its own properties.
      by_cases target : expression.head = .symbol Keyword.setProperty.name ∧ index = 2
      · rw [if_pos target, if_pos target] at atIndex
        cases position with
        | nil => exact ⟨[], expression, by rw [target.2]; rfl, rfl, target.1⟩
        | cons =>
            exact (inductionHypothesis atIndex nofun found foundAgain).inside childFound
      · rw [if_neg target, if_neg target] at atIndex
        cases position with
        | nil =>
            cases found
            cases foundAgain
            rw [← properties_plain, atIndex, properties_plain] at different
            exact absurd rfl different
        | cons =>
            exact (inductionHypothesis (congrArg bare atIndex) nofun found foundAgain).inside
              childFound

/-- Programs that are plainly the same differ as a program does from the decorated one. -/
theorem decoratedAs_of_plain {expression decorated : Expression}
    (same : decorated.plain = expression.plain) : expression.DecoratedAs decorated where
  skeleton := by rw [← skeleton_plain, same, skeleton_plain]
  properties {position part other} found foundAgain different := by
    cases position with
    | nil =>
        cases found
        cases foundAgain
        rw [← properties_plain, same, properties_plain] at different
        exact absurd rfl different
    | cons =>
        exact isTarget_of_bare_plain (congrArg bare same) nofun found foundAgain different

end PlotLisp.Expression
