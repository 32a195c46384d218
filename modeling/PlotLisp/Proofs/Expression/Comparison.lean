import PlotLisp.Proofs.Expression.Skeleton
import PlotLisp.Proofs.Number.Difference
import PlotLisp.Proofs.Reader.Rendering

/-!
# Comparison

Expressions are compared head by head, numbers within a small distance of each other. The order
of the two expressions does not matter, and neither does anything attached to them. An expression
is like itself if and only if all its atoms are, which all atoms are but the numbers that are not
finite and the complex numbers with such a part.
-/

namespace PlotLisp

/-! ## Atoms -/

namespace Complex

open Number

/-- A difference of complex numbers is taken part by part. -/
theorem sub_eq (z w : Complex) : z.sub w = ⟨z.real - w.real, z.imaginary - w.imaginary⟩ := by
  rw [sub_eq_add_opposite, sub_eq_add_opposite]
  rfl

/-- The two differences of two complex numbers have the same modulus. -/
theorem alike_comm (z w : Complex) : z.alike w = w.alike z := by
  have modulus : (z.sub w).modulus = (w.sub z).modulus := by
    rw [sub_eq, sub_eq]
    exact (sameSize_sub_comm _ _).hypotenuse_eq (sameSize_sub_comm _ _)
  rw [alike, alike, modulus]

/-- A complex number is like itself if both parts are finite: an infinite part has no
difference to itself. -/
theorem alike_self (z : Complex) : z.alike z = (z.real.isFinite && z.imaginary.isFinite) := by
  rw [alike, sub_eq]
  -- Each part of the difference is zero or not a number, which leaves four moduli to compute.
  cases real : z.real.isFinite <;> cases imaginary : z.imaginary.isFinite
  · rw [sub_self_of_not_isFinite real, sub_self_of_not_isFinite imaginary]; decide
  · rw [sub_self_of_not_isFinite real, sub_self_of_isFinite imaginary]; decide
  · rw [sub_self_of_isFinite real, sub_self_of_not_isFinite imaginary]; decide
  · rw [sub_self_of_isFinite real, sub_self_of_isFinite imaginary]; decide

end Complex

namespace Atom

/-- The numbers in the atom, parts of a complex number among them, have a property. -/
def EveryNumber (Holds : Float → Prop) : Atom → Prop
  | number x => Holds x
  | complex z => Holds z.real ∧ Holds z.imaginary
  | absent | symbol _ | text _ => True

/-- No number in the atom is infinite or not a number. -/
def IsFinite (atom : Atom) : Prop :=
  atom.EveryNumber fun x => x.isFinite = true

/-- The comparison of atoms is symmetric, across all kinds. -/
theorem alike_comm (atom other : Atom) : atom.alike other = other.alike atom := by
  cases atom <;> cases other <;> try rfl
  case number.number x y => exact Number.approximately_comm x y
  case complex.complex z w => exact z.alike_comm w
  case symbol.symbol name name' => exact BEq.comm
  case text.text content content' => exact BEq.comm

/-- An atom is like itself if no number in it is infinite or not a number. -/
theorem alike_self_iff (atom : Atom) : atom.alike atom = true ↔ atom.IsFinite := by
  cases atom with
  | absent => exact iff_of_true rfl trivial
  | number x => rw [alike, Number.approximately_self]; rfl
  | complex z => rw [alike, z.alike_self, Bool.and_eq_true]; rfl
  | symbol name => exact iff_of_true (beq_self_eq_true name) trivial
  | text content => exact iff_of_true (beq_self_eq_true content) trivial

end Atom

/-! ## Expressions -/

namespace Expression

mutual

/-- The comparison of expressions is symmetric. -/
theorem alike_comm : (expression other : Expression) →
    expression.alike other = other.alike expression
  | node head children _, node head' children' _ => by
      rw [alike, alike, head.alike_comm head', alikeChildren_comm children children']

/-- The comparison of children in order is symmetric, and different numbers of them are unlike
either way. -/
theorem alikeChildren_comm : (children others : List Expression) →
    alikeChildren children others = alikeChildren others children
  | [], [] => rfl
  | [], _ :: _ => rfl
  | _ :: _, [] => rfl
  | child :: rest, other :: rest' => by
      rw [alikeChildren, alikeChildren, alike_comm child other, alikeChildren_comm rest rest']

end

mutual

/-- Properties take no part in a comparison. -/
theorem alike_skeleton : (expression other : Expression) →
    expression.skeleton.alike other.skeleton = expression.alike other
  | node head children _, node head' children' _ => by
      simp only [skeleton, form, alike, alikeChildren_skeletons children children']

/-- Properties of the children take no part in their comparison. -/
theorem alikeChildren_skeletons : (children others : List Expression) →
    alikeChildren (skeletons children) (skeletons others) = alikeChildren children others
  | [], [] => rfl
  | [], _ :: _ => rfl
  | _ :: _, [] => rfl
  | child :: rest, other :: rest' => by
      simp only [skeletons, alikeChildren, alike_skeleton child other,
        alikeChildren_skeletons rest rest']

end

/-- What is attached to two expressions takes no part in their comparison. -/
theorem alike_congr {expression expression' other other' : Expression}
    (left : expression'.skeleton = expression.skeleton)
    (right : other'.skeleton = other.skeleton) :
    expression'.alike other' = expression.alike other := by
  rw [← alike_skeleton expression' other', left, right, alike_skeleton]

mutual

/-- An expression is like itself if all its atoms are finite. -/
theorem alike_self_iff : (expression : Expression) →
    (expression.alike expression = true ↔ expression.EveryAtom Atom.IsFinite)
  | node head children properties => by
      rw [alike, Bool.and_eq_true, head.alike_self_iff, alikeChildren_self_iff children,
        everyAtom_node]

/-- Children are like themselves if all their atoms are finite. -/
theorem alikeChildren_self_iff : (children : List Expression) →
    (alikeChildren children children = true ↔
      ∀ child ∈ children, child.EveryAtom Atom.IsFinite)
  | [] => by simp [alikeChildren]
  | child :: rest => by
      rw [alikeChildren, Bool.and_eq_true, alike_self_iff child, alikeChildren_self_iff rest,
        List.forall_mem_cons]

end

/-- Comparison is symmetric and does not see what is attached to the expressions at any depth.
It is reflexive on exactly the expressions whose numbers are all finite. -/
theorem comparison_laws (expression other : Expression) :
    expression.alike other = other.alike expression ∧
      (∀ expression' other' : Expression, expression'.skeleton = expression.skeleton →
        other'.skeleton = other.skeleton → expression'.alike other' = expression.alike other) ∧
      (expression.alike expression = true ↔ expression.EveryAtom Atom.IsFinite) :=
  ⟨alike_comm expression other, fun _ _ left right => alike_congr left right,
    alike_self_iff expression⟩

/-- A list of a number is like itself, and a title on the number does not change that. -/
theorem comparison_laws_of_titled :
    (list [(number 1).withProperty "title" (literal "one")]).alike (list [number 1]) =
        (list [number 1]).alike (list [number 1]) ∧
      (list [number 1]).alike (list [number 1]) = true := by
  obtain ⟨-, blind, reflexive⟩ := comparison_laws (list [number 1]) (list [number 1])
  refine ⟨blind _ _ rfl rfl, reflexive.mpr (.node trivial ?_)⟩
  intro child member
  rw [List.mem_singleton.mp member]
  refine .node rfl ?_
  rintro grandchild ⟨⟩

/-- An infinity is a number, but less itself it is none, and so it is unlike itself. -/
theorem infinity_unlike_itself :
    ((number Number.infinity).EveryAtom fun atom => atom.EveryNumber fun x => x.isNaN = false) ∧
      (number Number.infinity).alike (number Number.infinity) = false := by
  refine ⟨.node rfl ?_, by decide⟩
  rintro child ⟨⟩

end Expression

end PlotLisp
