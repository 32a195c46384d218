import PlotLisp.Proofs.Number.Operations

/-!
# Differences and how far numbers are apart

The differences of two numbers, taken both ways, are the same but for their signs. So whether
numbers lie close together does not depend on their order. A finite number less itself is zero;
an infinity less itself is not a number, and so an infinity does not lie close to itself.
-/

namespace PlotLisp.Number

open Float.Model (UnpackedFloat)
open Float.Model.UnpackedFloat (Sign packComponents Accuracy)

variable {x y x' y' : Float}

/-! ## Results that differ in their signs -/

/-- The sign bit decides nothing about the size of what is unpacked. -/
theorem abs_unpack_packComponents (sign sign' : Sign) (exponent : BitVec 11)
    (fraction : BitVec 52) :
    (UnpackedFloat.unpack .binary64 (packComponents .binary64 sign exponent fraction)).abs =
      (UnpackedFloat.unpack .binary64
        (packComponents .binary64 sign' exponent fraction)).abs := by
  by_cases top : exponent = -1#11
  · subst top
    by_cases infinite : fraction = 0#52
    · subst infinite
      rw [unpack_infinite sign, unpack_infinite sign']
      rfl
    · rw [unpack_notANumber sign infinite, unpack_notANumber sign' infinite]
  by_cases bottom : exponent = 0#11
  · subst bottom
    by_cases zero : fraction = 0#52
    · subst zero
      rw [unpack_zero sign, unpack_zero sign']
      rfl
    · have positive := BitVec.toNat_pos_of_ne_zero zero
      rw [unpack_subnormal sign positive, unpack_subnormal sign' positive]
      rfl
  · rw [unpack_normal sign fraction bottom top, unpack_normal sign' fraction bottom top]
    rfl

/-- Encoding treats the sign apart from the rest, also where it has to give up digits. -/
theorem abs_decoded_encoded {left right : UnpackedFloat} (same : left.abs = right.abs) :
    (decoded (encoded left)).abs = (decoded (encoded right)).abs := by
  show (UnpackedFloat.unpack .binary64 (UnpackedFloat.pack .binary64 left)).abs =
    (UnpackedFloat.unpack .binary64 (UnpackedFloat.pack .binary64 right)).abs
  -- The kinds on both sides agree; `same` rules out all other pairs.
  cases left <;> cases right <;> try cases same
  case infinity.infinity => exact abs_unpack_packComponents _ _ _ _
  case notANumber.notANumber => rfl
  case zero.zero => exact abs_unpack_packComponents _ _ _ _
  case finite.finite =>
    simp only [UnpackedFloat.pack]
    split_ifs
    · exact abs_unpack_packComponents _ _ _ _
    · exact abs_unpack_packComponents _ _ _ _
    · exact abs_unpack_packComponents _ _ _ _

/-- Rounding sizes does not look at the sign. -/
theorem abs_roundWithAccuracy (sign sign' : Sign) (mantissa : ℕ) (exponent : ℤ)
    (accuracy : Accuracy) :
    (UnpackedFloat.roundWithAccuracy .binary64 sign mantissa exponent accuracy).abs =
      (UnpackedFloat.roundWithAccuracy .binary64 sign' mantissa exponent accuracy).abs := by
  unfold UnpackedFloat.roundWithAccuracy
  dsimp only
  split_ifs <;> rfl

/-- Normalizing a whole number and its negative gives one size. -/
theorem abs_normalize_neg (whole exponent : ℤ) (zeroSign : Sign) :
    (UnpackedFloat.normalize .binary64 (-whole) exponent zeroSign).abs =
      (UnpackedFloat.normalize .binary64 whole exponent zeroSign).abs := by
  unfold UnpackedFloat.normalize UnpackedFloat.round
  rcases lt_trichotomy whole 0 with negative | rfl | positive
  · rw [Int.compare_eq_lt.mpr negative, Int.compare_eq_gt.mpr (by omega)]
    exact abs_roundWithAccuracy _ _ _ _ _
  · rfl
  · rw [Int.compare_eq_gt.mpr positive, Int.compare_eq_lt.mpr (by omega), Int.neg_neg]
    exact abs_roundWithAccuracy _ _ _ _ _

/-- A difference has the same size in either order, infinite and undefined ones included. -/
theorem abs_sub_comm (left right : UnpackedFloat) :
    (UnpackedFloat.sub .binary64 left right).abs =
      (UnpackedFloat.sub .binary64 right left).abs := by
  cases left with
  | notANumber => cases right <;> rfl
  | infinity sign =>
    cases right with
    | infinity sign' => cases sign <;> cases sign' <;> rfl
    | _ => rfl
  | zero sign =>
    cases right with
    | zero sign' => cases sign <;> cases sign' <;> rfl
    | _ => rfl
  | finite sign mantissa exponent positive =>
    cases right with
    | finite sign' mantissa' exponent' positive' =>
      simp only [UnpackedFloat.sub]
      rw [← abs_normalize_neg, Int.neg_sub, min_comm]
    | _ => rfl

/-! ## Numbers of one size -/

/-- The numbers are the same but for their signs. -/
def SameSize (x y : Float) : Prop :=
  (decoded x).abs = (decoded y).abs

namespace SameSize

/-- Numbers of one size have one absolute value. -/
theorem abs_eq (same : SameSize x y) : x.abs = y.abs :=
  congrArg encoded same

/-- What does not depend on the sign is the same for numbers of one size. -/
theorem congr {α : Type} (same : SameSize x y) (feature : UnpackedFloat → α)
    (signless : ∀ unpacked, feature unpacked.abs = feature unpacked) :
    feature (decoded x) = feature (decoded y) := by
  rw [← signless (decoded x), same, signless]

/-- Numbers of one size are infinite together. -/
theorem isInf_eq (same : SameSize x y) : x.isInf = y.isInf :=
  same.congr UnpackedFloat.isInf fun unpacked => by cases unpacked <;> rfl

/-- Numbers of one size fail to be numbers together. -/
theorem isNaN_eq (same : SameSize x y) : x.isNaN = y.isNaN :=
  same.congr UnpackedFloat.isNaN fun unpacked => by cases unpacked <;> rfl

/-- Numbers of one size have one significand and exponent. -/
theorem size_eq (same : SameSize x y) : size (decoded x) = size (decoded y) :=
  same.congr size fun unpacked => by cases unpacked <;> rfl

/-- The length of a hypotenuse depends on the sizes of its sides only. -/
theorem hypotenuse_eq (first : SameSize x x') (second : SameSize y y') :
    hypotenuse x y = hypotenuse x' y' := by
  simp only [hypotenuse, first.isInf_eq, second.isInf_eq, first.isNaN_eq, second.isNaN_eq,
    first.size_eq, second.size_eq]

end SameSize

/-- Both differences of two numbers have one size, whatever the numbers are. -/
theorem sameSize_sub_comm (x y : Float) : SameSize (x - y) (y - x) :=
  abs_decoded_encoded (abs_sub_comm (decoded x) (decoded y))

/-- Approximate equality is symmetric, whatever the operands. -/
theorem approximately_comm (x y : Float) : approximately x y = approximately y x := by
  simp only [approximately, (sameSize_sub_comm x y).abs_eq]

/-! ## A number and itself -/

/-- A finite number differs from itself by exactly zero. -/
theorem sub_self_of_isFinite (finite : x.isFinite = true) : x - x = 0 := by
  have difference : x - x = encoded (UnpackedFloat.sub .binary64 (decoded x) (decoded x)) := rfl
  obtain ⟨sign, ⟨shape, -⟩ | ⟨mantissa, exponent, canonical, shape, -⟩⟩ := decoded_cases finite
  · rw [difference, shape]
    cases sign <;> rfl
  · rw [difference, shape, UnpackedFloat.sub]
    simp only [Int.sub_self]
    rfl

/-- An infinity, like the double that is no number, has no difference to itself. -/
theorem sub_self_of_not_isFinite (special : x.isFinite = false) : x - x = notANumber := by
  have difference : x - x = encoded (UnpackedFloat.sub .binary64 (decoded x) (decoded x)) := rfl
  have kind : (decoded x).isFinite = false := special
  rw [difference]
  cases shape : decoded x with
  | notANumber => rfl
  | infinity sign => cases sign <;> rfl
  | zero sign => rw [shape] at kind; cases kind
  | finite => rw [shape] at kind; cases kind

/-- A number lies close to itself if and only if it is finite. -/
theorem approximately_self (x : Float) : approximately x x = x.isFinite := by
  unfold approximately
  cases finite : x.isFinite with
  | true => rw [sub_self_of_isFinite finite]; decide
  | false => rw [sub_self_of_not_isFinite finite]; decide

end PlotLisp.Number
