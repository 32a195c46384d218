import Mathlib
import PlotLisp.Number.Arithmetic

/-!
# Finite numbers and their bits

The bits of a number are a sign, a biased exponent, and a fraction. What they stand for
is a signed significand of 53 bits with an exponent, or one of the special kinds. Bits
and meaning determine each other for all numbers but the one that is not a number.
-/

namespace PlotLisp.Number

open Float.Model (UnpackedFloat Format)
open Float.Model.UnpackedFloat (Sign packComponents unpackSign unpackExponent unpackMantissa)

variable {format : Format}

/-! ## What the parts stand for -/

/-- The significand and the exponent of a finite number other than zero: 53 bits, the
first of which may be clear only at the least exponent. -/
structure Canonical (mantissa : Nat) (exponent : Int) : Prop where
  positive : 0 < mantissa
  normal : mantissa.log2 = 52 ∨ mantissa.log2 < 52 ∧ exponent = -1074
  least : -1074 ≤ exponent
  greatest : exponent ≤ 971

variable {mantissa : Nat} {exponent : Int}

/-- The leading bit of a normal number is not stored. -/
theorem toNat_implicit (fraction : BitVec 52) :
    (1#1 ++ fraction).toNat = (1 <<< 52) + fraction.toNat := by
  rw [BitVec.toNat_append, Nat.shiftLeft_add_eq_or_of_lt fraction.isLt]
  rfl

/-- An exponent field strictly between the two reserved ones is that of a normal number: the
fraction follows an implicit leading one. -/
theorem unpack_normal (sign : Sign) {exponent : BitVec 11} (fraction : BitVec 52)
    (nonzero : exponent ≠ 0#11) (finite : exponent ≠ -1#11) :
    UnpackedFloat.unpack .binary64 (packComponents .binary64 sign exponent fraction) =
      .finite sign ((1 <<< 52) + fraction.toNat) (exponent.toNat - 1075)
        (Nat.add_pos_left (by decide) _) := by
  unfold UnpackedFloat.unpack
  simp only [UnpackedFloat.unpackMantissa_packComponents,
    UnpackedFloat.unpackExponent_packComponents, UnpackedFloat.unpackSign_packComponents, Sign.ofBitVec_toBitVec]
  rw [if_neg finite, if_neg nonzero]
  congr 1
  exact toNat_implicit fraction

/-- Under exponent field zero a fraction stands by itself, at the least exponent. -/
theorem unpack_subnormal (sign : Sign) {fraction : BitVec 52} (positive : 0 < fraction.toNat) :
    UnpackedFloat.unpack .binary64 (packComponents .binary64 sign 0#11 fraction) =
      .finite sign fraction.toNat (-1074) positive := by
  have nonzero : fraction ≠ 0#52 := by
    rintro rfl
    exact absurd positive (by decide)
  unfold UnpackedFloat.unpack
  simp only [UnpackedFloat.unpackMantissa_packComponents,
    UnpackedFloat.unpackExponent_packComponents, UnpackedFloat.unpackSign_packComponents, Sign.ofBitVec_toBitVec]
  rw [if_neg (by decide), if_pos trivial, dif_neg nonzero]
  rfl

/-- The all-ones exponent field with an empty fraction encodes the infinity of its sign. -/
theorem unpack_infinite (sign : Sign) :
    UnpackedFloat.unpack .binary64 (packComponents .binary64 sign (-1#11) 0#52) =
      .infinity sign := by
  unfold UnpackedFloat.unpack
  simp only [UnpackedFloat.unpackMantissa_packComponents,
    UnpackedFloat.unpackExponent_packComponents, UnpackedFloat.unpackSign_packComponents, Sign.ofBitVec_toBitVec]
  rfl

/-- Every other fraction under the all-ones exponent field is no number, whatever its sign bit. -/
theorem unpack_notANumber (sign : Sign) {fraction : BitVec 52} (nonzero : fraction ≠ 0#52) :
    UnpackedFloat.unpack .binary64 (packComponents .binary64 sign (-1#11) fraction) =
      .notANumber := by
  unfold UnpackedFloat.unpack
  simp only [UnpackedFloat.unpackMantissa_packComponents,
    UnpackedFloat.unpackExponent_packComponents, UnpackedFloat.unpackSign_packComponents, Sign.ofBitVec_toBitVec]
  rw [if_pos trivial, if_neg nonzero]

/-- An empty fraction under exponent field zero is the zero that keeps its sign. -/
theorem unpack_zero (sign : Sign) :
    UnpackedFloat.unpack .binary64 (packComponents .binary64 sign 0#11 0#52) = .zero sign := by
  unfold UnpackedFloat.unpack
  simp only [UnpackedFloat.unpackMantissa_packComponents,
    UnpackedFloat.unpackExponent_packComponents, UnpackedFloat.unpackSign_packComponents, Sign.ofBitVec_toBitVec]
  rfl

/-- A field that is neither reserved value lies between 1 and 2046. -/
theorem toNat_bounds {exponent : BitVec 11} (nonzero : exponent ≠ 0#11)
    (finite : exponent ≠ -1#11) : 1 ≤ exponent.toNat ∧ exponent.toNat ≤ 2046 := by
  have bounded := exponent.isLt
  have positive := BitVec.toNat_pos_of_ne_zero nonzero
  have last : exponent.toNat ≠ 2047 := fun same =>
    finite (BitVec.eq_of_toNat_eq (same.trans (by decide)))
  omega

/-- The implicit one is the leading bit, so a normal mantissa has exactly 53 bits. -/
theorem log2_implicit (fraction : BitVec 52) : ((1 <<< 52) + fraction.toNat).log2 = 52 := by
  have bounded := fraction.isLt
  have positive : (1 <<< 52) + fraction.toNat ≠ 0 := Nat.ne_of_gt (Nat.add_pos_left (by decide) _)
  rw [Nat.log2_eq_iff positive, Nat.shiftLeft_eq]
  omega

/-! ## What is stored -/

/-- A mantissa of 53 bits whose exponent is in range packs as a normal number, its leading one
dropped. -/
theorem pack_normal (sign : Sign) (positive : 0 < mantissa) (normal : mantissa.log2 = 52)
    (least : -1074 ≤ exponent) (greatest : exponent ≤ 971) :
    UnpackedFloat.pack .binary64 (.finite sign mantissa exponent positive) =
      packComponents .binary64 sign (BitVec.ofNat 11 (exponent + 1075).toNat)
        (BitVec.ofNat 52 mantissa) := by
  have biased : (exponent + (1023 : Nat) + (52 : Nat)).toNat = (exponent + 1075).toNat := by omega
  have fits : ¬ 2048 ≤ (exponent + (1023 : Nat) + (52 : Nat)).toNat + 1 := by omega
  rw [← biased]
  exact (if_neg fits).trans (if_pos (congrArg (· + 1) normal))

/-- A shorter mantissa at the least exponent packs under exponent field zero with all its bits. -/
theorem pack_subnormal (sign : Sign) (positive : 0 < mantissa) (subnormal : mantissa.log2 < 52)
    (least : exponent = -1074) :
    UnpackedFloat.pack .binary64 (.finite sign mantissa exponent positive) =
      packComponents .binary64 sign 0#11 (BitVec.ofNat 52 mantissa) := by
  have fits : ¬ 2048 ≤ (exponent + (1023 : Nat) + (52 : Nat)).toNat + 1 := by omega
  have short : ¬ mantissa.log2 + 1 = 53 := by omega
  exact (if_neg fits).trans (if_neg short)

/-- The stored exponent of a normal number fits, and is neither of the reserved ones. -/
theorem biased_exponent (least : -1074 ≤ exponent) (greatest : exponent ≤ 971) :
    (BitVec.ofNat 11 (exponent + 1075).toNat).toNat = (exponent + 1075).toNat ∧
      BitVec.ofNat 11 (exponent + 1075).toNat ≠ 0#11 ∧
      BitVec.ofNat 11 (exponent + 1075).toNat ≠ -1#11 := by
  have biased : (BitVec.ofNat 11 (exponent + 1075).toNat).toNat = (exponent + 1075).toNat := by
    rw [BitVec.toNat_ofNat]
    omega
  refine ⟨biased, fun zero => ?_, fun last => ?_⟩
  · have stored : (exponent + 1075).toNat = 0 := biased ▸ congrArg BitVec.toNat zero
    omega
  · have stored : (exponent + 1075).toNat = 2047 := biased ▸ congrArg BitVec.toNat last
    omega

namespace Canonical

/-- A canonical number survives packing. -/
theorem unpack_pack (canonical : Canonical mantissa exponent) (sign : Sign) :
    UnpackedFloat.unpack .binary64 (UnpackedFloat.pack .binary64
      (.finite sign mantissa exponent canonical.positive)) =
        .finite sign mantissa exponent canonical.positive := by
  obtain ⟨positive, normal | ⟨subnormal, rfl⟩, least, greatest⟩ := canonical
  · have bounds := (Nat.log2_eq_iff (Nat.ne_of_gt positive)).mp normal
    obtain ⟨biased, nonzero, finite⟩ := biased_exponent least greatest
    rw [pack_normal sign positive normal least greatest, unpack_normal sign _ nonzero finite]
    congr 1
    · rw [BitVec.toNat_ofNat, Nat.shiftLeft_eq]
      omega
    · omega
  · have bound := (Nat.log2_lt (Nat.ne_of_gt positive)).mp subnormal
    have fraction : (BitVec.ofNat 52 mantissa).toNat = mantissa := by
      rw [BitVec.toNat_ofNat]
      omega
    have nonzero : 0 < (BitVec.ofNat 52 mantissa).toNat := fraction.symm ▸ positive
    rw [pack_subnormal sign positive subnormal rfl, unpack_subnormal sign nonzero]
    congr 1

end Canonical

/-- Bits other than those of the number that is not a number are recovered from what they
stand for. -/
theorem unpack_cases (sign : Sign) (exponent : BitVec 11) (fraction : BitVec 52)
    (value : UnpackedFloat)
    (same : UnpackedFloat.unpack .binary64 (packComponents .binary64 sign exponent fraction) =
      value) :
    value = .notANumber ∨
      UnpackedFloat.pack .binary64 value = packComponents .binary64 sign exponent fraction ∧
        (value = .infinity sign ∨ value = .zero sign ∨
          ∃ mantissa exponent, ∃ canonical : Canonical mantissa exponent,
            value = .finite sign mantissa exponent canonical.positive) := by
  -- The exponent field tells the kinds apart: all ones, all zeros, or that of a normal number.
  by_cases top : exponent = -1#11
  · subst top
    by_cases infinite : fraction = 0#52
    · subst infinite
      rw [unpack_infinite sign] at same
      subst same
      exact .inr ⟨rfl, .inl rfl⟩
    · exact .inl (same.symm.trans (unpack_notANumber sign infinite))
  by_cases zero : exponent = 0#11
  · subst zero
    by_cases nothing : fraction = 0#52
    · subst nothing
      rw [unpack_zero sign] at same
      subst same
      exact .inr ⟨rfl, .inr (.inl rfl)⟩
    · have positive : 0 < fraction.toNat := BitVec.toNat_pos_of_ne_zero nothing
      have short := (Nat.log2_lt (Nat.ne_of_gt positive)).mpr fraction.isLt
      rw [unpack_subnormal sign positive] at same
      subst same
      refine .inr ⟨?_, .inr (.inr ⟨_, _, ⟨positive, .inr ⟨short, rfl⟩, by decide, by decide⟩, rfl⟩)⟩
      rw [pack_subnormal sign positive short rfl, BitVec.ofNat_toNat, BitVec.setWidth_eq]
  · obtain ⟨least, greatest⟩ := toNat_bounds zero top
    have bias : ((exponent.toNat : Int) - 1075 + 1075).toNat = exponent.toNat := by omega
    have normal := log2_implicit fraction
    have implicit : BitVec.ofNat 52 ((1 <<< 52) + fraction.toNat) = fraction := by
      apply BitVec.eq_of_toNat_eq
      have bounded := fraction.isLt
      rw [BitVec.toNat_ofNat, Nat.shiftLeft_eq]
      omega
    rw [unpack_normal sign fraction zero top] at same
    subst same
    refine .inr ⟨?_, .inr (.inr ⟨_, _, ⟨Nat.add_pos_left (by decide) _, .inl normal, by omega,
      by omega⟩, rfl⟩)⟩
    rw [pack_normal sign _ normal (by omega) (by omega), bias, implicit, BitVec.ofNat_toNat,
      BitVec.setWidth_eq]

/-- The sign of a number whose sign bit is set or not. -/
def signOf (negative : Bool) : Sign :=
  if negative then .negative else .positive

/-- The sign bit is the first of the three parts. -/
theorem isNegative_of_packComponents {x : Float} {sign : Sign} {exponent : BitVec 11}
    {fraction : BitVec 52}
    (bits : x.toBits.toBitVec = packComponents .binary64 sign exponent fraction) :
    signOf (isNegative x) = sign := by
  have top : isNegative x = decide (@unpackSign .binary64 x.toBits.toBitVec = 1#1) := by
    rw [isNegative, Bool.eq_iff_iff, beq_iff_eq, decide_eq_true_iff, ← UInt64.toNat_inj,
      ← BitVec.toNat_inj]
    have bounded := x.toBits.toNat_lt
    simp [unpackSign, Nat.shiftRight_eq_div_pow]
    omega
  rw [top, bits, UnpackedFloat.unpackSign_packComponents]
  cases sign <;> rfl

/-- A finite number is a zero or has a canonical significand and exponent, with the sign
of its sign bit, and is encoded from them again. -/
theorem decoded_of_isFinite {x : Float} (finite : x.isFinite = true) :
    encoded (decoded x) = x ∧ (decoded x = .zero (signOf (isNegative x)) ∨
      ∃ mantissa exponent, ∃ canonical : Canonical mantissa exponent,
        decoded x = .finite (signOf (isNegative x)) mantissa exponent canonical.positive) := by
  have parts :=
    @UnpackedFloat.packComponents_unpackSign_unpackExponent_unpackMantissa .binary64
      x.toBits.toBitVec
  rw [isNegative_of_packComponents parts.symm]
  have value : (decoded x).isFinite = true := finite
  rcases unpack_cases _ _ _ (decoded x) (congrArg (UnpackedFloat.unpack .binary64) parts) with
    special | ⟨packed, cases⟩
  · rw [special] at value
    cases value
  · refine ⟨?_, ?_⟩
    · have bits : UnpackedFloat.pack .binary64 (decoded x) = x.toBits.toBitVec :=
        packed.trans parts
      obtain ⟨word, valid⟩ := x
      have word : UInt64.ofBitVec (UnpackedFloat.pack .binary64 (decoded ⟨word, valid⟩)) = word :=
        congrArg UInt64.ofBitVec bits
      exact congrArg Float.ofModel (Float.Model.mk.injEq .. ▸ word)
    · rcases cases with infinite | rest
      · rw [infinite] at value
        cases value
      · exact rest

/-! ## Opposites -/

/-- Negating the positive zero or leaving it alone gives the zero of either sign, as the reader of
numbers does. -/
theorem neg_encoded_zero (negative : Bool) :
    (if negative then -encoded (.zero .positive) else encoded (.zero .positive)) =
      encoded (.zero (signOf negative)) := by
  cases negative with
  | false => rfl
  | true => decide

/-- The opposite has the same significand and exponent. -/
theorem Canonical.neg_encoded (canonical : Canonical mantissa exponent) (negative : Bool) :
    (if negative then -encoded (.finite .positive mantissa exponent canonical.positive)
      else encoded (.finite .positive mantissa exponent canonical.positive)) =
      encoded (.finite (signOf negative) mantissa exponent canonical.positive) := by
  cases negative with
  | false => rfl
  | true =>
    have same := canonical.unpack_pack .positive
    exact congrArg (fun value => Float.ofModel (Float.Model.pack value.neg)) same

end PlotLisp.Number
