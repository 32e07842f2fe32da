import Mathlib
import GameSheet.Cell

/-!
# Integers as floats

An integer as a float is a number (`Decimal.isNaN_ofInt`): what is rounded is zero or finite, the product of two numbers
one of which is finite is a number, and packing a number into the bits of a float keeps it one
(`Decimal.isNaN_unpack_pack`).
-/

namespace GameSheet.Decimal

open Float.Model UnpackedFloat

/-! ## Packed numbers -/

variable {spec : Format}

theorem isNaN_unpack {b : BitVec spec.numBits} (h : unpackExponent b = -1#_ → unpackMantissa b = 0#_) :
    (unpack spec b).isNaN = false := by
  unfold UnpackedFloat.unpack
  dsimp only
  split
  · next hexponent =>
    rw [if_pos (h hexponent)]
    rfl
  · split
    · split <;> rfl
    · rfl

theorem zero_ne_allOnes (spec : Format) : (0#_ : BitVec spec.exponentBits) ≠ -1#_ := by
  have hpow : 2 ^ 1 ≤ 2 ^ spec.exponentBits := Nat.pow_le_pow_right (by decide) spec.he
  rw [BitVec.neg_one_eq_allOnes, Ne, ← BitVec.toNat_inj, BitVec.toNat_allOnes, BitVec.toNat_ofNat, Nat.zero_mod]
  omega

/-- **A number that is packed stays a number.** Its exponent is too small for NaN, or it becomes an infinity. -/
theorem isNaN_unpack_pack {u : UnpackedFloat} (h : u.isNaN = false) : (unpack spec (pack spec u)).isNaN = false := by
  refine isNaN_unpack fun hexponent => ?_
  cases u with
  | notANumber => cases h
  | infinity s => exact unpackMantissa_packComponents
  | zero s => exact unpackMantissa_packComponents
  | finite s m e hm =>
    unfold UnpackedFloat.pack at hexponent ⊢
    dsimp only at hexponent ⊢
    split at hexponent
    · next hlarge =>
      rw [if_pos hlarge]
      exact unpackMantissa_packComponents
    · next hsmall =>
      split at hexponent
      · rw [unpackExponent_packComponents, BitVec.neg_one_eq_allOnes, ← BitVec.toNat_inj, BitVec.toNat_allOnes,
          BitVec.toNat_ofNat, Nat.mod_eq_of_lt (by omega)] at hexponent
        omega
      · rw [unpackExponent_packComponents] at hexponent
        exact absurd hexponent (zero_ne_allOnes spec)

/-! ## Operations -/

theorem isNaN_roundWithAccuracy (s : Sign) (m : Nat) (e : Int) (accuracy : Accuracy) :
    (roundWithAccuracy spec s m e accuracy).isNaN = false := by
  unfold roundWithAccuracy
  dsimp only
  split <;> rfl

theorem isNaN_ofInt_unpacked (n : Int) : (UnpackedFloat.ofInt spec n).isNaN = false := by
  unfold UnpackedFloat.ofInt UnpackedFloat.normalize
  split
  · exact isNaN_roundWithAccuracy _ _ _ _
  · rfl
  · exact isNaN_roundWithAccuracy _ _ _ _

theorem isNaN_mul_finite {u : UnpackedFloat} (h : u.isNaN = false) {s : Sign} {m : Nat} {e : Int} (hm : 0 < m) :
    (UnpackedFloat.mul spec u (.finite s m e hm)).isNaN = false := by
  cases u with
  | notANumber => cases h
  | infinity s => rfl
  | zero s => rfl
  | finite s' m' e' hm' => exact isNaN_roundWithAccuracy _ _ _ _

theorem isNaN_ofScientific (m n : Nat) : (UnpackedFloat.ofScientific spec m (Int.ofNat n)).isNaN = false := by
  unfold UnpackedFloat.ofScientific
  split
  · rfl
  · split
    · rfl
    · split
      · rfl
      · split
        · exact isNaN_mul_finite rfl _
        · next hneg => exact absurd (Int.natCast_nonneg n) hneg

/-! ## Floats -/

theorem isNaN_ofModel_pack {u : UnpackedFloat} (h : u.isNaN = false) :
    (Float.ofModel (Float.Model.pack u)).isNaN = false :=
  isNaN_unpack_pack h

theorem isNaN_ofNat (n : Nat) : (Float.ofNat n).isNaN = false := by
  have hofNat : Float.ofNat n = Float.ofScientific n false 0 := rfl
  rw [hofNat, Float.ofScientific]
  split
  · -- a small number is a product with the power of ten that is one
    have hone : (Float.ofBits 0x3FF0000000000000).toModel.unpack = .finite .positive (2 ^ 52) (-52) (by decide) := rfl
    have hsmall : n.toUInt64.toFloat.isNaN = false := isNaN_ofModel_pack (isNaN_ofInt_unpacked _)
    refine isNaN_ofModel_pack ?_
    show (UnpackedFloat.mul _ _ (Float.ofBits 0x3FF0000000000000).toModel.unpack).isNaN = false
    rw [hone]
    exact isNaN_mul_finite hsmall _
  · exact isNaN_ofModel_pack (isNaN_ofScientific n 0)

theorem isNaN_neg {x : Float} (h : x.isNaN = false) : (Float.neg x).isNaN = false := by
  refine isNaN_ofModel_pack ?_
  have hx : x.toModel.unpack.isNaN = false := h
  cases hu : x.toModel.unpack with
  | notANumber =>
    rw [hu] at hx
    cases hx
  | _ => rfl

/-- **An integer as a float is a number.** -/
theorem isNaN_ofInt (n : Int) : (Float.ofInt n).isNaN = false := by
  cases n with
  | ofNat n => exact isNaN_ofNat n
  | negSucc n => exact isNaN_neg (isNaN_ofNat (n + 1))

end GameSheet.Decimal
