import GameSheet.Decimal.Exact
import Mathlib

/-!
# Floats and their bits

A float is packed into 64 bits: its sign, its exponent and its significand. Unpacking gives the number back that was
packed (**`Decimal.unpack_pack`**), if its significand and its exponent are those of a float (`Decimal.Canonical`), and a
float is what its unpacked number is packed to (**`Decimal.ofModel_pack_unpack`**). The exact value and the sign that are
read from the bits are those of the unpacked number (`Decimal.magnitude_of_unpack`, `Decimal.magnitude_of_zero`).
-/

namespace GameSheet.Decimal

open Float.Model UnpackedFloat

/-! ## The parts of the bits -/

section Parts

variable {spec : Format}

theorem toNat_unpackMantissa (b : BitVec spec.numBits) :
    (unpackMantissa b).toNat = b.toNat % 2 ^ spec.mantissaBitsWithoutImplicit := by
  have hwidth : spec.mantissaBitsWithoutImplicit - 1 - 0 + 1 = spec.mantissaBitsWithoutImplicit := by
    have := spec.hm
    omega
  simp only [unpackMantissa, BitVec.toNat_cast, BitVec.extractLsb_toNat, Nat.shiftRight_zero, hwidth]

theorem toNat_unpackExponent (b : BitVec spec.numBits) :
    (unpackExponent b).toNat = b.toNat / 2 ^ spec.mantissaBitsWithoutImplicit % 2 ^ spec.exponentBits := by
  have hwidth : spec.mantissaBitsWithoutImplicit + spec.exponentBits - 1 - spec.mantissaBitsWithoutImplicit + 1 =
      spec.exponentBits := by
    have := spec.he
    omega
  simp only [unpackExponent, BitVec.toNat_cast, BitVec.extractLsb_toNat, Nat.shiftRight_eq_div_pow, hwidth]

theorem toNat_unpackSign (b : BitVec spec.numBits) :
    (unpackSign b).toNat = b.toNat / 2 ^ spec.mantissaBitsWithoutImplicit / 2 ^ spec.exponentBits := by
  have hbound : b.toNat / 2 ^ spec.mantissaBitsWithoutImplicit / 2 ^ spec.exponentBits < 2 ^ 1 := by
    rw [Nat.div_div_eq_div_mul, ← Nat.pow_add]
    apply Nat.div_lt_of_lt_mul
    rw [← Nat.pow_add]
    have hwidth : spec.mantissaBitsWithoutImplicit + spec.exponentBits + 1 =
        1 + spec.exponentBits + spec.mantissaBitsWithoutImplicit := by omega
    rw [hwidth]
    exact b.isLt
  simp only [unpackSign, BitVec.toNat_cast, BitVec.extractLsb_toNat, Nat.shiftRight_eq_div_pow, Nat.sub_self,
    Nat.pow_add, ← Nat.div_div_eq_div_mul]
  exact Nat.mod_eq_of_lt hbound

end Parts

/-! ## Finite numbers -/

/-- The significand and the exponent of a finite float. -/
structure Canonical (m : Nat) (e : Int) : Prop where
  pos : 0 < m
  lt : m < 2 ^ 53
  least : -1074 ≤ e
  normal : e = -1074 ∨ 2 ^ 52 ≤ m

theorem pack_finite {s : Sign} {m : Nat} {e : Int} {hm : 0 < m} (h : Canonical m e) (he : e ≤ 971) :
    UnpackedFloat.pack Format.binary64 (.finite s m e hm) = packComponents Format.binary64 s
      (BitVec.ofNat 11 (if m < 2 ^ 52 then 0 else (e + 1075).toNat)) (BitVec.ofNat 52 m) := by
  have hleast := h.least
  have hlog : (m.log2 + 1 = Format.binary64.mantissaBits) ↔ ¬m < 2 ^ 52 := by
    have hbits : Format.binary64.mantissaBits = 53 := rfl
    have hlt := (Nat.log2_lt h.pos.ne').2 h.lt
    rw [hbits, ← Nat.log2_lt h.pos.ne']
    omega
  have hbias : (e + Format.binary64.exponentBias + (52 : Nat)).toNat = (e + 1075).toNat := by
    have hbias : (Format.binary64.exponentBias : Int) = 1023 := rfl
    rw [hbias]
    congr 1
    omega
  simp only [UnpackedFloat.pack, hlog]
  rw [hbias, if_neg (by simp; omega)]
  split_ifs with hsmall
  · rfl
  · rfl

/-- A finite number is its sign, its significand and its exponent. -/
theorem finite_congr {s : Sign} {m m' : Nat} {e e' : Int} {hm : 0 < m} {hm' : 0 < m'} (h : m = m') (he : e = e') :
    UnpackedFloat.finite s m e hm = .finite s m' e' hm' := by
  subst h he
  rfl

theorem unpack_pack {s : Sign} {m : Nat} {e : Int} {hm : 0 < m} (h : Canonical m e) (he : e ≤ 971) :
    UnpackedFloat.unpack Format.binary64 (UnpackedFloat.pack Format.binary64 (.finite s m e hm)) = .finite s m e hm := by
  have hbias : (Format.binary64.exponentBias : Int) = 1023 := rfl
  have hleast := h.least
  have hlt := h.lt
  have hnormal := h.normal
  rw [pack_finite h he]
  unfold UnpackedFloat.unpack
  simp only [unpackExponent_packComponents, unpackMantissa_packComponents, unpackSign_packComponents,
    Sign.ofBitVec_toBitVec, hbias]
  by_cases hsmall : m < 2 ^ 52
  · have hmantissa : BitVec.ofNat 52 m ≠ 0#52 := by
      simp [← BitVec.toNat_inj]
      omega
    rw [if_pos hsmall, if_neg (by decide), if_pos rfl, dif_neg hmantissa]
    refine finite_congr ?_ ?_
    · rw [BitVec.toNat_ofNat, Nat.mod_eq_of_lt hsmall]
    · simp
      omega
  · have hfits : (e + 1075).toNat % 2 ^ 11 = (e + 1075).toNat := Nat.mod_eq_of_lt (by omega)
    have hall : BitVec.ofNat 11 (e + 1075).toNat ≠ -1#11 := by
      rw [BitVec.neg_one_eq_allOnes, Ne, ← BitVec.toNat_inj, BitVec.toNat_allOnes, BitVec.toNat_ofNat, hfits]
      omega
    have hzero : BitVec.ofNat 11 (e + 1075).toNat ≠ 0#11 := by
      rw [Ne, ← BitVec.toNat_inj, BitVec.toNat_ofNat, BitVec.toNat_ofNat, hfits]
      omega
    rw [if_neg hsmall, if_neg hall, if_neg hzero]
    refine finite_congr ?_ ?_
    · rw [BitVec.toNat_append, BitVec.toNat_ofNat, BitVec.toNat_ofNat,
        ← Nat.shiftLeft_add_eq_or_of_lt (Nat.mod_lt _ (by decide)), Nat.shiftLeft_eq]
      omega
    · rw [BitVec.toNat_ofNat, hfits]
      omega

/-- The parts of the bits of a finite float. -/
theorem bits_of_unpack {b : BitVec Format.binary64.numBits} {s : Sign} {m : Nat} {e : Int} {hm : 0 < m}
    (h : UnpackedFloat.unpack Format.binary64 b = .finite s m e hm) :
    Canonical m e ∧ e ≤ 971 ∧ s = .ofBitVec (unpackSign b) ∧
      unpackExponent b = BitVec.ofNat 11 (if m < 2 ^ 52 then 0 else (e + 1075).toNat) ∧
      unpackMantissa b = BitVec.ofNat 52 m := by
  have hbias : (Format.binary64.exponentBias : Int) = 1023 := rfl
  have hmantissa : (unpackMantissa b).toNat < 2 ^ 52 := (unpackMantissa b).isLt
  have hexponent : (unpackExponent b).toNat < 2 ^ 11 := (unpackExponent b).isLt
  unfold UnpackedFloat.unpack at h
  simp only [hbias] at h
  split_ifs at h with hall hnan hzero hnull
  · rw [hzero] at h
    injection h with hs hm' he
    subst hs hm' he
    rw [if_pos hmantissa]
    refine ⟨⟨hm, by omega, by simp, .inl (by simp)⟩, by simp, rfl, hzero, ?_⟩
    rw [BitVec.ofNat_toNat, BitVec.setWidth_eq]
  · injection h with hs hm' he
    have hone : (1#1 : BitVec 1).toNat = 1 := rfl
    rw [BitVec.toNat_append, ← Nat.shiftLeft_add_eq_or_of_lt hmantissa, Nat.shiftLeft_eq, hone] at hm'
    have hpos : (unpackExponent b).toNat ≠ 0 := by
      intro hnull
      exact hzero (BitVec.eq_of_toNat_eq hnull)
    have hlast : (unpackExponent b).toNat ≠ 2047 := by
      intro hlast
      exact hall (BitVec.eq_of_toNat_eq hlast)
    subst hs
    rw [if_neg (by omega)]
    refine ⟨⟨hm, by omega, by omega, .inr (by omega)⟩, by omega, rfl, ?_, ?_⟩
    · apply BitVec.eq_of_toNat_eq
      rw [BitVec.toNat_ofNat, Nat.mod_eq_of_lt (by omega)]
      omega
    · apply BitVec.eq_of_toNat_eq
      have hpow : 2 ^ Format.binary64.mantissaBitsWithoutImplicit = 2 ^ 52 := rfl
      rw [BitVec.toNat_ofNat, hpow]
      omega

/-! ## Floats -/

/-- **A float is what its unpacked number is packed to.** -/
theorem ofModel_pack_unpack (x : Float) : .ofModel (.pack x.toModel.unpack) = x :=
  Float.ofBits_toBits x

/-- The bits of a float in its format. -/
def packedBits (x : Float) : BitVec Format.binary64.numBits :=
  x.toModel.toBits.toBitVec

theorem toNat_packedBits (x : Float) : (packedBits x).toNat = x.toBits.toNat := rfl

/-- The sign of a float is that of its bits. -/
theorem isNegative_iff (x : Float) : isNegative x = true ↔ Sign.ofBitVec (unpackSign (packedBits x)) = .negative := by
  have hbound := x.toBits.toNat_lt
  have hnegative : isNegative x = true ↔ 2 ^ 63 ≤ x.toBits.toNat := by
    simp only [isNegative, decide_eq_true_eq, UInt64.le_iff_toNat_le]
    rfl
  have hpositive : unpackSign (packedBits x) = 0#1 ↔ x.toBits.toNat < 2 ^ 63 := by
    rw [← BitVec.toNat_inj, toNat_unpackSign, toNat_packedBits]
    have hwidths : x.toBits.toNat / 2 ^ Format.binary64.mantissaBitsWithoutImplicit /
        2 ^ Format.binary64.exponentBits = x.toBits.toNat / 2 ^ 52 / 2 ^ 11 := rfl
    rw [hwidths, BitVec.toNat_ofNat]
    omega
  rw [hnegative, Sign.ofBitVec]
  split_ifs with h
  · simpa using hpositive.1 h
  · have hlarge := mt hpositive.2 h
    simp
    omega

/-- The exact value of a float is that of its unpacked number. -/
theorem magnitude_of_unpack {x : Float} {s : Sign} {m : Nat} {e : Int} {hm : 0 < m}
    (h : x.toModel.unpack = .finite s m e hm) :
    Magnitude.ofFloat x = ⟨m, e⟩ ∧ (isNegative x = true ↔ s = .negative) := by
  obtain ⟨⟨-, hlt, hleast, hnormal⟩, he, rfl, hexponent, hmantissa⟩ := @bits_of_unpack (packedBits x) _ _ _ _ h
  refine ⟨?_, isNegative_iff x⟩
  have hfraction : x.toBits.toNat % 2 ^ 52 = m % 2 ^ 52 := by
    have hm' := congrArg BitVec.toNat hmantissa
    rwa [toNat_unpackMantissa, BitVec.toNat_ofNat] at hm'
  have hbiased : x.toBits.toNat / 2 ^ 52 % 2 ^ 11 = (if m < 2 ^ 52 then 0 else (e + 1075).toNat) % 2 ^ 11 := by
    have he' := congrArg BitVec.toNat hexponent
    rwa [toNat_unpackExponent, BitVec.toNat_ofNat] at he'
  have hbound : Magnitude.normalBound = 2 ^ 52 := rfl
  simp only [Magnitude.ofFloat, hbound]
  by_cases hsmall : m < 2 ^ 52
  · rw [if_pos hsmall] at hbiased
    rw [if_pos (by omega)]
    congr 1 <;> omega
  · rw [if_neg hsmall] at hbiased
    rw [if_neg (by omega)]
    congr 1 <;> omega

/-- A zero has no size. -/
theorem magnitude_of_zero {x : Float} {s : Sign} (h : x.toModel.unpack = .zero s) :
    (Magnitude.ofFloat x).significand = 0 ∧ (isNegative x = true ↔ s = .negative) := by
  have hx := ofModel_pack_unpack x
  rw [h] at hx
  rw [← hx]
  cases s with
  | negative => exact ⟨by decide, iff_of_true (by decide) rfl⟩
  | positive => exact ⟨by decide, iff_of_false (by decide) nofun⟩

end GameSheet.Decimal
