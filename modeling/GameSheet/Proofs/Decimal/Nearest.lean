import GameSheet.Decimal.Reading
import GameSheet.Proofs.Decimal.Rounding

/-!
# Decimals are read as the nearest floats

A decimal that is rounded to a float is read as that float (**`Decimal.ofDecimal_eq`**). Small coefficients and exponents
are computed by one product or quotient of two floats that are exact (`Decimal.exists_toFloat`,
`Decimal.exists_powerOfTen`), all others from whole numbers; either way one rounding of the exact value is left
(`Decimal.ofScientific_whole`, `Decimal.ofScientific_fraction`). The short cuts for decimals far out of the range of
floats are not taken (`Decimal.RoundsTo.range`, `Decimal.leading_bounds`).
-/

namespace GameSheet.Decimal

open Float.Model UnpackedFloat

/-! ## Powers -/

/-- A whole power is one with its exponent or a quotient by the other. -/
theorem pow_toNat (a : ℚ) (ha : a ≠ 0) (i : Int) : a ^ i.toNat = a ^ (-i).toNat * a ^ i := by
  rw [← zpow_natCast, ← zpow_natCast, ← zpow_add₀ ha]
  congr 1
  omega

/-- Whether the float is a power of ten, with all of its bits. -/
def isPowerOfTen (x : Float) (k : Nat) : Bool :=
  match x.toModel.unpack with
  | .finite .positive m e _ => decide (2 ^ 52 ≤ m) && m * 2 ^ e.toNat == 10 ^ k * 2 ^ (-e).toNat
  | _ => false

theorem isPowerOfTen_table : ∀ k : Fin Float.exactlyRepresentablePowersOfTen.size,
    isPowerOfTen Float.exactlyRepresentablePowersOfTen[k] k = true := by
  decide +kernel

/-- A power of ten in the table is exact. -/
theorem exists_powerOfTen {k : Nat} (hk : k < Float.exactlyRepresentablePowersOfTen.size) :
    ∃ (m : Nat) (e : Int) (hm : 0 < m), 2 ^ 52 ≤ m ∧ (m : ℚ) * 2 ^ e = 10 ^ k ∧
      Float.exactlyRepresentablePowersOfTen[k].toModel.unpack = .finite .positive m e hm := by
  have htable := isPowerOfTen_table ⟨k, hk⟩
  unfold isPowerOfTen at htable
  split at htable
  · next m e hm hunpack =>
    simp only [Bool.and_eq_true, decide_eq_true_eq, beq_iff_eq] at htable
    obtain ⟨hbits, hvalue⟩ := htable
    refine ⟨m, e, hm, hbits, ?_, hunpack⟩
    have hcast : (m : ℚ) * 2 ^ e.toNat = 10 ^ k * 2 ^ (-e).toNat := by exact_mod_cast hvalue
    have hpos : (0 : ℚ) < 2 ^ (-e).toNat := by positivity
    rw [pow_toNat 2 two_ne_zero e, mul_left_comm, mul_comm] at hcast
    exact mul_right_cancel₀ hpos.ne' hcast
  · cases htable

/-! ## Scientific literals -/

section Scientific

variable {c k m : Nat} {e : Int} (hcanonical : Canonical m e)

/-- The float with this significand and exponent. -/
def Canonical.toFloat {m : Nat} {e : Int} (h : Canonical m e) : Float :=
  .ofModel (.pack (.finite .positive m e h.pos))

theorem Canonical.unpack_toFloat {m : Nat} {e : Int} (h : Canonical m e) (he : e ≤ 971) :
    h.toFloat.toModel.unpack = .finite .positive m e h.pos :=
  unpack_pack h he

include hcanonical

/-- A product of two floats. -/
theorem mul_toFloat {x y : Float} {m₁ m₂ : Nat} {e₁ e₂ : Int} {hm₁ : 0 < m₁} {hm₂ : 0 < m₂}
    (hx : x.toModel.unpack = .finite .positive m₁ e₁ hm₁) (hy : y.toModel.unpack = .finite .positive m₂ e₂ hm₂)
    (hbits : 2 ^ 52 ≤ m₁ * m₂) (hv : RoundsTo m e ((m₁ * 2 ^ e₁) * (m₂ * 2 ^ e₂))) : x * y = hcanonical.toFloat := by
  have hproduct : x * y = .ofModel (.pack (UnpackedFloat.mul Format.binary64 x.toModel.unpack y.toModel.unpack)) := rfl
  rw [hproduct, hx, hy, mul_eq hcanonical hv hbits]
  rfl

/-- A quotient of two floats. -/
theorem div_toFloat {x y : Float} {m₁ m₂ : Nat} {e₁ e₂ : Int} {hm₁ : 0 < m₁} {hm₂ : 0 < m₂}
    (hx : x.toModel.unpack = .finite .positive m₁ e₁ hm₁) (hy : y.toModel.unpack = .finite .positive m₂ e₂ hm₂)
    (hv : RoundsTo m e ((m₁ * 2 ^ e₁) / (m₂ * 2 ^ e₂))) : x / y = hcanonical.toFloat := by
  have hquotient : x / y = .ofModel (.pack (UnpackedFloat.div Format.binary64 x.toModel.unpack y.toModel.unpack)) := rfl
  rw [hquotient, hx, hy, div_eq hcanonical hv]
  rfl

omit hcanonical in
/-- A whole number of at most 53 bits is a float. -/
theorem exists_toFloat (hpos : 0 < c) (hlt : c < 2 ^ 53) : ∃ m e, ∃ h : Canonical m e,
    (m : ℚ) * 2 ^ e = c ∧ c.toUInt64.toFloat.toModel.unpack = .finite .positive m e h.pos := by
  obtain ⟨m, e, h, he, hvalue, hofNat⟩ := exists_ofNat hpos hlt
  have hfloat : c.toUInt64.toFloat =
      .ofModel (.pack (UnpackedFloat.ofNat Format.binary64 c.toUInt64.toNat)) := rfl
  have hnat : c.toUInt64.toNat = c := Nat.mod_eq_of_lt (by omega)
  refine ⟨m, e, h, hvalue, ?_⟩
  rw [hfloat, hnat, hofNat]
  exact h.unpack_toFloat he

/-- **A literal with a whole exponent is the nearest float.** -/
theorem ofScientific_whole (hpos : 0 < c) (hv : RoundsTo m e (c * 10 ^ k)) (hk : k ≤ 2048) :
    Float.ofScientific c false k = hcanonical.toFloat := by
  rw [Float.ofScientific]
  by_cases hfast : c < 2 ^ 53 ∧ k ≤ 22
  · rw [dif_pos hfast]
    obtain ⟨m₁, e₁, h₁, hc, hx⟩ := exists_toFloat hpos hfast.1
    obtain ⟨m₂, e₂, hm₂, hbits, hpower, hy⟩ := exists_powerOfTen (Nat.lt_succ_of_le hfast.2 : k < 23)
    rw [← hc, ← hpower] at hv
    exact mul_toFloat hcanonical hx hy (hbits.trans (Nat.le_mul_of_pos_left _ h₁.pos)) hv
  · have hbits : 2 ^ 52 ≤ c <<< 53 * 10 ^ k := by
      rw [Nat.shiftLeft_eq]
      have hten : 0 < 10 ^ k := Nat.pow_pos (by decide)
      nlinarith
    have hvalue : (c : ℚ) * (10 : ℚ) ^ k = (c <<< 53 : Nat) * 2 ^ (-53 : Int) * ((10 ^ k : Nat) * 2 ^ (0 : Int)) := by
      rw [Nat.shiftLeft_eq]
      push_cast
      norm_num
      ring
    have hround : UnpackedFloat.ofScientific Format.binary64 c k = .finite .positive m e hcanonical.pos := by
      have hlarge : ¬(k : Int) > 2 ^ Format.binary64.exponentBits := by
        show ¬(k : Int) > 2 ^ 11
        omega
      have hsmall : ¬(k : Int) < -((2 ^ Format.binary64.exponentBits : Int) + c.log2) := by
        show ¬(k : Int) < -(2 ^ 11 + c.log2)
        omega
      rw [UnpackedFloat.ofScientific, dif_neg hpos.ne', if_neg hlarge, if_neg hsmall, if_pos (Int.natCast_nonneg k)]
      rw [hvalue] at hv
      exact mul_eq hcanonical hv hbits
    rw [dif_neg hfast]
    show Float.ofModel (.pack (UnpackedFloat.ofScientific Format.binary64 c k)) = _
    rw [hround]
    rfl

/-- **A literal with a negative exponent is the nearest float.** -/
theorem ofScientific_fraction (hpos : 0 < c) (hv : RoundsTo m e (c / 10 ^ k)) (hkpos : 0 < k)
    (hk : k ≤ 2048 + c.log2) : Float.ofScientific c true k = hcanonical.toFloat := by
  rw [Float.ofScientific]
  by_cases hfast : c < 2 ^ 53 ∧ k ≤ 22
  · rw [dif_pos hfast]
    obtain ⟨m₁, e₁, h₁, hc, hx⟩ := exists_toFloat hpos hfast.1
    obtain ⟨m₂, e₂, hm₂, hbits, hpower, hy⟩ := exists_powerOfTen (Nat.lt_succ_of_le hfast.2 : k < 23)
    rw [← hc, ← hpower] at hv
    exact div_toFloat hcanonical hx hy hv
  · have hvalue : (c : ℚ) / (10 : ℚ) ^ k = c * 2 ^ (0 : Int) / ((10 ^ k : Nat) * 2 ^ (0 : Int)) := by
      push_cast
      norm_num
    have hround : UnpackedFloat.ofScientific Format.binary64 c (-(k : Int)) =
        .finite .positive m e hcanonical.pos := by
      have hlarge : ¬-(k : Int) > 2 ^ Format.binary64.exponentBits := by
        show ¬-(k : Int) > 2 ^ 11
        omega
      have hsmall : ¬-(k : Int) < -((2 ^ Format.binary64.exponentBits : Int) + c.log2) := by
        show ¬-(k : Int) < -(2 ^ 11 + c.log2)
        omega
      have hexponent : (- -(k : Int)).toNat = k := by omega
      rw [UnpackedFloat.ofScientific, dif_neg hpos.ne', if_neg hlarge, if_neg hsmall, if_neg (by omega)]
      rw [hvalue] at hv
      simp only [hexponent]
      exact div_eq hcanonical hv
    have hneg : Int.negOfNat k = -(k : Int) := Int.negOfNat_eq
    rw [dif_neg hfast, if_pos rfl, hneg]
    show Float.ofModel (.pack (UnpackedFloat.ofScientific Format.binary64 c (-(k : Int)))) = _
    rw [hround]
    rfl

end Scientific

/-! ## Decimals -/

/-- A number other than zero has as many digits as the next power of ten has zeros. -/
theorem digits_bounds {c : Nat} (hc : 0 < c) :
    10 ^ ((Nat.toDigits 10 c).length - 1) ≤ c ∧ c < 10 ^ (Nat.toDigits 10 c).length := by
  have hpos : 0 < (Nat.toDigits 10 c).length := Nat.length_toDigits_pos
  refine ⟨?_, (Nat.length_toDigits_le_iff (by decide) hpos).1 le_rfl⟩
  by_contra hlt
  by_cases hone : (Nat.toDigits 10 c).length - 1 = 0
  · rw [hone] at hlt
    omega
  · have hle := (Nat.length_toDigits_le_iff (by decide) (Nat.pos_of_ne_zero hone)).2 (not_le.1 hlt)
    omega

/-- A decimal between two powers of ten has its leading digit between them. -/
theorem leading_bounds {c : Nat} (hc : 0 < c) {d i j : Int} (hlower : (10 : ℚ) ^ i < c * 10 ^ d)
    (hupper : (c : ℚ) * 10 ^ d < 10 ^ j) :
    i < d + (Nat.toDigits 10 c).length ∧ d + (Nat.toDigits 10 c).length ≤ j := by
  have hpos : 0 < (Nat.toDigits 10 c).length := Nat.length_toDigits_pos
  obtain ⟨hfrom, hto⟩ := digits_bounds hc
  generalize (Nat.toDigits 10 c).length = digits at hpos hfrom hto ⊢
  have hten : (0 : ℚ) < 10 ^ d := zpow_pos (by norm_num) d
  have hmono : ∀ {i j : Int}, (10 : ℚ) ^ i < 10 ^ j → i < j := fun h => (zpow_lt_zpow_iff_right₀ (by norm_num)).1 h
  constructor
  · apply hmono
    calc (10 : ℚ) ^ i < c * 10 ^ d := hlower
      _ ≤ 10 ^ digits * 10 ^ d := mul_le_mul_of_nonneg_right (by exact_mod_cast hto.le) hten.le
      _ = 10 ^ (d + digits) := by rw [← zpow_natCast, ← zpow_add₀ (by norm_num), add_comm]
  · have hpower : (10 : ℚ) ^ (d + digits - 1) < 10 ^ j := by
      calc (10 : ℚ) ^ (d + digits - 1) = 10 ^ (digits - 1) * 10 ^ d := by
            rw [← zpow_natCast, ← zpow_add₀ (by norm_num)]
            congr 1
            omega
        _ ≤ c * 10 ^ d := mul_le_mul_of_nonneg_right (by exact_mod_cast hfrom) hten.le
        _ < 10 ^ j := hupper
    have hlt := hmono hpower
    omega

/-- The range of floats lies within powers of ten. -/
theorem range_within : (10 : ℚ) ^ (-324 : Int) < 1 / 2 * 2 ^ (-1074 : Int) ∧
    (2 : ℚ) ^ 53 * 2 ^ (971 : Int) < 10 ^ (309 : Int) := by
  have hsmall : 2 * 2 ^ 1074 < 10 ^ 324 := by decide +kernel
  have hlarge : 2 ^ 53 * 2 ^ 971 < 10 ^ 309 := by decide +kernel
  constructor
  · rw [zpow_neg, zpow_neg, zpow_ofNat, zpow_ofNat, one_div, ← mul_inv]
    exact inv_strictAnti₀ (by positivity) (by exact_mod_cast hsmall)
  · rw [zpow_ofNat, zpow_ofNat]
    exact_mod_cast hlarge

/-- What is rounded to a float lies within the range of floats. -/
theorem RoundsTo.range {m : Nat} {e : Int} {v : ℚ} (hv : RoundsTo m e v) (hcanonical : Canonical m e) (he : e ≤ 971) :
    10 ^ (-324 : Int) < v ∧ v < 10 ^ (309 : Int) := by
  have hreach := reachBelow_le m e
  have hone : (1 : ℚ) ≤ m := by exact_mod_cast hcanonical.pos
  have hlt : (m : ℚ) + 1 ≤ 2 ^ 53 := by exact_mod_cast hcanonical.lt
  have hunit : (0 : ℚ) < 2 ^ e := zpow_pos two_pos e
  constructor
  · calc (10 : ℚ) ^ (-324 : Int) < 1 / 2 * 2 ^ (-1074 : Int) := range_within.1
      _ ≤ 1 / 2 * 2 ^ e :=
        mul_le_mul_of_nonneg_left (zpow_le_zpow_right₀ one_le_two hcanonical.least) (by norm_num)
      _ ≤ (m - reachBelow m e) * 2 ^ e := mul_le_mul_of_nonneg_right (by linarith) hunit.le
      _ ≤ v := hv.lower
  · calc v ≤ (m + 1 / 2) * 2 ^ e := hv.upper
      _ ≤ 2 ^ 53 * 2 ^ e := mul_le_mul_of_nonneg_right (by linarith) hunit.le
      _ ≤ 2 ^ 53 * 2 ^ (971 : Int) := mul_le_mul_of_nonneg_left (zpow_le_zpow_right₀ one_le_two he) (by norm_num)
      _ < 10 ^ (309 : Int) := range_within.2

/-- **A decimal is read as the float that it is nearest to.** -/
theorem ofDecimal_eq {c m : Nat} {d e : Int} (hcanonical : Canonical m e) (he : e ≤ 971)
    (hv : RoundsTo m e (c * 10 ^ d)) : ofDecimal c d = hcanonical.toFloat := by
  have hrange := hv.range hcanonical he
  have hc : 0 < c := by
    rw [Nat.pos_iff_ne_zero]
    rintro rfl
    have hpos : (0 : ℚ) < 10 ^ (-324 : Int) := zpow_pos (by norm_num) _
    rw [Nat.cast_zero, zero_mul] at hrange
    exact absurd hrange.1 hpos.not_gt
  obtain ⟨hsmall, hlarge⟩ := leading_bounds hc hrange.1 hrange.2
  have hfrom := (digits_bounds hc).1
  clear hrange
  rw [ofDecimal]
  generalize (Nat.toDigits 10 c).length = digits at hsmall hlarge hfrom ⊢
  rw [if_neg (by omega), if_neg (by omega)]
  by_cases hd : d < 0
  · have hlog : digits - 1 ≤ c.log2 := by
      have hpower : 2 ^ (digits - 1) ≤ c := (Nat.pow_le_pow_left (by decide) _).trans hfrom
      exact (Nat.le_log2 hc.ne').2 hpower
    have hvalue : (c : ℚ) * 10 ^ d = c / 10 ^ d.natAbs := by
      rw [div_eq_mul_inv, ← zpow_natCast, ← zpow_neg]
      congr 2
      omega
    rw [hvalue] at hv
    rw [decide_eq_true hd]
    exact ofScientific_fraction hcanonical hc hv (by omega) (by omega)
  · have hvalue : (c : ℚ) * 10 ^ d = c * 10 ^ d.natAbs := by
      rw [← zpow_natCast]
      congr 2
      omega
    rw [hvalue] at hv
    rw [decide_eq_false hd]
    exact ofScientific_whole hcanonical hc hv (by omega)

end GameSheet.Decimal
