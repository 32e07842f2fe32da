import GameSheet.Proofs.Decimal.Packed
import Mathlib.Algebra.Order.Field.Power
import Mathlib.Data.Rat.Cast.Order
import Mathlib.Tactic.FieldSimp
import Mathlib.Tactic.Linarith
import Mathlib.Tactic.Ring

/-!
# Rounding to the nearest float

A positive rational number is rounded to the float that it is nearest to: it lies between the middles to the neighbours
of the float, and on a middle only if the significand is even (`Decimal.RoundsTo`). What is known of the number while it
is rounded is its whole part at some exponent, and where it lies above it (`Decimal.Located`); a shift by one bit keeps
that. From this follows **`Decimal.roundWithAccuracy_eq`** for the rounding itself, and from it that products and
quotients are rounded so (`Decimal.mul_eq`, `Decimal.div_eq`).
-/

namespace GameSheet.Decimal

open Float.Model UnpackedFloat

/-! ## What is known of a number -/

/-- What the bit after the mantissa counts. -/
def half (bit : Bool) : ℚ :=
  if bit then 1 / 2 else 0

/-- The number lies where the mantissa and the bits behind it say: less than half a unit above what mantissa and round
bit make, and above it only with a sticky bit. -/
structure Located (em : ExtendedMantissa) (u : ℚ) : Prop where
  lower : em.mantissa + half em.roundBit ≤ u
  upper : u < em.mantissa + half em.roundBit + 1 / 2
  sticky : em.stickyBit = true ↔ em.mantissa + half em.roundBit < u

namespace Located

variable {em : ExtendedMantissa} {u : ℚ}

/-- One bit less, half the number. -/
theorem shiftRightOne (h : Located em u) : Located em.shiftRightOne (u / 2) := by
  obtain ⟨m, round, sticky⟩ := em
  have hhalf : (m / 2 : Nat) + half (m % 2 != 0) = (m : ℚ) / 2 := by
    have hm : (m : ℚ) = 2 * (m / 2 : Nat) + (m % 2 : Nat) := by exact_mod_cast (Nat.div_add_mod m 2).symm
    rcases Nat.mod_two_eq_zero_or_one m with hmod | hmod <;> rw [hmod] at hm ⊢ <;> push_cast at hm
    · simp [half]
      linarith
    · simp [half]
      linarith
  obtain ⟨hlower, hupper, hsticky⟩ := h
  unfold ExtendedMantissa.shiftRightOne
  dsimp only at hlower hupper hsticky
  constructor
  all_goals dsimp only
  all_goals rw [hhalf]
  · cases round <;> simp [half] at hlower <;> linarith
  · cases round <;> simp [half] at hupper <;> linarith
  · cases round
    · simp [half] at hsticky ⊢
      rw [hsticky]
      constructor <;> intro <;> linarith
    · simp [half] at hlower ⊢
      linarith

/-- Some bits less, the number divided by as many twos. -/
theorem shiftRight (h : Located em u) (k : Nat) : Located (em >>> k) (u / 2 ^ k) := by
  induction k with
  | zero =>
    have hzero : em >>> 0 = em := rfl
    simpa [hzero] using h
  | succ k ih =>
    have hstep := ih.shiftRightOne
    rw [div_div, ← pow_succ] at hstep
    exact hstep

/-- The number has a mantissa as its whole part. -/
theorem floor (h : Located em u) : em.mantissa ≤ u ∧ u < em.mantissa + 1 := by
  obtain ⟨hlower, hupper, -⟩ := h
  cases hround : em.roundBit <;> simp [hround, half] at hlower hupper
  · constructor <;> linarith
  · constructor <;> linarith

/-- **Rounding to nearest**: the mantissa is rounded to the whole number that is nearest, to the even one of two. -/
theorem roundedMantissa_eq (h : Located em u) {n : Nat} (hlower : n - 1 / 2 ≤ u) (hupper : u ≤ n + 1 / 2)
    (hodd : n % 2 = 1 → n - 1 / 2 < u ∧ u < n + 1 / 2) : em.roundedMantissa = n := by
  have hle : ∀ a b : Nat, (a : ℚ) < b + 1 → a ≤ b := fun a b hab => Nat.lt_succ_iff.1 (by exact_mod_cast hab)
  obtain ⟨m, round, sticky⟩ := em
  obtain ⟨hfrom, hto, hsticky⟩ := h
  dsimp only at hfrom hto hsticky
  rw [ExtendedMantissa.roundedMantissa]
  cases round <;> cases sticky <;>
    simp only [half, if_true, if_false, Bool.false_eq_true, false_iff, true_iff, not_lt] at hfrom hto hsticky <;>
    simp only [ExtendedMantissa.accuracy, Accuracy.roundToNearestEven]
  · exact le_antisymm (hle m n (by linarith)) (hle n m (by linarith))
  · exact le_antisymm (hle m n (by linarith)) (hle n m (by linarith))
  · -- the middle between two whole numbers
    have hmn : m ≤ n := hle m n (by linarith)
    have hnm : n ≤ m + 1 := hle n (m + 1) (by push_cast; linarith)
    have heven : n % 2 ≠ 1 := by
      intro hn
      obtain ⟨hlow, hhigh⟩ := hodd hn
      rcases Nat.lt_or_ge m n with hlt | hge
      · have hcast : (m : ℚ) + 1 ≤ n := by exact_mod_cast hlt
        linarith
      · have hcast : (n : ℚ) ≤ m := by exact_mod_cast hge
        linarith
    omega
  · have hlow : m + 1 ≤ n := hle (m + 1) n (by push_cast; linarith)
    have hhigh : n ≤ m + 1 := hle n (m + 1) (by push_cast; linarith)
    omega

end Located

/-- A quotient is its whole part and the rest. -/
theorem div_eq_add (n : Nat) {d : Nat} (hd : 0 < d) : (n : ℚ) / d = (n / d : Nat) + (n % d : Nat) / (d : ℚ) := by
  have hpos : (d : ℚ) ≠ 0 := by exact_mod_cast hd.ne'
  have hn : (n : ℚ) = d * (n / d : Nat) + (n % d : Nat) := by exact_mod_cast (Nat.div_add_mod n d).symm
  rw [div_eq_iff hpos, add_mul, div_mul_cancel₀ _ hpos, mul_comm, ← hn]

theorem located_exact (m : Nat) : Located (.ofMantissaAndAccuracy m .exact) m := by
  constructor <;> simp [ExtendedMantissa.ofMantissaAndAccuracy, half]

/-- A quotient lies where its whole part and the rest say. -/
theorem located_div (m : Nat) {d : Nat} (hd : 0 < d) :
    Located (.ofMantissaAndAccuracy (m / d) (accuracyOfFraction (m % d) d)) ((m : ℚ) / d) := by
  have hpos : (0 : ℚ) < d := by exact_mod_cast hd
  obtain ⟨f, hf⟩ : ∃ f : ℚ, f = (m % d : Nat) / (d : ℚ) := ⟨_, rfl⟩
  have hrest : f * d = (m % d : Nat) := by rw [hf, div_mul_cancel₀ _ hpos.ne']
  have hone : f < 1 := by
    have hlt : f * d < 1 * d := by
      rw [hrest, one_mul]
      exact_mod_cast Nat.mod_lt m hd
    exact lt_of_mul_lt_mul_right hlt hpos.le
  rw [div_eq_add m hd, ← hf, accuracyOfFraction]
  split_ifs with hexact
  · have hzero : f = 0 := by rw [hf, hexact, Nat.cast_zero, zero_div]
    rw [hzero, add_zero]
    exact located_exact _
  · have hfpos : 0 < f := by
      have hrestpos : (0 : ℚ) < (m % d : Nat) := by exact_mod_cast Nat.pos_of_ne_zero hexact
      rw [hf]
      exact div_pos hrestpos hpos
    rcases lt_trichotomy (2 * (m % d)) d with hlt | heq | hgt
    · have hhalf : f < 1 / 2 := by
        have hcast : 2 * ((m % d : Nat) : ℚ) < d := by exact_mod_cast hlt
        nlinarith
      rw [Nat.compare_eq_lt.2 hlt]
      constructor <;> simp [ExtendedMantissa.ofMantissaAndAccuracy, half] <;> linarith
    · have hhalf : f = 1 / 2 := by
        have hcast : 2 * ((m % d : Nat) : ℚ) = d := by exact_mod_cast heq
        nlinarith
      rw [Nat.compare_eq_eq.2 heq, hhalf]
      constructor <;> simp [ExtendedMantissa.ofMantissaAndAccuracy, half]
    · have hhalf : 1 / 2 < f := by
        have hcast : (d : ℚ) < 2 * (m % d : Nat) := by exact_mod_cast hgt
        nlinarith
      rw [Nat.compare_eq_gt.2 hgt]
      constructor <;> simp [ExtendedMantissa.ofMantissaAndAccuracy, half] <;> linarith

/-! ## Rounding to a float -/

/-- How far below its value a float is rounded to, in its last places: half of one, but a quarter where the floats below
lie closer. -/
def reachBelow (m : Nat) (e : Int) : ℚ :=
  if m = 2 ^ 52 ∧ -1074 < e then 1 / 4 else 1 / 2

/-- The number is rounded to the float: it lies between the middles to the neighbours, which belong to an even
significand. -/
structure RoundsTo (m : Nat) (e : Int) (v : ℚ) : Prop where
  lower : (m - reachBelow m e) * 2 ^ e ≤ v
  upper : v ≤ (m + 1 / 2) * 2 ^ e
  odd : m % 2 = 1 → (m - reachBelow m e) * 2 ^ e < v ∧ v < (m + 1 / 2) * 2 ^ e

/-- The exponent to which a number with this mantissa and exponent is shifted. -/
def shiftTarget (m : Nat) (e : Int) : Int :=
  max ((m.log2 : Int) + 1 + e - 53) (-1074)

theorem targetExponent_eq (m : Nat) (e : Int) :
    Format.binary64.targetExponent (totalExponent m e) = shiftTarget m e := rfl

/-- The target exponent is the one for a significand of 53 bits. -/
theorem shiftTarget_spec {m : Nat} {e : Int} {u : ℚ} (h : m ≤ u ∧ u < m + 1) (he : e ≤ -1074 ∨ 2 ^ 52 ≤ m) :
    e ≤ shiftTarget m e ∧ -1074 ≤ shiftTarget m e ∧ u * 2 ^ e < 2 ^ (shiftTarget m e + 53) ∧
      (shiftTarget m e = -1074 ∨ 2 ^ (shiftTarget m e + 52) ≤ u * 2 ^ e) := by
  have hunit : (0 : ℚ) < 2 ^ e := zpow_pos two_pos e
  have hbits : 2 ^ 52 ≤ m → 52 ≤ m.log2 := fun hm => (Nat.le_log2 (by omega)).2 hm
  refine ⟨?_, le_max_right _ _, ?_, ?_⟩
  · unfold shiftTarget
    omega
  · have hupper : u < 2 ^ (m.log2 + 1) := by
      have hm : ((m + 1 : Nat) : ℚ) ≤ (2 ^ (m.log2 + 1) : Nat) := by exact_mod_cast Nat.lt_log2_self
      push_cast at hm
      linarith
    calc u * 2 ^ e < 2 ^ (m.log2 + 1) * 2 ^ e := mul_lt_mul_of_pos_right hupper hunit
      _ = 2 ^ ((m.log2 + 1 : Nat) + e) := by rw [zpow_add₀ two_ne_zero, zpow_natCast]
      _ ≤ 2 ^ (shiftTarget m e + 53) := zpow_le_zpow_right₀ one_le_two (by unfold shiftTarget; push_cast; omega)
  · by_cases htarget : shiftTarget m e = -1074
    · exact .inl htarget
    · have hm : m ≠ 0 := by
        rintro rfl
        simp [shiftTarget] at htarget he
        omega
      have hlower : (2 : ℚ) ^ m.log2 ≤ u := by
        have hcast : ((2 ^ m.log2 : Nat) : ℚ) ≤ m := by exact_mod_cast Nat.log2_self_le hm
        push_cast at hcast
        linarith
      have hexponent : shiftTarget m e + 52 = m.log2 + e := by
        unfold shiftTarget at htarget ⊢
        omega
      right
      rw [hexponent, zpow_add₀ two_ne_zero, zpow_natCast]
      exact mul_le_mul_of_nonneg_right hlower hunit.le

/-- The number that is shifted to an exponent. -/
theorem shift_located {m : Nat} {e : Int} {accuracy : Accuracy} {v : ℚ}
    (h : Located (.ofMantissaAndAccuracy m accuracy) (v / 2 ^ e)) (he : e ≤ shiftTarget m e) :
    ∃ em, shiftToTargetExponent Format.binary64 m e accuracy = (em, shiftTarget m e) ∧
      Located em (v / 2 ^ shiftTarget m e) := by
  refine ⟨_, Prod.ext rfl ?_, ?_⟩
  · simp only [shiftToTargetExponent, shiftToExponent, targetExponent_eq]
    omega
  · have hshift := h.shiftRight (shiftTarget m e - e).toNat
    have hpow : (2 : ℚ) ^ shiftTarget m e = 2 ^ e * 2 ^ (shiftTarget m e - e).toNat := by
      rw [← zpow_natCast, ← zpow_add₀ two_ne_zero]
      congr 1
      omega
    rw [div_div, ← hpow] at hshift
    exact hshift

theorem shiftTarget_canonical {m : Nat} {e : Int} (h : Canonical m e) : shiftTarget m e = e := by
  have hleast := h.least
  have hupper : m.log2 < 53 := (Nat.log2_lt h.pos.ne').2 h.lt
  have hlower : 2 ^ 52 ≤ m → 52 ≤ m.log2 := fun hm => (Nat.le_log2 h.pos.ne').2 hm
  have hnormal := h.normal
  unfold shiftTarget
  omega

theorem reachBelow_le (m : Nat) (e : Int) : reachBelow m e ≤ 1 / 2 := by
  unfold reachBelow
  split_ifs <;> norm_num

/-- A number that is rounded to a float is shifted to the exponent of the float, or to the one below if it lies below
the first float with that exponent. -/
theorem target_cases {m : Nat} {e target : Int} {v : ℚ} (hcanonical : Canonical m e) (hv : RoundsTo m e v)
    (hleast : -1074 ≤ target) (hupper : v < 2 ^ (target + 53)) (hlower : target = -1074 ∨ 2 ^ (target + 52) ≤ v) :
    target = e ∨ target = e - 1 ∧ m = 2 ^ 52 := by
  have hunit : (0 : ℚ) < 2 ^ e := zpow_pos two_pos e
  have hsplit : ∀ k : Nat, (2 : ℚ) ^ (e + k) = 2 ^ k * 2 ^ e := fun k => by
    rw [zpow_add₀ two_ne_zero, zpow_natCast, mul_comm]
  have hmono : ∀ {i j : Int}, i ≤ j → (2 : ℚ) ^ i ≤ 2 ^ j := fun hij => zpow_le_zpow_right₀ one_le_two hij
  have hfrom := hv.lower
  have hto := hv.upper
  have hlt : (m : ℚ) + 1 ≤ 2 ^ 53 := by exact_mod_cast hcanonical.lt
  have hle := hcanonical.least
  rcases lt_trichotomy target e with hbelow | heq | habove
  · -- all numbers that are rounded to another significand are too large
    have hnormal : 2 ^ 52 ≤ m := hcanonical.normal.resolve_left (by omega)
    have hvlt : v < 2 ^ 52 * 2 ^ e := hupper.trans_le ((hmono (by omega)).trans_eq (hsplit 52))
    have hm : m = 2 ^ 52 := by
      by_contra hne
      have hm : (2 : ℚ) ^ 52 + 1 ≤ m := by exact_mod_cast (by omega : 2 ^ 52 + 1 ≤ m)
      have hreach := reachBelow_le m e
      nlinarith
    refine .inr ⟨?_, hm⟩
    by_contra hne
    have hvlt' : v < 2 ^ 51 * 2 ^ e := hupper.trans_le ((hmono (by omega)).trans_eq (hsplit 51))
    have hm' : (m : ℚ) = 2 ^ 52 := by exact_mod_cast hm
    have hreach := reachBelow_le m e
    nlinarith
  · exact .inl heq
  · have hvle : 2 ^ 53 * 2 ^ e ≤ v := by
      refine ((hsplit 53).symm.trans_le (hmono ?_)).trans (hlower.resolve_left (by omega))
      push_cast
      omega
    nlinarith

section Rounded

variable {em : ExtendedMantissa} {m : Nat} {e target : Int} {v : ℚ}

/-- At the exponent of the float, a number that is rounded to it is rounded to its significand. -/
theorem Located.roundedMantissa_of_roundsTo (h : Located em (v / 2 ^ e)) (hv : RoundsTo m e v) :
    em.roundedMantissa = m := by
  have hunit : (0 : ℚ) < 2 ^ e := zpow_pos two_pos e
  have hreach := reachBelow_le m e
  refine h.roundedMantissa_eq ?_ ?_ fun hodd => ⟨?_, ?_⟩
  · rw [le_div_iff₀ hunit]
    nlinarith [hv.lower]
  · rw [div_le_iff₀ hunit]
    exact hv.upper
  · rw [lt_div_iff₀ hunit]
    nlinarith [(hv.odd hodd).1]
  · rw [div_lt_iff₀ hunit]
    exact (hv.odd hodd).2

/-- At the exponent below, it is rounded up to one bit more, if the float is the first one with its exponent. -/
theorem Located.roundedMantissa_carry (h : Located em (v / 2 ^ target)) (hv : RoundsTo m e v) (hm : m = 2 ^ 52)
    (htarget : target = e - 1) (hleast : -1074 ≤ target) (hupper : v < 2 ^ (target + 53)) :
    em.roundedMantissa = 2 ^ 53 := by
  have hunit : (2 : ℚ) ^ target * 2 = 2 ^ e := by
    rw [htarget, ← zpow_add_one₀ two_ne_zero, sub_add_cancel]
  have hpos : (0 : ℚ) < 2 ^ target := zpow_pos two_pos _
  have hbelow : v < 2 ^ 53 * 2 ^ target := by
    rwa [zpow_add₀ two_ne_zero, mul_comm] at hupper
  have hfrom : (2 ^ 52 - 1 / 4) * 2 ^ e ≤ v := by
    have hlower := hv.lower
    rw [reachBelow, if_pos ⟨hm, by omega⟩, hm] at hlower
    exact_mod_cast hlower
  refine h.roundedMantissa_eq ?_ ?_ fun hodd => absurd hodd (by decide)
  · rw [le_div_iff₀ hpos]
    push_cast
    nlinarith
  · rw [div_le_iff₀ hpos]
    push_cast
    nlinarith

/-- The significand of a float stays where it is. -/
theorem shift_canonical (h : Canonical m e) :
    shiftToTargetExponent Format.binary64 m e .exact = (⟨m, false, false⟩, e) := by
  simp only [shiftToTargetExponent, shiftToExponent, targetExponent_eq, shiftTarget_canonical h, sub_self]
  simp [ExtendedMantissa.ofMantissaAndAccuracy]
  rfl

/-- One bit more is shifted out. -/
theorem shift_carry (h : -1074 ≤ target) :
    shiftToTargetExponent Format.binary64 (2 ^ 53) target .exact = (⟨2 ^ 52, false, false⟩, target + 1) := by
  have hcarry : shiftTarget (2 ^ 53) target = target + 1 := by
    have hlog : Nat.log2 (2 ^ 53) = 53 := Nat.log2_two_pow
    unfold shiftTarget
    rw [hlog]
    omega
  simp only [shiftToTargetExponent, shiftToExponent, targetExponent_eq, hcarry, add_sub_cancel_left]
  congr 1

end Rounded

/-- **A number is rounded to the float that it is nearest to.** -/
theorem roundWithAccuracy_eq {s : Sign} {m : Nat} {e : Int} {accuracy : Accuracy} {v : ℚ} {m' : Nat} {e' : Int}
    (hlocated : Located (.ofMantissaAndAccuracy m accuracy) (v / 2 ^ e)) (he : e ≤ -1074 ∨ 2 ^ 52 ≤ m)
    (hcanonical : Canonical m' e') (hv : RoundsTo m' e' v) :
    roundWithAccuracy Format.binary64 s m e accuracy = .finite s m' e' hcanonical.pos := by
  have hmantissa : (ExtendedMantissa.ofMantissaAndAccuracy m accuracy).mantissa = m := by
    unfold ExtendedMantissa.ofMantissaAndAccuracy
    split <;> rfl
  have hfloor := hlocated.floor
  rw [hmantissa] at hfloor
  obtain ⟨hshift, hleast, hupper, hlower⟩ := shiftTarget_spec hfloor he
  rw [div_mul_cancel₀ _ (zpow_pos two_pos e).ne'] at hupper hlower
  obtain ⟨em, hem, hat⟩ := shift_located hlocated hshift
  have hfinal : shiftToTargetExponent Format.binary64 em.roundedMantissa (shiftTarget m e) .exact =
      (⟨m', false, false⟩, e') := by
    rcases target_cases hcanonical hv hleast hupper hlower with htarget | ⟨htarget, hm⟩
    · rw [htarget] at hat ⊢
      rw [hat.roundedMantissa_of_roundsTo hv, shift_canonical hcanonical]
    · -- the significand is rounded up to one bit more
      rw [hat.roundedMantissa_carry hv hm htarget hleast hupper, shift_carry hleast, htarget, sub_add_cancel, hm]
  have hne : m' ≠ 0 := hcanonical.pos.ne'
  simp only [roundWithAccuracy, hem, hfinal, dif_neg hne]

/-! ## Operations -/

section Operations

variable {m₁ m₂ m : Nat} {e₁ e₂ e : Int} {s₁ s₂ : Sign} {hm₁ : 0 < m₁} {hm₂ : 0 < m₂}

/-- A float is rounded to itself. -/
theorem roundsTo_self (m : Nat) (e : Int) : RoundsTo m e (m * 2 ^ e) := by
  have hunit : (0 : ℚ) < 2 ^ e := zpow_pos two_pos e
  have hreach : 0 < reachBelow m e := by
    unfold reachBelow
    split_ifs <;> norm_num
  constructor
  · nlinarith
  · nlinarith
  · intro _
    constructor <;> nlinarith

theorem mul_eq (hcanonical : Canonical m e) (hv : RoundsTo m e ((m₁ * 2 ^ e₁) * (m₂ * 2 ^ e₂)))
    (hbits : 2 ^ 52 ≤ m₁ * m₂) : UnpackedFloat.mul Format.binary64 (.finite s₁ m₁ e₁ hm₁) (.finite s₂ m₂ e₂ hm₂) =
      .finite (s₁ * s₂) m e hcanonical.pos := by
  refine roundWithAccuracy_eq ?_ (.inr hbits) hcanonical hv
  have hvalue : (m₁ * 2 ^ e₁ * (m₂ * 2 ^ e₂) : ℚ) / 2 ^ (e₁ + e₂) = (m₁ * m₂ : Nat) := by
    rw [div_eq_iff (zpow_pos two_pos _).ne', zpow_add₀ two_ne_zero]
    push_cast
    ring
  rw [hvalue]
  exact located_exact _

theorem div_eq (hcanonical : Canonical m e) (hv : RoundsTo m e ((m₁ * 2 ^ e₁) / (m₂ * 2 ^ e₂))) :
    UnpackedFloat.div Format.binary64 (.finite s₁ m₁ e₁ hm₁) (.finite s₂ m₂ e₂ hm₂) =
      .finite (s₁ / s₂) m e hcanonical.pos := by
  obtain ⟨target, htarget⟩ : ∃ target, target = min (e₁ - e₂)
      (Format.binary64.targetExponent (totalExponent m₁ e₁ - totalExponent m₂ e₂)) := ⟨_, rfl⟩
  have hexact : ((m₁ <<< (e₁ - e₂ - target).toNat : Nat) : ℚ) / m₂ = m₁ * 2 ^ e₁ / (m₂ * 2 ^ e₂) / 2 ^ target := by
    have hm : (m₂ : ℚ) ≠ 0 := by exact_mod_cast hm₂.ne'
    have hpow : (2 : ℚ) ^ e₁ = 2 ^ (e₁ - e₂ - target).toNat * 2 ^ e₂ * 2 ^ target := by
      rw [← zpow_natCast, ← zpow_add₀ two_ne_zero, ← zpow_add₀ two_ne_zero]
      congr 1
      omega
    rw [Nat.shiftLeft_eq, hpow]
    push_cast
    field_simp
  have hbits : target ≤ -1074 ∨ 2 ^ 52 ≤ m₁ <<< (e₁ - e₂ - target).toNat / m₂ := by
    by_cases hsmall : target ≤ -1074
    · exact .inl hsmall
    · right
      have hlog : m₂.log2 + 53 ≤ m₁.log2 + (e₁ - e₂ - target).toNat := by
        have hle : target ≤ max ((m₁.log2 : Int) + 1 + e₁ - (m₂.log2 + 1 + e₂) - 53) (-1074) :=
          htarget.trans_le (min_le_right _ _)
        omega
      rw [Nat.le_div_iff_mul_le hm₂, Nat.shiftLeft_eq]
      calc 2 ^ 52 * m₂ ≤ 2 ^ 52 * 2 ^ (m₂.log2 + 1) := Nat.mul_le_mul_left _ Nat.lt_log2_self.le
        _ = 2 ^ (m₂.log2 + 53) := by rw [← Nat.pow_add]; congr 1; omega
        _ ≤ 2 ^ (m₁.log2 + (e₁ - e₂ - target).toNat) := Nat.pow_le_pow_right (by decide) hlog
        _ ≤ m₁ * 2 ^ (e₁ - e₂ - target).toNat := by
          rw [Nat.pow_add]
          exact Nat.mul_le_mul_right _ (Nat.log2_self_le hm₁.ne')
  simp only [UnpackedFloat.div, divCore]
  rw [← htarget]
  refine roundWithAccuracy_eq ?_ hbits hcanonical hv
  rw [← hexact]
  exact located_div _ hm₂

/-- A number of at most 53 bits is a float. -/
theorem exists_ofNat {n : Nat} (hpos : 0 < n) (hlt : n < 2 ^ 53) : ∃ m e, ∃ h : Canonical m e,
    e ≤ 971 ∧ (m : ℚ) * 2 ^ e = n ∧ UnpackedFloat.ofNat Format.binary64 n = .finite .positive m e h.pos := by
  have hlog : n.log2 < 53 := (Nat.log2_lt hpos.ne').2 hlt
  have htarget : Format.binary64.targetExponent (totalExponent n 0) = n.log2 - 52 := by
    rw [targetExponent_eq, shiftTarget]
    omega
  obtain ⟨k, hk⟩ : ∃ k, n.log2 + k = 52 := ⟨52 - n.log2, by omega⟩
  have hlower : 2 ^ 52 ≤ n * 2 ^ k := by
    rw [← hk, Nat.pow_add]
    exact Nat.mul_le_mul_right _ (Nat.log2_self_le hpos.ne')
  have hupper : n * 2 ^ k < 2 ^ 53 := by
    have hsum : 53 = n.log2 + 1 + k := by omega
    rw [hsum, Nat.pow_add]
    exact Nat.mul_lt_mul_of_pos_right Nat.lt_log2_self (Nat.two_pow_pos k)
  have hcanonical : Canonical (n * 2 ^ k) (-k) := ⟨by omega, hupper, by omega, .inr hlower⟩
  have hvalue : ((n * 2 ^ k : Nat) : ℚ) * 2 ^ (-k : Int) = n := by
    rw [zpow_neg, zpow_natCast]
    push_cast
    field_simp
  have hcompare : compare (n : Int) 0 = .gt := by
    rw [Int.compare_eq_gt]
    omega
  have hshift : decreaseExponent n 0 (n.log2 - 52) = (n * 2 ^ k, -(k : Int)) := by
    have hamount : (0 - ((n.log2 : Int) - 52)).toNat = k := by omega
    rw [decreaseExponent, hamount, Nat.shiftLeft_eq, zero_sub]
  refine ⟨n * 2 ^ k, -k, hcanonical, by omega, hvalue, ?_⟩
  simp only [UnpackedFloat.ofNat, UnpackedFloat.ofInt, UnpackedFloat.normalize, hcompare, UnpackedFloat.round,
    Int.toNat_natCast, htarget, hshift]
  refine roundWithAccuracy_eq ?_ (.inr hlower) hcanonical (roundsTo_self _ _)
  rw [mul_div_cancel_right₀ _ (zpow_pos two_pos _).ne']
  exact located_exact _

end Operations

end GameSheet.Decimal
