import GameSheet.Proofs.Decimal.Nearest
import GameSheet.Proofs.Decimal.Parts

/-!
# The fewest digits are read back

The fewest digits that stand for a float are rounded to it (**`Decimal.shortest_roundsTo`**): a neighbour on the grid of
17 digits always is (`Decimal.Magnitude.onGrid?_isSome`), and no other is ever chosen
(`Decimal.Magnitude.roundsTo_of_onGrid?`). What a style writes for chosen digits has their value
(`Decimal.Style.exact_numeral`), so a finite float is read from its JSON text unchanged (**`Decimal.reread_eq`**).
-/

namespace GameSheet.Decimal

open Float.Model UnpackedFloat

/-! ## What is rounded to a float -/

namespace Magnitude

variable {m : Magnitude}

/-- The rational number that it is. -/
def value (m : Magnitude) : ℚ :=
  m.significand * 2 ^ m.exponent

theorem value_eq (m : Magnitude) : m.value = m.numerator / m.denominator := by
  have hpos : (0 : ℚ) < m.denominator := by exact_mod_cast m.denominator_pos
  rw [eq_div_iff hpos.ne', value, numerator, denominator]
  push_cast
  simp only [Nat.pow_eq, Nat.cast_pow, Nat.cast_ofNat]
  rw [pow_toNat 2 two_ne_zero m.exponent]
  ring

/-- Quarters of a place are compared with a number as whole numbers are, if both are scaled alike. -/
theorem le_scaled_iff {unit place : ℚ} (hunit : 0 < unit) (hplace : 0 < place) (n x : ℚ) :
    n * unit ≤ unit * (4 * x / place) ↔ n / 4 * place ≤ x := by
  rw [mul_comm, mul_le_mul_iff_right₀ hunit, le_div_iff₀ hplace]
  constructor <;> intro <;> linarith

theorem scaled_le_iff {unit place : ℚ} (hunit : 0 < unit) (hplace : 0 < place) (n x : ℚ) :
    unit * (4 * x / place) ≤ n * unit ↔ x ≤ n / 4 * place := by
  rw [mul_comm n, mul_le_mul_iff_right₀ hunit, div_le_iff₀ hplace]
  constructor <;> intro <;> linarith

/-- Comparing whole numbers is comparing with the middles. -/
theorem roundsTo_iff (hm : 0 < m.significand) (c : Nat) (d : Int) :
    m.roundsTo c d = true ↔ RoundsTo m.significand m.exponent (c * 10 ^ d) := by
  obtain ⟨significand, e⟩ := m
  dsimp only at hm ⊢
  obtain ⟨below, hbelow⟩ : ∃ below, below = if significand = normalBound ∧ -1074 < e then 1 else 2 := ⟨_, rfl⟩
  obtain ⟨value, hvalue⟩ : ∃ value, value = c * Nat.pow 10 d.toNat * Nat.pow 2 (2 - e).toNat := ⟨_, rfl⟩
  obtain ⟨unit, hunit⟩ : ∃ unit, unit = Nat.pow 10 (-d).toNat * Nat.pow 2 (e - 2).toNat := ⟨_, rfl⟩
  have hpos : (0 : ℚ) < unit := by
    rw [hunit]
    exact_mod_cast Nat.mul_pos (Nat.pow_pos (by decide)) (Nat.pow_pos (by decide))
  have hscaled : (value : ℚ) = unit * (4 * (c * 10 ^ d) / 2 ^ e) := by
    rw [hvalue, hunit]
    push_cast
    simp only [Nat.pow_eq, Nat.cast_pow, Nat.cast_ofNat]
    rw [pow_toNat 10 (by norm_num) d, pow_toNat 2 two_ne_zero (2 - e), neg_sub, zpow_sub₀ two_ne_zero]
    ring
  have hplace : (0 : ℚ) < 2 ^ e := zpow_pos two_pos e
  have hle : ∀ n : Nat, n * unit ≤ value ↔ (n : ℚ) / 4 * 2 ^ e ≤ c * 10 ^ d := fun n => by
    rw [← Nat.cast_le (α := ℚ), Nat.cast_mul, hscaled, le_scaled_iff hpos hplace]
  have hge : ∀ n : Nat, value ≤ n * unit ↔ (c : ℚ) * 10 ^ d ≤ n / 4 * 2 ^ e := fun n => by
    rw [← Nat.cast_le (α := ℚ), Nat.cast_mul, hscaled, scaled_le_iff hpos hplace]
  have hlt : ∀ n : Nat, n * unit < value ↔ (n : ℚ) / 4 * 2 ^ e < c * 10 ^ d := fun n => by
    rw [← not_le, hge, not_le]
  have hgt : ∀ n : Nat, value < n * unit ↔ (c : ℚ) * 10 ^ d < n / 4 * 2 ^ e := fun n => by
    rw [← not_le, hle, not_le]
  have hlow : ((4 * significand - below : Nat) : ℚ) / 4 = significand - reachBelow significand e := by
    have hle : below ≤ 4 * significand := by
      rw [hbelow]
      split_ifs <;> omega
    rw [Nat.cast_sub hle, hbelow, reachBelow]
    have hbound : normalBound = 2 ^ 52 := rfl
    rw [hbound]
    push_cast
    split_ifs <;> ring
  have hhigh : ((4 * significand + 2 : Nat) : ℚ) / 4 = significand + 1 / 2 := by
    push_cast
    ring
  simp only [roundsTo]
  rw [← hbelow, ← hvalue, ← hunit]
  split_ifs with heven
  · rw [Bool.and_eq_true, decide_eq_true_eq, decide_eq_true_eq, hle, hge, hlow, hhigh]
    exact ⟨fun h => ⟨h.1, h.2, fun hodd => by omega⟩, fun h => ⟨h.lower, h.upper⟩⟩
  · rw [Bool.and_eq_true, decide_eq_true_eq, decide_eq_true_eq, hlt, hgt, hlow, hhigh]
    exact ⟨fun h => ⟨h.1.le, h.2.le, fun _ => h⟩, fun h => h.odd (by omega)⟩

end Magnitude

/-! ## Digits that are read back -/

/-- The quotient is rounded to a whole number at most one half away. -/
theorem roundDiv_near (n : Nat) {d : Nat} (hd : 0 < d) :
    (n : ℚ) / d - 1 / 2 ≤ roundDiv n d ∧ (roundDiv n d : ℚ) ≤ n / d + 1 / 2 := by
  have hpos : (0 : ℚ) < d := by exact_mod_cast hd
  have hsmall : 2 * (n % d) ≤ d → (n % d : Nat) / (d : ℚ) ≤ 1 / 2 := fun h => by
    rw [div_le_div_iff₀ hpos two_pos, mul_comm, one_mul]
    exact_mod_cast h
  have hlarge : d ≤ 2 * (n % d) → 1 / 2 ≤ (n % d : Nat) / (d : ℚ) := fun h => by
    rw [div_le_div_iff₀ two_pos hpos, one_mul, mul_comm]
    exact_mod_cast h
  have hone : (n % d : Nat) / (d : ℚ) ≤ 1 := by
    rw [div_le_iff₀ hpos, one_mul]
    exact_mod_cast (Nat.mod_lt n hd).le
  have hnonneg : 0 ≤ (n % d : Nat) / (d : ℚ) := div_nonneg (Nat.cast_nonneg _) hpos.le
  rw [div_eq_add n hd]
  unfold roundDiv
  dsimp only
  split_ifs with hup
  · have hfrom := hlarge (by simp at hup; omega)
    push_cast
    constructor <;> linarith
  · have hto := hsmall (by simp at hup; omega)
    constructor <;> linarith

/-- The leading digit stands for no more than the number. -/
theorem leadingExponent_le {num den : Nat} (hnum : 0 < num) (hden : 0 < den) :
    (10 : ℚ) ^ leadingExponent num den ≤ num / den := by
  have hpos : (0 : ℚ) < den := by exact_mod_cast hden
  unfold leadingExponent digitCount
  split_ifs with hle
  · have hq : 0 < num / den := Nat.div_pos hle hden
    have hdigits : 0 < (Nat.toDigits 10 (num / den)).length := Nat.length_toDigits_pos
    have hfrom := (digits_bounds hq).1
    have hexponent : ((Nat.toDigits 10 (num / den)).length : Int) - 1 =
        ((Nat.toDigits 10 (num / den)).length - 1 : Nat) := by omega
    rw [hexponent, zpow_natCast, le_div_iff₀ hpos]
    exact_mod_cast (Nat.mul_le_mul_right den hfrom).trans (Nat.div_mul_le_self num den)
  · have hnumpos : (0 : ℚ) < num := by exact_mod_cast hnum
    have hdigits := (Nat.length_toDigits_le_iff (b := 10) (n := (den + num - 1) / num - 1) (by decide)
      Nat.length_toDigits_pos).1 le_rfl
    generalize (Nat.toDigits 10 ((den + num - 1) / num - 1)).length = k at hdigits ⊢
    have hceil : den ≤ 10 ^ k * num := by
      have hlt : (den + num - 1) / num < 10 ^ k + 1 := by omega
      rw [Nat.div_lt_iff_lt_mul hnum, Nat.add_mul] at hlt
      omega
    rw [zpow_neg, zpow_natCast, inv_eq_one_div, div_le_div_iff₀ (pow_pos (by norm_num) k) hpos]
    rw [one_mul, mul_comm]
    exact_mod_cast hceil

namespace Magnitude

variable {m : Magnitude}

theorem numerator_pos (hm : 0 < m.significand) : 0 < m.numerator :=
  Nat.mul_pos hm (Nat.two_pow_pos _)

/-- What is found on a grid is read back. -/
theorem roundsTo_of_onGrid? {d : Int} {s : Scientific} (h : m.onGrid? d = some s) :
    m.roundsTo s.coefficient s.exponent = true := by
  unfold onGrid? at h
  rcases hscaled : scaled m.numerator m.denominator (-d) with ⟨n, den⟩
  rw [hscaled] at h
  dsimp only at h
  split at h
  · next hnearest =>
    cases h
    exact hnearest
  · generalize (if roundDiv n den = n / den then n / den + 1 else n / den) = other at h
    split at h
    · next hother =>
      cases h
      exact hother
    · cases h

/-- The fraction is the number in multiples of a power of ten. -/
theorem scaled_eq (m : Magnitude) (d : Int) :
    ((scaled m.numerator m.denominator (-d)).1 : ℚ) / (scaled m.numerator m.denominator (-d)).2 =
      m.value / 10 ^ d := by
  unfold scaled
  dsimp only
  rw [value_eq]
  push_cast
  simp only [Nat.pow_eq, Nat.cast_pow, Nat.cast_ofNat, neg_neg]
  have hpow := pow_toNat 10 (by norm_num) d
  have hpos : (0 : ℚ) < 10 ^ (-d).toNat := pow_pos (by norm_num) _
  have hten : (0 : ℚ) < 10 ^ d := zpow_pos (by norm_num) d
  have hden : (0 : ℚ) < m.denominator := by exact_mod_cast m.denominator_pos
  rw [hpow]
  field_simp

/-- **On a grid that is fine enough the nearest neighbour is read back.** -/
theorem onGrid?_isSome (hm : 0 < m.significand) (hlt : m.significand < 2 ^ 53) {d : Int}
    (hd : 10 ^ (d + 16) ≤ m.value) : (m.onGrid? d).isSome = true := by
  obtain ⟨n, hn⟩ : ∃ n, n = roundDiv (scaled m.numerator m.denominator (-d)).1
    (scaled m.numerator m.denominator (-d)).2 := ⟨_, rfl⟩
  have hrounds : RoundsTo m.significand m.exponent (n * 10 ^ d) := by
    have hden : 0 < (scaled m.numerator m.denominator (-d)).2 :=
      Nat.mul_pos m.denominator_pos (Nat.pow_pos (by decide))
    obtain ⟨hfrom, hto⟩ := roundDiv_near (scaled m.numerator m.denominator (-d)).1 hden
    rw [scaled_eq, ← hn] at hfrom hto
    have hgrid : (0 : ℚ) < 10 ^ d := zpow_pos (by norm_num) d
    have hplace : (0 : ℚ) < 2 ^ m.exponent := zpow_pos two_pos _
    rw [sub_le_iff_le_add, div_le_iff₀ hgrid] at hfrom
    rw [← sub_le_iff_le_add, le_div_iff₀ hgrid] at hto
    rw [zpow_add₀ (by norm_num)] at hd
    have hsize : (m.significand : ℚ) + 1 ≤ 2 ^ 53 := by exact_mod_cast hlt
    rw [value] at hfrom hto hd
    have hbelow : (m.significand - reachBelow m.significand m.exponent) * 2 ^ m.exponent < n * 10 ^ d := by
      unfold reachBelow
      split_ifs with hfirst
      · have hm' : (m.significand : ℚ) = 2 ^ 52 := by exact_mod_cast hfirst.1
        rw [hm'] at hfrom hd ⊢
        norm_num at hd
        linarith
      · norm_num at hd
        nlinarith
    have habove : (n : ℚ) * 10 ^ d < (m.significand + 1 / 2) * 2 ^ m.exponent := by
      norm_num at hd
      nlinarith
    exact ⟨hbelow.le, habove.le, fun _ => ⟨hbelow, habove⟩⟩
  unfold onGrid?
  dsimp only
  rw [← hn, if_pos ((roundsTo_iff hm n d).2 hrounds)]
  rfl

end Magnitude

/-- The zeros at the end are counted in the exponent. -/
theorem Scientific.normalize_value (s : Scientific) :
    (s.normalize.coefficient : ℚ) * 10 ^ s.normalize.exponent = s.coefficient * 10 ^ s.exponent := by
  have hzeros := mul_trailing_zeros s.coefficient
  unfold normalize
  dsimp only
  generalize ((Nat.toDigits 10 s.coefficient).reverse.takeWhile (· == '0')).length = zeros at hzeros ⊢
  split_ifs with hzero
  · simp [hzero]
  · rw [Nat.pow_eq] at hzeros ⊢
    have hcast : (s.coefficient : ℚ) = (s.coefficient / 10 ^ zeros : Nat) * 10 ^ zeros := by exact_mod_cast hzeros.symm
    dsimp only
    rw [zpow_add₀ (by norm_num), zpow_natCast, mul_comm ((10 : ℚ) ^ s.exponent), ← mul_assoc, ← hcast]

/-- **The fewest digits are read back.** -/
theorem shortest_roundsTo {m : Magnitude} (hm : 0 < m.significand) (hlt : m.significand < 2 ^ 53) :
    RoundsTo m.significand m.exponent ((shortest m).coefficient * 10 ^ (shortest m).exponent) := by
  have hleading := leadingExponent_le (Magnitude.numerator_pos hm) m.denominator_pos
  rw [← Magnitude.value_eq] at hleading
  rw [shortest, if_neg hm.ne']
  dsimp only
  generalize leadingExponent m.numerator m.denominator = leading at hleading ⊢
  cases hfound : (List.range 17).findSome? fun more : Nat => m.onGrid? (leading - more) with
  | none =>
    have hnone := List.findSome?_eq_none_iff.1 hfound 16 (by simp)
    have hsome := Magnitude.onGrid?_isSome hm hlt (d := leading - (16 : Nat)) (by simpa using hleading)
    rw [hnone] at hsome
    cases hsome
  | some s =>
    obtain ⟨more, -, hs⟩ := List.exists_of_findSome?_eq_some hfound
    rw [Option.getD_some, Scientific.normalize_value]
    exact (Magnitude.roundsTo_iff hm _ _).1 (Magnitude.roundsTo_of_onGrid? hs)

/-! ## Written digits -/

open Text

/-- The exact value of a numeral. -/
def Numeral.exact (n : Numeral) : ℚ :=
  digitsValue (n.whole ++ n.fraction.getD []) *
    10 ^ ((n.power.map Power.value).getD 0 - (n.fraction.getD []).length : Int)

theorem digitsValue_append (cs ds : List Char) :
    digitsValue (cs ++ ds) = digitsValue cs * 10 ^ ds.length + digitsValue ds := by
  have hfold : ∀ (ds : List Char) (n : Nat), ds.foldl (fun n c => 10 * n + (digitValue? c).getD 0) n =
      n * 10 ^ ds.length + digitsValue ds := by
    intro ds
    induction ds with
    | nil => simp [digitsValue]
    | cons d ds ih =>
      intro n
      have hsingle : digitsValue (d :: ds) = (digitValue? d).getD 0 * 10 ^ ds.length + digitsValue ds := by
        rw [digitsValue, List.foldl_cons, ih]
        simp
      rw [List.foldl_cons, ih, hsingle, List.length_cons, Nat.pow_succ]
      ring
  rw [digitsValue, List.foldl_append, hfold ds]
  rfl

theorem digitsValue_zeros (k : Nat) : digitsValue (List.replicate k '0') = 0 := by
  induction k with
  | zero => rfl
  | succ k ih =>
    rw [List.replicate_succ', digitsValue_append, ih]
    rfl

namespace Style

variable (style : Style)

theorem power_value (exponent : Int) : (style.power exponent).value = exponent := by
  have hdigits : digitsValue (style.power exponent).digits = exponent.natAbs := by
    unfold power
    dsimp only
    rw [digitsValue_append, digitsValue_zeros, Nat.zero_mul, Nat.zero_add, digitsValue_toDigits]
  have hsign : (style.power exponent).sign = some '-' ↔ exponent < 0 := by
    unfold power
    dsimp only
    split_ifs with hneg <;> simp [hneg]
  rw [Power.value, hdigits]
  split_ifs with h <;> rw [hsign] at h <;> omega

theorem exact_positionalNumeral (digits : List Char) (exponent : Int) :
    (style.positionalNumeral digits exponent).exact = digitsValue digits * 10 ^ (exponent + 1 - digits.length) := by
  unfold positionalNumeral
  split_ifs with hneg
  · have hvalue : digitsValue (['0'] ++ (List.replicate (-exponent - 1).toNat '0' ++ digits)) = digitsValue digits := by
      rw [← List.append_assoc, ← List.replicate_one, List.replicate_append_replicate, digitsValue_append,
        digitsValue_zeros, Nat.zero_mul, Nat.zero_add]
    simp only [Numeral.exact, Option.getD_some, Option.map_none, Option.getD_none, hvalue, List.length_append,
      List.length_replicate]
    congr 2
    omega
  · dsimp only
    obtain ⟨count, hcount⟩ : ∃ count, count = exponent.toNat + 1 := ⟨_, rfl⟩
    rw [← hcount]
    by_cases hlen : count < digits.length
    · have hdrop : digits.drop count ≠ [] := by simpa using hlen
      have hfraction : style.fraction (digits.drop count) = some (digits.drop count) := by
        obtain ⟨c, rest, hcons⟩ := List.exists_cons_of_ne_nil hdrop
        rw [hcons]
        rfl
      have hzeros : count - digits.length = 0 := by omega
      simp only [Numeral.exact, hfraction, hzeros, List.replicate_zero, List.append_nil, Option.getD_some,
        List.take_append_drop, List.length_drop, Option.map_none, Option.getD_none]
      congr 2
      omega
    · have hdrop : digits.drop count = [] := by simpa using hlen
      have htake : digits.take count = digits := List.take_of_length_le (by omega)
      have hfraction : ∃ k, (style.fraction []).getD [] = List.replicate k '0' := by
        unfold fraction
        dsimp only
        split_ifs
        · exact ⟨1, rfl⟩
        · exact ⟨0, rfl⟩
      obtain ⟨k, hk⟩ := hfraction
      simp only [Numeral.exact, hdrop, htake, hk, Option.map_none, Option.getD_none, List.append_assoc,
        List.replicate_append_replicate, digitsValue_append, digitsValue_zeros, Nat.add_zero, List.length_replicate]
      push_cast
      rw [mul_assoc, ← zpow_natCast, ← zpow_add₀ (by norm_num)]
      congr 2
      omega

theorem exact_exponentialNumeral {digits : List Char} (hne : digits ≠ []) (exponent : Int) :
    (style.exponentialNumeral digits exponent).exact = digitsValue digits * 10 ^ (exponent + 1 - digits.length) := by
  have hfraction : ((style.exponentialNumeral digits exponent).fraction).getD [] = digits.drop 1 := by
    unfold exponentialNumeral
    dsimp only
    split_ifs with hdrop
    · exact hdrop.symm
    · rfl
  have hwhole : (style.exponentialNumeral digits exponent).whole = digits.take 1 := rfl
  have hpower : (style.exponentialNumeral digits exponent).power = some (style.power exponent) := rfl
  have hlen : 0 < digits.length := List.length_pos_iff.2 hne
  rw [Numeral.exact, hfraction, hwhole, hpower, List.take_append_drop, Option.map_some, Option.getD_some, power_value,
    List.length_drop]
  congr 2
  omega

/-- **What is written has the value of the chosen digits.** -/
theorem exact_numeral (s : Scientific) : (style.numeral s).exact = s.coefficient * 10 ^ s.exponent := by
  have hlen : 0 < (Nat.toDigits 10 s.coefficient).length := Nat.length_toDigits_pos
  have hexponent : s.exponent + ((Nat.toDigits 10 s.coefficient).length - 1 : Nat) + 1 -
      (Nat.toDigits 10 s.coefficient).length = s.exponent := by omega
  unfold numeral
  dsimp only
  split_ifs
  · rw [exact_positionalNumeral, digitsValue_toDigits, hexponent]
  · rw [exact_exponentialNumeral style Nat.toDigits_ne_nil, digitsValue_toDigits, hexponent]

end Style

/-! ## Floats that are read back -/

theorem toFloat_neg {m : Nat} {e : Int} (h : Canonical m e) (he : e ≤ 971) :
    -h.toFloat = .ofModel (.pack (.finite .negative m e h.pos)) := by
  have hneg : -h.toFloat = .ofModel (.pack (UnpackedFloat.neg h.toFloat.toModel.unpack)) := rfl
  rw [hneg, h.unpack_toFloat he]
  rfl

/-- **A finite float is read from its JSON text unchanged.** -/
theorem reread_eq {x : Float} (h : x.isFinite = true) : reread x = x := by
  have hx := ofModel_pack_unpack x
  obtain ⟨hnan, hinf⟩ : x.isNaN = false ∧ x.isInf = false := by
    rw [isFinite_eq] at h
    simpa using h
  have hfinite : x.isFinite = x.toModel.unpack.isFinite := rfl
  rw [reread, hnan, hinf, if_neg Bool.false_ne_true, if_neg Bool.false_ne_true]
  cases hunpack : x.toModel.unpack with
  | finite s m e hm =>
    obtain ⟨hcanonical, he, -⟩ := @bits_of_unpack (packedBits x) _ _ _ _ hunpack
    obtain ⟨hmagnitude, hsign⟩ := magnitude_of_unpack hunpack
    have hrounds : RoundsTo m e (jsonNumeral x).exact := by
      rw [jsonNumeral, hmagnitude, Style.exact_numeral]
      exact shortest_roundsTo (m := ⟨m, e⟩) hm hcanonical.lt
    have hvalue : (jsonNumeral x).value = hcanonical.toFloat := ofDecimal_eq hcanonical he hrounds
    rw [hunpack] at hx
    rw [hvalue]
    cases s with
    | negative =>
      rw [if_pos (hsign.2 rfl), toFloat_neg hcanonical he]
      exact hx
    | positive =>
      rw [if_neg (mt hsign.1 nofun)]
      exact hx
  | zero s =>
    obtain ⟨hmagnitude, hsign⟩ := magnitude_of_zero hunpack
    have hvalue : (jsonNumeral x).value = 0.0 := by
      rw [jsonNumeral, shortest, if_pos hmagnitude]
      rfl
    rw [hunpack] at hx
    rw [hvalue]
    cases s with
    | negative =>
      rw [if_pos (hsign.2 rfl)]
      exact hx
    | positive =>
      rw [if_neg (mt hsign.1 nofun)]
      exact hx
  | infinity s =>
    rw [hfinite, hunpack] at h
    cases h
  | notANumber =>
    rw [hfinite, hunpack] at h
    cases h

end GameSheet.Decimal
