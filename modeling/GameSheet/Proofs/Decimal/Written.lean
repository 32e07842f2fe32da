import Mathlib.Data.List.Basic
import GameSheet.Decimal.Style
import GameSheet.Text.Digit

/-!
# Digits of written numbers

* The decimal digits of a natural number are ASCII digits (`isAsciiDigit_of_mem_toDigits`), denote the number
  (`digitsValue_toDigits`) and do not start with a zero, unless the number is zero (`head?_toDigits_ne_zero`). So
  different numbers are written differently (`toString_injective`).
* A number on display is never an empty text (`displayText_ne_empty`). It starts with a digit or a minus if it is finite
  (`displayText_head`); else it is one of three words.
-/

namespace GameSheet.Decimal

open GameSheet.Text

/-! ## Natural numbers -/

theorem isAsciiDigit_of_isDigit {c : Char} (h : c.isDigit = true) : isAsciiDigit c = true := by
  simpa [isAsciiDigit, Char.isDigit, Char.le_def] using h

theorem isAsciiDigit_of_mem_toDigits {n : Nat} {c : Char} (h : c ∈ Nat.toDigits 10 n) : isAsciiDigit c = true :=
  isAsciiDigit_of_isDigit (Nat.isDigit_of_mem_toDigits (by omega) (by omega) h)

/-- An ASCII digit lies between zero and nine. -/
theorem toNat_of_isAsciiDigit {c : Char} (h : isAsciiDigit c = true) : 48 ≤ c.toNat ∧ c.toNat ≤ 57 := by
  simp only [isAsciiDigit, Bool.and_eq_true, decide_eq_true_eq, Char.le_def, UInt32.le_iff_toNat_le] at h
  exact h

theorem digitValue?_of_isAsciiDigit {c : Char} (h : isAsciiDigit c = true) : digitValue? c = some (c.toNat - 48) := by
  have hc := toNat_of_isAsciiDigit h
  have hzero : (decide (48 ≤ c.toNat) && decide (c.toNat < 48 + 10)) = true := by
    simp only [Bool.and_eq_true, decide_eq_true_eq]
    omega
  simp [digitValue?, digitZeros, hzero]

/-- **The digits of a number denote it.** -/
theorem digitsValue_toDigits (n : Nat) : digitsValue (Nat.toDigits 10 n) = n := by
  have hvalue : digitsValue (Nat.toDigits 10 n) = Nat.ofDigitChars 10 (Nat.toDigits 10 n) 0 := by
    rw [Nat.ofDigitChars_eq_foldl, digitsValue]
    refine List.foldl_ext _ _ _ fun sofar c hc => ?_
    rw [digitValue?_of_isAsciiDigit (isAsciiDigit_of_mem_toDigits hc)]
    rfl
  rw [hvalue, Nat.ofDigitChars_ten_toDigits]

/-- Only zero is written with a zero at the front. -/
theorem head?_toDigits_ne_zero {n : Nat} (h : n ≠ 0) : (Nat.toDigits 10 n).head? ≠ some '0' := by
  induction n using Nat.strongRecOn with
  | ind n ih =>
    rw [Nat.toDigits_eq_if (by omega)]
    split
    · simpa [Nat.digitChar_eq_zero] using h
    · have hquotient : n / 10 ≠ 0 := by omega
      have hhead := ih (n / 10) (by omega) hquotient
      obtain ⟨c, rest, hcons⟩ := List.exists_cons_of_ne_nil (Nat.toDigits_ne_nil (b := 10) (n := n / 10))
      simpa [hcons] using hhead

/-- Different numbers are written differently. -/
theorem toString_injective : Function.Injective (toString : Nat → String) := by
  intro m n h
  rw [Nat.toString_eq_ofList_toDigits, Nat.toString_eq_ofList_toDigits] at h
  have hdigits : Nat.toDigits 10 m = Nat.toDigits 10 n := by simpa using congrArg String.toList h
  rw [← digitsValue_toDigits m, hdigits, digitsValue_toDigits]

theorem toString_ne_empty (n : Nat) : toString n ≠ "" := by
  rw [Nat.toString_eq_ofList_toDigits]
  intro h
  have hnil : Nat.toDigits 10 n = [] := by simpa using congrArg String.toList h
  exact Nat.toDigits_ne_nil hnil

/-! ## Numbers on display -/

theorem Style.positional_ne_nil (style : Style) {digits : List Char} (h : digits ≠ []) (exponent : Int) :
    style.positional digits exponent ≠ [] := by
  unfold positional
  split
  · simp
  · obtain ⟨c, rest, rfl⟩ := List.exists_cons_of_ne_nil h
    dsimp only
    split
    · split <;> simp
    · simp

theorem Style.exponential_ne_nil (style : Style) (digits : List Char) (exponent : Int) :
    style.exponential digits exponent ≠ [] := by
  simp [exponential]

theorem Style.write_ne_nil (style : Style) (s : Scientific) : style.write s ≠ [] := by
  unfold write
  dsimp only
  split
  · exact positional_ne_nil style Nat.toDigits_ne_nil _
  · exact exponential_ne_nil style _ _

theorem append_ne_empty (s : String) {t : String} (h : t ≠ "") : s ++ t ≠ "" := by
  simp [h]

theorem Style.text_ne_empty {style : Style} (hnan : style.nan ≠ "") (hinfinity : style.infinity ≠ "")
    (choose : Magnitude → Scientific) (x : Float) : style.text choose x ≠ "" := by
  unfold text
  split
  · exact hnan
  · refine append_ne_empty _ ?_
    split
    · exact hinfinity
    · intro h
      exact write_ne_nil style _ (by simpa using congrArg String.toList h)

/-- **A number on display is never an empty text.** -/
theorem displayText_ne_empty (x : Float) : displayText x ≠ "" := by
  unfold displayText
  split
  · cases truncInt x with
    | ofNat n => exact toString_ne_empty n
    | negSucc n => exact append_ne_empty "-" (toString_ne_empty (n + 1))
  · exact Style.text_ne_empty (by decide) (by decide) _ x

/-! ## Numbers and words on display -/

theorem Style.positional_head (style : Style) {c : Char} (hc : isAsciiDigit c = true) (digits : List Char)
    (exponent : Int) : ∃ d rest, style.positional (c :: digits) exponent = d :: rest ∧ isAsciiDigit d = true := by
  unfold positional
  split
  · exact ⟨'0', _, rfl, by decide⟩
  · dsimp only
    split
    · split
      · exact ⟨c, _, rfl, hc⟩
      · exact ⟨c, _, rfl, hc⟩
    · exact ⟨c, _, rfl, hc⟩

theorem Style.exponential_head (style : Style) {c : Char} (hc : isAsciiDigit c = true) (digits : List Char)
    (exponent : Int) : ∃ d rest, style.exponential (c :: digits) exponent = d :: rest ∧ isAsciiDigit d = true := by
  cases digits with
  | nil => exact ⟨c, _, rfl, hc⟩
  | cons c' digits => exact ⟨c, _, rfl, hc⟩

/-- What is written for chosen digits starts with a digit. -/
theorem Style.write_head (style : Style) (s : Scientific) :
    ∃ c rest, style.write s = c :: rest ∧ isAsciiDigit c = true := by
  obtain ⟨c, digits, hdigits⟩ := List.exists_cons_of_ne_nil (Nat.toDigits_ne_nil (b := 10) (n := s.coefficient))
  have hc : isAsciiDigit c = true := isAsciiDigit_of_mem_toDigits (by rw [hdigits]; exact List.mem_cons_self)
  unfold write
  dsimp only
  rw [hdigits]
  split
  · exact positional_head style hc digits _
  · exact exponential_head style hc digits _

/-- What a float is: none of these is another. -/
theorem isFinite_eq (x : Float) : x.isFinite = (!x.isNaN && !x.isInf) := by
  have hfinite : x.isFinite = x.toModel.unpack.isFinite := rfl
  have hnan : x.isNaN = x.toModel.unpack.isNaN := rfl
  have hinf : x.isInf = x.toModel.unpack.isInf := rfl
  rw [hfinite, hnan, hinf]
  cases x.toModel.unpack <;> rfl

theorem displayText_nan {x : Float} (h : x.isNaN = true) : displayText x = "NaN" := by
  have hwhole : isWhole x = false := by
    rw [isWhole, isFinite_eq, h]
    rfl
  rw [displayText, hwhole, Bool.false_and, if_neg (by decide), Style.text, if_pos h]
  rfl

theorem displayText_infinity {x : Float} (hnan : x.isNaN = false) (h : x.isInf = true) :
    displayText x = if isNegative x then "-Infinity" else "Infinity" := by
  have hwhole : isWhole x = false := by
    rw [isWhole, isFinite_eq, h, Bool.not_true, Bool.and_false, Bool.false_and]
  rw [displayText, hwhole, Bool.false_and, if_neg (by decide), Style.text, hnan, if_neg (by decide), h, if_pos rfl]
  cases isNegative x <;> rfl

/-- **A finite number on display starts with a digit or a minus.** -/
theorem displayText_head {x : Float} (hnan : x.isNaN = false) (hinf : x.isInf = false) :
    ∃ c rest, (displayText x).toList = c :: rest ∧ (isAsciiDigit c = true ∨ c = '-') := by
  have hnat : ∀ n : Nat, ∃ c rest, (toString n).toList = c :: rest ∧ isAsciiDigit c = true := fun n => by
    obtain ⟨c, rest, hdigits⟩ := List.exists_cons_of_ne_nil (Nat.toDigits_ne_nil (b := 10) (n := n))
    refine ⟨c, rest, ?_, isAsciiDigit_of_mem_toDigits (by rw [hdigits]; exact List.mem_cons_self)⟩
    rw [Nat.toString_eq_ofList_toDigits, String.toList_ofList, hdigits]
  unfold displayText
  split
  · cases truncInt x with
    | ofNat n =>
      obtain ⟨c, rest, htext, hc⟩ := hnat n
      exact ⟨c, rest, htext, .inl hc⟩
    | negSucc n => exact ⟨'-', (toString (n + 1)).toList, String.toList_append, .inr rfl⟩
  · obtain ⟨c, rest, hwrite, hc⟩ :=
      displayStyle.write_head (rounded 10 (Magnitude.ofFloat x).numerator (Magnitude.ofFloat x).denominator)
    have htext : ∀ sign : String, (sign ++ String.ofList (c :: rest)).toList = sign.toList ++ c :: rest := fun sign => by
      rw [String.toList_append, String.toList_ofList]
    rw [Style.text, hnan, if_neg Bool.false_ne_true]
    dsimp only
    rw [hinf, if_neg Bool.false_ne_true, hwrite, htext]
    split
    · exact ⟨'-', c :: rest, rfl, .inr rfl⟩
    · exact ⟨c, rest, rfl, .inl hc⟩

end GameSheet.Decimal
