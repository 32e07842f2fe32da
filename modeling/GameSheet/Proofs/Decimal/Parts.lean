import GameSheet.Proofs.Decimal.Numeral
import GameSheet.Proofs.Decimal.Written

/-!
# Written floats as numerals

What a style writes for chosen digits are the characters of a numeral (`Style.chars_numeral`). The fewest digits that
read back have no zeros at their end (`shortest_zero`), so a style that keeps the point writes them as a numeral without
zeros in front, with digits after its point, and with a point or an exponent (`Style.strict_numeral`).
-/

namespace GameSheet.Decimal

open GameSheet.Text

/-! ## Chosen digits -/

/-- The zeros at the end of a number are a factor of it. -/
theorem mul_trailing_zeros (n : Nat) :
    n / Nat.pow 10 ((Nat.toDigits 10 n).reverse.takeWhile (· == '0')).length *
      Nat.pow 10 ((Nat.toDigits 10 n).reverse.takeWhile (· == '0')).length = n := by
  induction n using Nat.strongRecOn with
  | ind n ih =>
    rw [Nat.toDigits_eq_if (by omega)]
    split
    · next hn =>
      by_cases hzero : n = 0
      · rw [hzero, Nat.zero_div, Nat.zero_mul]
      · have hdigit : (Nat.digitChar n == '0') = false := by simpa [Nat.digitChar_eq_zero] using hzero
        simp [hdigit]
    · rw [List.reverse_append, List.reverse_singleton, List.singleton_append, List.takeWhile_cons]
      split
      · next hlast =>
        have hrest : n % 10 = 0 := by simpa [Nat.digitChar_eq_zero] using hlast
        have hquotient := ih (n / 10) (by omega)
        rw [List.length_cons, Nat.pow_eq, Nat.pow_succ', ← Nat.div_div_eq_div_mul, Nat.mul_left_comm]
        rw [Nat.pow_eq] at hquotient
        rw [hquotient]
        omega
      · simp

/-- A number other than zero is still one without the zeros at the end of its digits. -/
theorem div_trailing_zeros_ne_zero {n : Nat} (h : n ≠ 0) :
    n / Nat.pow 10 ((Nat.toDigits 10 n).reverse.takeWhile (· == '0')).length ≠ 0 := by
  intro hzero
  have hfactor := mul_trailing_zeros n
  rw [hzero, Nat.zero_mul] at hfactor
  exact h hfactor.symm

/-- Zero has no exponent once the zeros at the end are gone. -/
theorem Scientific.normalize_zero {s : Scientific} (h : s.normalize.coefficient = 0) : s.normalize.exponent = 0 := by
  unfold normalize at h ⊢
  dsimp only at h ⊢
  split
  · rfl
  · next hne =>
    rw [if_neg hne] at h
    exact absurd h (div_trailing_zeros_ne_zero hne)

theorem shortest_zero {m : Magnitude} (h : (shortest m).coefficient = 0) : (shortest m).exponent = 0 := by
  unfold shortest at h ⊢
  split
  · rfl
  · next hne =>
    rw [if_neg hne] at h
    exact Scientific.normalize_zero h

/-! ## The numeral that is written -/

namespace Style

variable (style : Style)

/-- The digits after the point, if the digits left for them are written after one. -/
def fraction : List Char → Option (List Char)
  | [] => if style.keepsPoint then some ['0'] else none
  | digits => some digits

/-- The numeral that is written positionally. -/
def positionalNumeral (digits : List Char) (exponent : Int) : Numeral :=
  if exponent < 0 then ⟨['0'], some (List.replicate (-exponent - 1).toNat '0' ++ digits), none⟩
  else
    let wholeCount := exponent.toNat + 1
    let whole := digits.take wholeCount ++ List.replicate (wholeCount - digits.length) '0'
    ⟨whole, style.fraction (digits.drop wholeCount), none⟩

/-- The exponent part that is written for an exponent. -/
def power (exponent : Int) : Power where
  mark := 'e'
  sign := if exponent < 0 then some '-' else if style.plusExponent then some '+' else none
  digits :=
    let digits := Nat.toDigits 10 exponent.natAbs
    List.replicate (style.exponentDigits - digits.length) '0' ++ digits

/-- The numeral that is written with an exponent. -/
def exponentialNumeral (digits : List Char) (exponent : Int) : Numeral where
  whole := digits.take 1
  fraction := if digits.drop 1 = [] then none else some (digits.drop 1)
  power := some (style.power exponent)

/-- The numeral that is written for chosen digits. -/
def numeral (s : Scientific) : Numeral :=
  let digits := Nat.toDigits 10 s.coefficient
  let exponent := s.exponent + (digits.length - 1 : Nat)
  if style.positionalFrom ≤ exponent ∧ exponent < style.exponentFrom then style.positionalNumeral digits exponent
  else style.exponentialNumeral digits exponent

theorem chars_positionalNumeral (digits : List Char) (exponent : Int) :
    (style.positionalNumeral digits exponent).chars = style.positional digits exponent := by
  unfold positionalNumeral positional
  split
  · simp [Numeral.chars]
  · dsimp only
    cases hdrop : digits.drop (exponent.toNat + 1) with
    | nil => cases hpoint : style.keepsPoint <;> simp [Numeral.chars, fraction, hpoint]
    | cons c rest => simp [Numeral.chars, fraction]

theorem chars_exponentialNumeral (digits : List Char) (exponent : Int) :
    (style.exponentialNumeral digits exponent).chars = style.exponential digits exponent := by
  have hsign : (style.power exponent).sign.toList =
      if exponent < 0 then ['-'] else if style.plusExponent then ['+'] else [] := by
    unfold power
    dsimp only
    split
    · rfl
    · split <;> rfl
  have hpower : (style.power exponent).chars = 'e' :: (style.power exponent).sign.toList ++
      (style.power exponent).digits := rfl
  unfold exponentialNumeral exponential Numeral.chars
  rw [Option.map_some, Option.getD_some, hpower, hsign]
  match digits with
  | [] => simp [power]
  | [c] => simp [power]
  | c :: c' :: rest => simp [power]

/-- **What is written are the characters of a numeral.** -/
theorem chars_numeral (s : Scientific) : (style.numeral s).chars = style.write s := by
  unfold numeral write
  dsimp only
  split
  · exact chars_positionalNumeral style _ _
  · exact chars_exponentialNumeral style _ _

end Style

/-- The numeral has no zeros in front, and digits after its point. -/
structure Numeral.Tidy (n : Numeral) : Prop where
  inOrder : n.InOrder isAsciiDigit
  whole : n.whole = ['0'] ∨ n.whole ≠ [] ∧ n.whole.head? ≠ some '0'
  fraction : n.fraction ≠ some []

/-- The numeral has a point or an exponent as well. -/
structure Numeral.Strict (n : Numeral) : Prop extends n.Tidy where
  broken : n.fraction.isNone = false ∨ n.power.isNone = false

theorem isAsciiDigit_of_mem_replicate {k : Nat} {c : Char} (h : c ∈ List.replicate k '0') : isAsciiDigit c = true := by
  rw [List.eq_of_mem_replicate h]
  decide

namespace Style

variable {style : Style} {digits : List Char}

theorem power_inOrder (style : Style) (exponent : Int) : (style.power exponent).InOrder isAsciiDigit where
  mark := .inl rfl
  sign := by
    intro c hc
    unfold power at hc
    dsimp only at hc
    split at hc
    · exact .inr (Option.some.inj hc).symm
    · split at hc
      · exact .inl (Option.some.inj hc).symm
      · cases hc
  digits := List.forall_mem_append.2
    ⟨fun _ hc => isAsciiDigit_of_mem_replicate hc, fun _ hc => isAsciiDigit_of_mem_toDigits hc⟩
  digits_ne_nil := fun h => Nat.toDigits_ne_nil (List.append_eq_nil_iff.1 h).2

theorem strict_exponentialNumeral (hdigits : ∀ c ∈ digits, isAsciiDigit c = true) (hne : digits ≠ [])
    (exponent : Int) : (style.exponentialNumeral digits exponent).Strict := by
  obtain ⟨c, rest, rfl⟩ := List.exists_cons_of_ne_nil hne
  obtain ⟨hc, hrest⟩ := List.forall_mem_cons.1 hdigits
  refine ⟨⟨⟨?_, ?_, ?_, ?_⟩, ?_, ?_⟩, .inr rfl⟩
  · exact List.forall_mem_singleton.2 hc
  · intro ds hds
    unfold exponentialNumeral at hds
    dsimp only at hds
    split at hds
    · cases hds
    · cases hds
      exact hrest
  · rintro p ⟨⟩
    exact power_inOrder style exponent
  · simp [exponentialNumeral]
  · by_cases hzero : c = '0'
    · exact .inl (by rw [hzero]; rfl)
    · exact .inr ⟨by simp [exponentialNumeral], by simpa [exponentialNumeral] using hzero⟩
  · unfold exponentialNumeral
    dsimp only
    split
    · simp
    · simpa using ‹_›

theorem exists_fraction (hpoint : style.keepsPoint = true) (hdigits : ∀ c ∈ digits, isAsciiDigit c = true) :
    ∃ ds, style.fraction digits = some ds ∧ ds ≠ [] ∧ ∀ c ∈ ds, isAsciiDigit c = true := by
  cases digits with
  | nil =>
    have hzero : isAsciiDigit '0' = true := by decide
    exact ⟨['0'], by rw [fraction, if_pos hpoint], List.cons_ne_nil _ _, List.forall_mem_singleton.2 hzero⟩
  | cons c rest => exact ⟨c :: rest, rfl, List.cons_ne_nil _ _, hdigits⟩

theorem strict_positionalNumeral (hpoint : style.keepsPoint = true) (hdigits : ∀ c ∈ digits, isAsciiDigit c = true)
    (hne : digits ≠ []) {exponent : Int} (hzero : digits.head? = some '0' → digits = ['0'] ∧ exponent ≤ 0) :
    (style.positionalNumeral digits exponent).Strict := by
  unfold positionalNumeral
  split
  · refine ⟨⟨⟨?_, ?_, ?_, ?_⟩, .inl rfl, ?_⟩, .inl rfl⟩
    · exact List.forall_mem_singleton.2 (by decide)
    · rintro ds ⟨⟩
      exact List.forall_mem_append.2 ⟨fun _ hc => isAsciiDigit_of_mem_replicate hc, hdigits⟩
    · rintro p ⟨⟩
    · simp
    · simp [hne]
  · next hexponent =>
    obtain ⟨ds, hds, hdsne, hdsdigits⟩ := @exists_fraction style (digits.drop (exponent.toNat + 1)) hpoint
      fun c hc => hdigits c (List.mem_of_mem_drop hc)
    obtain ⟨c, rest, rfl⟩ := List.exists_cons_of_ne_nil hne
    dsimp only
    rw [hds]
    refine ⟨⟨⟨?_, ?_, ?_, ?_⟩, ?_, ?_⟩, .inl rfl⟩
    · exact List.forall_mem_append.2
        ⟨fun d hd => hdigits d (List.mem_of_mem_take hd), fun _ hd => isAsciiDigit_of_mem_replicate hd⟩
    · rintro _ ⟨⟩
      exact hdsdigits
    · rintro p ⟨⟩
    · simp
    · by_cases hc : c = '0'
      · subst hc
        obtain ⟨hdigit, hle⟩ := hzero rfl
        have hexp : exponent.toNat = 0 := by omega
        rw [hdigit, hexp]
        exact .inl rfl
      · exact .inr ⟨by simp, by simpa using hc⟩
    · simpa using hdsne

/-- **The fewest digits that read back are written as a strict numeral**, if the style keeps the point. -/
theorem strict_numeral (hpoint : style.keepsPoint = true) {s : Scientific}
    (hzero : s.coefficient = 0 → s.exponent = 0) : (style.numeral s).Strict := by
  have hdigits : ∀ c ∈ Nat.toDigits 10 s.coefficient, isAsciiDigit c = true := fun _ hc =>
    isAsciiDigit_of_mem_toDigits hc
  unfold numeral
  dsimp only
  split
  · refine strict_positionalNumeral hpoint hdigits Nat.toDigits_ne_nil fun hhead => ?_
    have hcoefficient : s.coefficient = 0 := by
      by_contra hne
      exact head?_toDigits_ne_zero hne hhead
    rw [hcoefficient, hzero hcoefficient]
    exact ⟨rfl, Int.le_refl _⟩
  · exact strict_exponentialNumeral hdigits Nat.toDigits_ne_nil _

end Style

/-! ## What is read from a JSON text -/

/-- The numeral that stands for the size of a finite float in a JSON text. -/
def jsonNumeral (x : Float) : Numeral :=
  jsonStyle.numeral (shortest (Magnitude.ofFloat x))

theorem strict_jsonNumeral (x : Float) : (jsonNumeral x).Strict :=
  Style.strict_numeral rfl shortest_zero

/-- The float that is read from the JSON text of a float. -/
def reread (x : Float) : Float :=
  if x.isNaN then 0.0 / 0.0
  else if x.isInf then if isNegative x then -1.0 / 0.0 else 1.0 / 0.0
  else if isNegative x then -(jsonNumeral x).value else (jsonNumeral x).value

example : (reread (-12.25)).toBits = (-12.25 : Float).toBits := by decide +kernel

end GameSheet.Decimal
