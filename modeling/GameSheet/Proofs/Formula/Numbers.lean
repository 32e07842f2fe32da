import GameSheet.Proofs.Basics
import GameSheet.Proofs.Decimal.Written
import GameSheet.Proofs.Formula.Acceptance
import GameSheet.Proofs.Formula.Calls

/-!
# Numeric texts and number literals

A text that is one number token is a numeral of the digits of all scripts (`isNumberToken_iff`). As the text of a cell it
is a number only if its digits are those of ASCII, and then it is the number of the literal; a sign may stand in front of
it, but no second one. This is **`numericText?_iff_isNumberToken`**.
-/

namespace GameSheet.Formula

open GameSheet.Text GameSheet.Decimal

/-- No blank stands at the ends of the text, and no sign at its start. -/
structure Unadorned (s : String) : Prop where
  trimmed : trim s.toList = s.toList
  unsigned : ∀ c ∈ s.toList.head?, ¬(c = '+' ∨ c = '-')

/-- The text is one token, a number. -/
def IsNumberToken (s : String) : Prop :=
  tokenize s.toList = .ok [⟨.number, s.toList, 0⟩]

/-- The decimal digits in the text are those of ASCII. -/
def AsciiDigits (s : String) : Prop :=
  ∀ c ∈ s.toList, isDigit c = true → isAsciiDigit c = true

instance (s : String) : Decidable (AsciiDigits s) :=
  List.decidableBAll (fun c => isDigit c = true → isAsciiDigit c = true) s.toList

/-- The text is the number, as a formula and as the text of a cell, where one sign may stand in front of it. -/
structure Denotes (s : String) (x : Float) : Prop where
  parsed : ∀ registry, parse registry s = .ok (.number x)
  plain : numericText? s = some x
  plus : numericText? ("+" ++ s) = some x
  minus : numericText? ("-" ++ s) = some (-x)
  once : ∀ a b, a = '+' ∨ a = '-' → b = '+' ∨ b = '-' → numericText? (String.ofList (a :: b :: s.toList)) = none

/-! ## Number tokens -/

/-- A number token by itself is a numeral. -/
theorem isNumberToken_iff {s : String} : IsNumberToken s ↔ ∃ n, Numeral.ofChars? isDigit s.toList = some n := by
  constructor
  · intro h
    have hscan := tokenize_eq_ok_iff.1 h
    exact readable_of_mem_scan (by rw [hscan]; exact List.mem_singleton_self _) rfl
  · rintro ⟨n, hn⟩
    obtain ⟨hn, hchars⟩ := (Numeral.ofChars?_eq_some_iff digitClass_isDigit).1 hn
    have hname := nameToken?_numeral hn []
    rw [List.append_nil] at hname
    have htoken := tokenAt?_numeral hname (Numeral.scan_chars digitClass_isDigit hn)
    have hblank := Numeral.chars_of_inOrder hn
    rw [hchars] at htoken hblank
    obtain ⟨c, rest, hcs⟩ := List.exists_cons_of_ne_nil (tokenAt?_append htoken).2
    have hlayout : isLayout c = false := by
      rw [Bool.eq_false_iff]
      intro hc
      have hc' := hblank c (by simp [hcs])
      rw [isBlank_of_isLayout hc] at hc'
      cases hc'
    rw [IsNumberToken, tokenize_eq_ok_iff, scan]
    rw [hcs] at htoken ⊢
    rw [scanFrom_token hlayout htoken, scanFrom_nil]

/-- A number token is parsed to the number of its numeral. -/
theorem parse_numeral {registry : Registry} {s : String} {n : Numeral}
    (hn : Numeral.ofChars? isDigit s.toList = some n) :
    parse registry s = .ok (.number n.value) := by
  have htokens := tokenize_eq_ok_iff.1 (isNumberToken_iff.2 ⟨n, hn⟩)
  have hlexes : Lexes s.toList [⟨.number, s.toList, 0⟩] := by
    rw [Lexes, htokens]
    rfl
  have hparse := @parse_number registry s ⟨⟨.number, s.toList, 0⟩, rfl⟩ hlexes
  simpa [Token.number, hn] using hparse

/-- A text without blanks is trimmed. -/
theorem trim_of_not_blank {cs : List Char} (h : ∀ c ∈ cs, isBlank c = false) : trim cs = cs := by
  have htrim := @trim_eq [] cs [] rfl rfl (fun c hc => h c (List.mem_of_mem_head? hc))
    fun c hc => h c (List.mem_of_getLast? hc)
  simpa using htrim

/-- No numeral starts with a sign. -/
theorem not_sign_of_head? {digit : Char → Bool} (hd : DigitClass digit) {cs : List Char} {n : Numeral}
    (hn : Numeral.ofChars? digit cs = some n) : ∀ c ∈ cs.head?, ¬(c = '+' ∨ c = '-') := by
  obtain ⟨hinOrder, hchars⟩ := (Numeral.ofChars?_eq_some_iff hd).1 hn
  intro c hc hsign
  have hhead := Numeral.head_chars hinOrder [] c (by rwa [hchars, List.append_nil])
  rw [hd.signs c hsign] at hhead
  rcases hsign with rfl | rfl <;> simp at hhead

theorem not_blank_of_ofChars? {cs : List Char} {n : Numeral} (hn : Numeral.ofChars? isDigit cs = some n) :
    ∀ c ∈ cs, isBlank c = false := by
  obtain ⟨hinOrder, hchars⟩ := (Numeral.ofChars?_eq_some_iff digitClass_isDigit).1 hn
  exact hchars ▸ Numeral.chars_of_inOrder hinOrder

/-- A number token has no sign and no blanks. -/
theorem unadorned_of_ofChars? {s : String} {n : Numeral} (hn : Numeral.ofChars? isDigit s.toList = some n) :
    Unadorned s :=
  ⟨trim_of_not_blank (not_blank_of_ofChars? hn), not_sign_of_head? digitClass_isDigit hn⟩

/-! ## Numeric texts -/

theorem isDigit_of_isAsciiDigit {c : Char} (h : isAsciiDigit c = true) : isDigit c = true := by
  rw [isDigit, digitValue?_of_isAsciiDigit h]
  rfl

/-- Only digits of ASCII make a numeral of them. -/
theorem isAsciiDigit_of_ofChars? {cs : List Char} {n : Numeral} (h : Numeral.ofChars? isAsciiDigit cs = some n) :
    ∀ c ∈ cs, isDigit c = true → isAsciiDigit c = true := by
  have hmarks : ∀ c ∈ ['.', 'e', 'E', '+', '-'], isDigit c = false := forall_mem_of_all (by decide)
  obtain ⟨hn, rfl⟩ := (Numeral.ofChars?_eq_some_iff digitClass_isAsciiDigit).1 h
  intro c hc hdigit
  rcases Numeral.mem_chars hn hc with hascii | hother
  · exact hascii
  · rw [hmarks c hother] at hdigit
    cases hdigit

/-- A numeral of digits of ASCII is one of the digits of all scripts. -/
theorem ofChars?_isDigit_of_isAsciiDigit {cs : List Char} {n : Numeral}
    (h : Numeral.ofChars? isAsciiDigit cs = some n) : Numeral.ofChars? isDigit cs = some n := by
  obtain ⟨hn, rfl⟩ := (Numeral.ofChars?_eq_some_iff digitClass_isAsciiDigit).1 h
  exact Numeral.ofChars?_chars digitClass_isDigit (hn.of_chars fun c _ => isDigit_of_isAsciiDigit)

/-- The two classes of digits read the same numeral, if there are no other digits than those of ASCII. -/
theorem ofChars?_isAsciiDigit {cs : List Char} {n : Numeral} (h : Numeral.ofChars? isDigit cs = some n)
    (hascii : ∀ c ∈ cs, isDigit c = true → isAsciiDigit c = true) : Numeral.ofChars? isAsciiDigit cs = some n := by
  obtain ⟨hn, rfl⟩ := (Numeral.ofChars?_eq_some_iff digitClass_isDigit).1 h
  exact Numeral.ofChars?_chars digitClass_isAsciiDigit (hn.of_chars hascii)

/-- A text without blanks is a numeric text if a numeral of digits of ASCII stands behind its sign. -/
theorem numericText?_signed {sign : Option Char} {cs : List Char} (hsign : ∀ c ∈ sign, c = '+' ∨ c = '-')
    (hblank : ∀ c ∈ cs, isBlank c = false) (hhead : sign = none → ∀ c ∈ cs.head?, ¬(c = '+' ∨ c = '-')) :
    numericText? (String.ofList (sign.toList ++ cs)) =
      (Numeral.ofChars? isAsciiDigit cs).map fun n => signed sign n.value := by
  have hall : ∀ c ∈ sign.toList ++ cs, isBlank c = false := by
    intro c hc
    rcases List.mem_append.1 hc with hc | hc
    · rcases hsign c (Option.mem_toList.1 hc) with rfl | rfl <;> decide
    · exact hblank c hc
  have hscan : scanSign (sign.toList ++ cs) = (sign, cs) := by
    cases sign with
    | some c => simp [scanSign, hsign c rfl]
    | none => exact scanSign_append_toList hsign (hhead rfl)
  rw [numericText?, String.toList_ofList, trim_of_not_blank hall, hscan]

section Token

variable {s : String} {n : Numeral}

/-- What is read of a number token with a sign in front of it, or with none. -/
theorem numericText?_of_ofChars? (hn : Numeral.ofChars? isDigit s.toList = some n) {sign : Option Char}
    (hsign : ∀ c ∈ sign, c = '+' ∨ c = '-') : numericText? (String.ofList (sign.toList ++ s.toList)) =
      (Numeral.ofChars? isAsciiDigit s.toList).map fun n => signed sign n.value := by
  apply numericText?_signed hsign (not_blank_of_ofChars? hn)
  exact fun _ => not_sign_of_head? digitClass_isDigit hn

/-- A number token of digits of ASCII denotes its number. -/
theorem denotes_of_asciiDigits (hn : Numeral.ofChars? isDigit s.toList = some n) (hascii : AsciiDigits s) :
    Denotes s n.value := by
  have hread := ofChars?_isAsciiDigit hn hascii
  have hsigned : ∀ sign : Option Char, (∀ c ∈ sign, c = '+' ∨ c = '-') →
      numericText? (String.ofList (sign.toList ++ s.toList)) = some (signed sign n.value) := by
    intro sign hsign
    rw [numericText?_of_ofChars? hn hsign, hread, Option.map_some]
  refine ⟨fun registry => parse_numeral hn, ?_, ?_, ?_, fun a b ha hb => ?_⟩
  · simpa [signed] using hsigned none (by simp)
  · simpa [signed, String.ofList_append] using hsigned (some '+') (by simp)
  · simpa [signed, String.ofList_append] using hsigned (some '-') (by simp)
  · -- the second sign stands where the numeral should start
    have hblank : ∀ c ∈ b :: s.toList, isBlank c = false := by
      refine List.forall_mem_cons.2 ⟨?_, not_blank_of_ofChars? hn⟩
      rcases hb with rfl | rfl <;> decide
    have hnone : Numeral.ofChars? isAsciiDigit (b :: s.toList) = none := by
      rw [Option.eq_none_iff_forall_ne_some]
      intro m hm
      exact not_sign_of_head? digitClass_isAsciiDigit hm b rfl hb
    have htwo := @numericText?_signed (some a) (b :: s.toList) (by simpa using ha) hblank (by simp)
    rwa [hnone] at htwo

/-- A text of other digits is no number, whatever sign stands in front of it. -/
theorem numericText?_of_not_asciiDigits (hn : Numeral.ofChars? isDigit s.toList = some n) (hascii : ¬AsciiDigits s)
    {sign : Option Char} (hsign : ∀ c ∈ sign, c = '+' ∨ c = '-') :
    numericText? (String.ofList (sign.toList ++ s.toList)) = none := by
  have hread : Numeral.ofChars? isAsciiDigit s.toList = none := by
    rw [Option.eq_none_iff_forall_ne_some]
    intro m hm
    exact hascii (isAsciiDigit_of_ofChars? hm)
  rw [numericText?_of_ofChars? hn hsign, hread, Option.map_none]

/-- A numeric text without a sign and without blanks is a number token of digits of ASCII. -/
theorem isNumberToken_of_numericText? {x : Float} (h : numericText? s = some x) (hs : Unadorned s) :
    IsNumberToken s ∧ AsciiDigits s := by
  have hscan : scanSign s.toList = (none, s.toList) := @scanSign_append_toList none s.toList (by simp) hs.unsigned
  rw [numericText?, hs.trimmed, hscan] at h
  obtain ⟨m, hm, -⟩ := Option.map_eq_some_iff.1 h
  exact ⟨isNumberToken_iff.2 ⟨m, ofChars?_isDigit_of_isAsciiDigit hm⟩, isAsciiDigit_of_ofChars? hm⟩

end Token

/-- **Numeric texts and number literals.** A text without a sign and without blanks around it is a numeric text exactly
if it is one number token and its digits are those of ASCII. Then both readings give the same number, and one sign may
stand in front of the numeric text, but not two. A number token with a digit of another script is a number as well as a
formula, and none as a numeric text, with a sign or without. -/
theorem numericText?_iff_isNumberToken (s : String) :
    ((∃ x, numericText? s = some x) ∧ Unadorned s ↔ IsNumberToken s ∧ AsciiDigits s) ∧
    (IsNumberToken s → AsciiDigits s → ∃ x, Denotes s x) ∧
    (IsNumberToken s → ¬AsciiDigits s → (∃ x, ∀ registry, parse registry s = .ok (.number x)) ∧
      numericText? s = none ∧ numericText? ("+" ++ s) = none ∧ numericText? ("-" ++ s) = none) := by
  refine ⟨⟨?_, ?_⟩, ?_, ?_⟩
  · rintro ⟨⟨x, hx⟩, hs⟩
    exact isNumberToken_of_numericText? hx hs
  · rintro ⟨htoken, hascii⟩
    obtain ⟨n, hn⟩ := isNumberToken_iff.1 htoken
    exact ⟨⟨n.value, (denotes_of_asciiDigits hn hascii).plain⟩, unadorned_of_ofChars? hn⟩
  · intro htoken hascii
    obtain ⟨n, hn⟩ := isNumberToken_iff.1 htoken
    exact ⟨n.value, denotes_of_asciiDigits hn hascii⟩
  · intro htoken hascii
    obtain ⟨n, hn⟩ := isNumberToken_iff.1 htoken
    have hnone : ∀ sign : Option Char, (∀ c ∈ sign, c = '+' ∨ c = '-') →
        numericText? (String.ofList (sign.toList ++ s.toList)) = none :=
      fun sign hsign => numericText?_of_not_asciiDigits hn hascii hsign
    refine ⟨⟨n.value, fun registry => parse_numeral hn⟩, ?_, ?_, ?_⟩
    · simpa using hnone none (by simp)
    · simpa [String.ofList_append] using hnone (some '+') (by simp)
    · simpa [String.ofList_append] using hnone (some '-') (by simp)

/-- A literal with a fraction and an exponent is read alike, one of an Arabic digit is not. -/
theorem numericText?_iff_isNumberToken_scripts :
    (∃ x, Denotes "12.5e-3" x) ∧ IsNumberToken "٣" ∧
      (∃ x, ∀ registry, parse registry "٣" = .ok (.number x)) ∧ numericText? "٣" = none := by
  have hlatin : IsNumberToken "12.5e-3" := isNumberToken_iff.2 ⟨⟨['1', '2'], some ['5'], some ⟨'e', some '-', ['3']⟩⟩,
    by decide +kernel⟩
  have harabic : IsNumberToken "٣" := isNumberToken_iff.2 ⟨⟨['٣'], none, none⟩, by decide +kernel⟩
  have hlatinDigits : AsciiDigits "12.5e-3" := by decide +kernel
  have harabicDigits : ¬AsciiDigits "٣" := by decide +kernel
  obtain ⟨hparse, hnone, -⟩ := (numericText?_iff_isNumberToken "٣").2.2 harabic harabicDigits
  exact ⟨(numericText?_iff_isNumberToken "12.5e-3").2.1 hlatin hlatinDigits, harabic, hparse, hnone⟩

/-- Not every number token is a numeric text. -/
theorem not_numericText?_of_isNumberToken :
    ¬∀ s, (∃ x, numericText? s = some x) ∧ Unadorned s ↔ IsNumberToken s := by
  intro h
  have harabic : IsNumberToken "٣" := isNumberToken_iff.2 ⟨⟨['٣'], none, none⟩, by decide +kernel⟩
  obtain ⟨⟨x, hx⟩, hs⟩ := (h "٣").2 harabic
  have hdigits := (isNumberToken_of_numericText? hx hs).2
  exact absurd (hdigits '٣' (by decide) (by decide)) (by decide)

end GameSheet.Formula
