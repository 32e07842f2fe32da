import GameSheet.Data.Json
import GameSheet.Proofs.Basics
import GameSheet.Proofs.Decimal.Parts

/-!
# JSON scalars read back

Numbers and words are read from the front of a text, whatever follows them, as long as that does not go on with them
(`Data.Ends`): a tidy numeral (**`Data.readNumber_numeral`**) and the words for the rest. A number is told from a word
by its first digit (`Data.readScalar_number`). An integer may have more digits than the reader bears
(`Data.Reader.exceeded?`).

The text of an integer is a tidy numeral (`Data.toList_json_int`), that of a float is one too, or a word
(`Data.toList_json_float`), each after a minus for a negative one.
-/

namespace GameSheet.Data

open GameSheet.Text

/-- The text does not go on with the value before it. -/
def Ends (rest : List Char) : Prop :=
  ∀ c ∈ rest.head?, isJsonBlank c = true ∨ c = ',' ∨ c = ']' ∨ c = '\x7d'

section Scalars

variable {rest : List Char}

theorem isJsonBlank_iff {c : Char} : isJsonBlank c = true ↔ c = ' ' ∨ c = '\t' ∨ c = '\n' ∨ c = '\r' := by
  simp [isJsonBlank, or_assoc]

/-- What ends a value is one of seven characters. -/
theorem Ends.forall_head {p : Char → Prop} (h : Ends rest)
    (hp : ∀ c ∈ [' ', '\t', '\n', '\r', ',', ']', '\x7d'], p c) : ∀ c ∈ rest.head?, p c := by
  intro c hc
  apply hp
  rcases h c hc with hblank | hclose
  · rcases isJsonBlank_iff.1 hblank with rfl | rfl | rfl | rfl <;> simp
  · rcases hclose with rfl | rfl | rfl <;> simp

theorem Ends.isAsciiDigit (h : Ends rest) : ∀ c ∈ rest.head?, isAsciiDigit c = false :=
  h.forall_head (forall_mem_of_all (by decide))

theorem Ends.ne_point (h : Ends rest) : ∀ c ∈ rest.head?, c ≠ '.' :=
  h.forall_head (forall_mem_of_all (by decide))

/-- What ends a number starts no exponent. -/
theorem Ends.scan (h : Ends rest) : Decimal.Power.scan Text.isAsciiDigit rest = (none, rest) := by
  have hmark : ∀ c ∈ rest.head?, ¬(c = 'e' ∨ c = 'E') := h.forall_head (forall_mem_of_all (by decide))
  cases rest with
  | nil => rfl
  | cons c rest => rw [Decimal.Power.scan, if_neg (hmark c rfl)]

/-! ## Numbers -/

/-- The data that a numeral denotes, negative or not: an integer if it has neither a point nor an exponent. -/
def numberData (negative : Bool) (n : Decimal.Numeral) : Data :=
  if n.fraction.isNone && n.power.isNone then int (if negative then -(digitsValue n.whole) else digitsValue n.whole)
  else float (if negative then -n.value else n.value)

/-- The sign in front of a number. -/
def minus (negative : Bool) : List Char :=
  if negative then ['-'] else []

/-- The limit of a reader that a numeral exceeds: an integer may have too many digits. -/
def Reader.exceeded? (r : Reader) (n : Decimal.Numeral) : Option Nat :=
  if n.fraction.isNone && n.power.isNone then r.digits.filter (· < n.whole.length) else none

/-- What a reader makes of a numeral, with the text that follows it. -/
def Reader.number (r : Reader) (negative : Bool) (n : Decimal.Numeral) (rest : List Char) :
    Except JsonFault (Data × List Char) :=
  match r.exceeded? n with
  | some limit => .error (.overload (.digits limit n.whole.length))
  | none => .ok (numberData negative n, rest)

theorem numberData_strict (negative : Bool) {n : Decimal.Numeral} (h : n.Strict) :
    numberData negative n = float (if negative then -n.value else n.value) := by
  have hbroken : (n.fraction.isNone && n.power.isNone) = false := by
    rw [Bool.and_eq_false_iff]
    exact h.broken
  rw [numberData, hbroken, if_neg Bool.false_ne_true]

/-- Digits without a zero in front are the whole part of a number. -/
theorem readWhole_digits {whole : List Char} (hdigits : ∀ c ∈ whole, Text.isAsciiDigit c = true)
    (hwhole : whole = ['0'] ∨ whole ≠ [] ∧ whole.head? ≠ some '0')
    (hrest : ∀ c ∈ rest.head?, Text.isAsciiDigit c = false) : readWhole (whole ++ rest) = some (whole, rest) := by
  rcases hwhole with rfl | ⟨hne, hhead⟩
  · rfl
  · obtain ⟨htake, hdrop⟩ := Decimal.span_digits hdigits hrest
    obtain ⟨c, cs, rfl⟩ := List.exists_cons_of_ne_nil hne
    have hzero : ∀ rest', c :: cs ++ rest = '0' :: rest' → False := fun rest' heq =>
      hhead (congrArg List.head? heq)
    rw [readWhole.eq_2 _ hzero, htake, hdrop]

theorem readFraction_of_head (h : ∀ c ∈ rest.head?, c ≠ '.') : readFraction rest = (none, rest) := by
  refine readFraction.eq_2 rest fun rest' heq => ?_
  rw [heq] at h
  exact h '.' rfl rfl

/-- The exponent part of a numeral is read, if there is one. -/
theorem scan_power {power : Option Decimal.Power} (hpower : ∀ p ∈ power, p.InOrder Text.isAsciiDigit)
    (h : Ends rest) :
    Decimal.Power.scan Text.isAsciiDigit ((power.map Decimal.Power.chars).getD [] ++ rest) = (power, rest) := by
  cases power with
  | none => exact h.scan
  | some p =>
    obtain ⟨htake, hdrop⟩ := @Decimal.span_digits Text.isAsciiDigit [] rest (by simp) h.isAsciiDigit
    rw [List.nil_append] at htake hdrop
    rw [Option.map_some, Option.getD_some,
      Decimal.Power.scan_append_chars Decimal.digitClass_isAsciiDigit (hpower p rfl), htake, hdrop, List.append_nil]

/-- An exponent part or what ends the number stands where the digits end. -/
theorem head_power {power : Option Decimal.Power} (hpower : ∀ p ∈ power, p.InOrder Text.isAsciiDigit)
    (h : Ends rest) :
    ∀ c ∈ ((power.map Decimal.Power.chars).getD [] ++ rest).head?, c ≠ '.' ∧ Text.isAsciiDigit c = false := by
  cases power with
  | none => exact fun c hc => ⟨h.ne_point c hc, h.isAsciiDigit c hc⟩
  | some p => exact Decimal.Power.head_chars Decimal.digitClass_isAsciiDigit (hpower p rfl) rest

/-- **A tidy numeral is read to its end**, or exceeds the limit of the reader. -/
theorem readNumber_numeral (r : Reader) (negative : Bool) {n : Decimal.Numeral} (hn : n.Tidy) (h : Ends rest) :
    readNumber r negative (n.chars ++ rest) = r.number negative n rest := by
  obtain ⟨whole, fraction, power⟩ := n
  obtain ⟨⟨hdigits, hfraction, hpower, -⟩, hwhole, hsome⟩ := hn
  have htail := head_power hpower h
  have hscan := scan_power hpower h
  have hparts : Decimal.Numeral.chars ⟨whole, fraction, power⟩ ++ rest =
      whole ++ ((fraction.map ('.' :: ·)).getD [] ++ ((power.map Decimal.Power.chars).getD [] ++ rest)) := by
    simp [Decimal.Numeral.chars]
  rw [hparts]
  generalize (power.map Decimal.Power.chars).getD [] ++ rest = tail at htail hscan
  cases fraction with
  | none =>
    rw [Option.map_none, Option.getD_none, List.nil_append, readNumber,
      readWhole_digits hdigits hwhole fun c hc => (htail c hc).2]
    simp only [readFraction_of_head fun c hc => (htail c hc).1, hscan, Reader.number, Reader.exceeded?, numberData]
    cases power <;> rfl
  | some ds =>
    have hpoint : ∀ c ∈ ('.' :: (ds ++ tail)).head?, Text.isAsciiDigit c = false := by
      rintro c ⟨⟩
      decide
    have hds : readFraction ('.' :: (ds ++ tail)) = (some ds, tail) := by
      obtain ⟨htake, hdrop⟩ := Decimal.span_digits (hfraction ds rfl) fun c hc => (htail c hc).2
      obtain ⟨c, cs, rfl⟩ := List.exists_cons_of_ne_nil fun hnil => hsome (congrArg some hnil)
      rw [readFraction, htake, hdrop]
    rw [Option.map_some, Option.getD_some, List.cons_append, readNumber, readWhole_digits hdigits hwhole hpoint]
    simp only [hds, hscan, Reader.number, Reader.exceeded?, numberData]
    rfl

/-! ## Numbers and words -/

section Words

variable (r : Reader) (rest : List Char)

theorem readScalar_null : readScalar r ("null".toList ++ rest) = .ok (.null, rest) := by
  rfl

theorem readScalar_bool (b : Bool) :
    readScalar r ((if b then "true" else "false").toList ++ rest) = .ok (.bool b, rest) := by
  cases b <;> rfl

theorem readScalar_infinity (negative : Bool) :
    readScalar r ((if negative then "-Infinity" else "Infinity").toList ++ rest) =
      .ok (.float (if negative then -1.0 / 0.0 else 1.0 / 0.0), rest) := by
  cases negative <;> rfl

theorem readScalar_nan : readScalar r ("NaN".toList ++ rest) = .ok (.float (0.0 / 0.0), rest) := by
  rfl

end Words

theorem ne_of_isAsciiDigit {c w : Char} (hc : Text.isAsciiDigit c = true) (hw : Text.isAsciiDigit w = false) :
    w ≠ c := by
  rintro rfl
  rw [hc] at hw
  cases hw

/-- A text that starts with another character does not start with the word. -/
theorem word_of_head {word : String} {w c : Char} {ws : List Char} (hword : word.toList = w :: ws) (hne : w ≠ c)
    (cs : List Char) (d : Data) : readWord?.word (c :: cs) word d = none := by
  rw [readWord?.word, afterWord?, hword, if_neg]
  · rfl
  · simp [hne]

/-- A text that starts with a digit is read as a number. -/
theorem readScalar_digit (r : Reader) {c : Char} (hc : Text.isAsciiDigit c = true) (cs : List Char) :
    readScalar r (c :: cs) = readNumber r false (c :: cs) := by
  have hne := fun w hw => @ne_of_isAsciiDigit c w hc hw
  have hword : readWord? (c :: cs) = none := by
    rw [readWord?, word_of_head rfl (hne 'n' (by decide)), word_of_head rfl (hne 't' (by decide)),
      word_of_head rfl (hne 'f' (by decide)), word_of_head rfl (hne 'N' (by decide)),
      word_of_head rfl (hne 'I' (by decide)), word_of_head rfl (hne '-' (by decide))]
    rfl
  rw [readScalar, hword]
  exact fun rest heq => hne '-' (by decide) (List.cons.inj heq).1.symm

/-- A text that starts with a digit after a minus is read as a number. -/
theorem readScalar_minus (r : Reader) {c : Char} (hc : Text.isAsciiDigit c = true) (cs : List Char) :
    readScalar r ('-' :: c :: cs) = readNumber r true (c :: cs) := by
  have hinfinity : readWord?.word ('-' :: c :: cs) "-Infinity" (.float (-1.0 / 0.0)) = none := by
    have hi : ('I' == c) = false := by simpa using ne_of_isAsciiDigit hc (by decide)
    rw [readWord?.word, afterWord?, if_neg]
    · rfl
    · simp [List.isPrefixOf, hi]
  have hword : readWord? ('-' :: c :: cs) = none := by
    rw [readWord?, word_of_head rfl (by decide), word_of_head rfl (by decide), word_of_head rfl (by decide),
      word_of_head rfl (by decide), word_of_head rfl (by decide), hinfinity]
    rfl
  rw [readScalar, hword]

/-- The text of a tidy numeral starts with a digit. -/
theorem exists_chars {n : Decimal.Numeral} (h : n.Tidy) :
    ∃ c cs, n.chars = c :: cs ∧ Text.isAsciiDigit c = true := by
  obtain ⟨c, cs, hcs⟩ : ∃ c cs, n.whole = c :: cs := by
    rcases h.whole with hzero | ⟨hne, -⟩
    · exact ⟨_, _, hzero⟩
    · exact List.exists_cons_of_ne_nil hne
  have hc : Text.isAsciiDigit c = true := h.inOrder.whole c (by rw [hcs]; exact List.mem_cons_self)
  have hchars : n.chars =
      c :: (cs ++ (n.fraction.map ('.' :: ·)).getD [] ++ (n.power.map Decimal.Power.chars).getD []) := by
    rw [Decimal.Numeral.chars, hcs, List.cons_append, List.cons_append]
  exact ⟨c, _, hchars, hc⟩

/-- **A number is read as a scalar**, with its sign. -/
theorem readScalar_number (r : Reader) (negative : Bool) {n : Decimal.Numeral} (hn : n.Tidy) (h : Ends rest) :
    readScalar r (minus negative ++ n.chars ++ rest) = r.number negative n rest := by
  have hnumber := readNumber_numeral r negative hn h
  obtain ⟨c, cs, hcs, hc⟩ := exists_chars hn
  rw [hcs] at hnumber ⊢
  cases negative with
  | false => exact (readScalar_digit r hc (cs ++ rest)).trans hnumber
  | true => exact (readScalar_minus r hc (cs ++ rest)).trans hnumber

end Scalars

/-! ## Texts of numbers -/

/-- The digits of a natural number are a tidy numeral. -/
theorem tidy_toDigits (m : Nat) : Decimal.Numeral.Tidy ⟨Nat.toDigits 10 m, none, none⟩ where
  inOrder := ⟨fun _ hc => Decimal.isAsciiDigit_of_mem_toDigits hc, nofun, nofun, fun h => Nat.toDigits_ne_nil h.1⟩
  whole := by
    by_cases hm : m = 0
    · exact .inl (by rw [hm]; rfl)
    · exact .inr ⟨Nat.toDigits_ne_nil, Decimal.head?_toDigits_ne_zero hm⟩
  fraction := nofun

theorem numberData_toDigits (negative : Bool) (m : Nat) :
    numberData negative ⟨Nat.toDigits 10 m, none, none⟩ = int (if negative then -m else m) := by
  simp [numberData, Decimal.digitsValue_toDigits]

/-- **The text of an integer is a tidy numeral** that denotes it, after a minus for a negative one. -/
theorem toList_json_int (i : Int) : ∃ (n : Decimal.Numeral) (negative : Bool), n.Tidy ∧
    (int i).json.toList = minus negative ++ n.chars ∧ int i = numberData negative n := by
  have hchars : ∀ m : Nat, Decimal.Numeral.chars ⟨Nat.toDigits 10 m, none, none⟩ = Nat.toDigits 10 m := fun m => by
    simp [Decimal.Numeral.chars]
  cases i with
  | ofNat m =>
    have htext : (int (Int.ofNat m)).json = toString m := rfl
    refine ⟨_, false, tidy_toDigits m, ?_, (numberData_toDigits false m).symm⟩
    rw [htext, hchars, Nat.toString_eq_ofList_toDigits, String.toList_ofList]
    rfl
  | negSucc m =>
    have htext : (int (Int.negSucc m)).json = "-" ++ toString (m + 1) := rfl
    refine ⟨_, true, tidy_toDigits (m + 1), ?_, (numberData_toDigits true (m + 1)).symm⟩
    rw [htext, hchars, Nat.toString_eq_ofList_toDigits, String.toList_append,
      @String.toList_ofList (Nat.toDigits 10 (m + 1))]
    rfl

/-- **The text of a float is a strict numeral**, after a minus for a negative one, or a word if it is not finite. -/
theorem toList_json_float (x : Float) :
    (x.isFinite = false ∧ (float x).json.toList = "NaN".toList ∧ Decimal.reread x = 0.0 / 0.0) ∨
    (∃ negative : Bool, x.isFinite = false ∧
      (float x).json.toList = (if negative then "-Infinity" else "Infinity").toList ∧
        Decimal.reread x = if negative then -1.0 / 0.0 else 1.0 / 0.0) ∨
    ∃ (n : Decimal.Numeral) (negative : Bool), x.isFinite = true ∧ n.Strict ∧
      (float x).json.toList = minus negative ++ n.chars ∧ Decimal.reread x = if negative then -n.value else n.value := by
  have htext : (float x).json = Decimal.jsonStyle.text Decimal.shortest x := rfl
  rw [htext, Decimal.Style.text, Decimal.reread, Decimal.isFinite_eq]
  by_cases hnan : x.isNaN
  · rw [if_pos hnan, if_pos hnan, hnan]
    exact .inl ⟨rfl, rfl, rfl⟩
  rw [if_neg hnan, if_neg hnan]
  by_cases hinf : x.isInf
  · rw [if_pos hinf, if_pos hinf, hinf]
    refine .inr (.inl ⟨Decimal.isNegative x, Bool.and_false _, ?_, rfl⟩)
    cases Decimal.isNegative x <;> rfl
  · rw [if_neg hinf, if_neg hinf]
    refine .inr (.inr ⟨Decimal.jsonNumeral x, Decimal.isNegative x, ?_, Decimal.strict_jsonNumeral x, ?_, rfl⟩)
    · rw [Bool.not_eq_true] at hnan hinf
      rw [hnan, hinf]
      rfl
    · rw [String.toList_append, String.toList_ofList, Decimal.jsonNumeral, Decimal.Style.chars_numeral]
      cases Decimal.isNegative x <;> rfl

end GameSheet.Data
