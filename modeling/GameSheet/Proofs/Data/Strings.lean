import GameSheet.Data.Json
import Mathlib.Tactic.SplitIfs

/-!
# JSON strings

What stands between the quotes of a JSON string, with the characters that it denotes (`Data.Quoted`). It is read as
these characters (**`Data.Quoted.readString`**), and what is written for a text denotes it (`Data.quoted_flatMap`):
itself, an escape of its own, or the escapes of its UTF-16 units, which are four hexadecimal digits each
(`Data.hex_four`).
-/

namespace GameSheet.Data

open GameSheet.Text

/-! ## What is quoted -/

/-- A text that starts with the escape of a surrogate that comes second in a pair. -/
def StartsLow (cs : List Char) : Prop :=
  ∃ a b c d rest low, cs = '\\' :: 'u' :: a :: b :: c :: d :: rest ∧ unit? a b c d = some low ∧
    isLowSurrogate low = true

/-- What stands between the quotes of a JSON string, and the characters that it denotes. Any character other than the
quote, the backslash and the control characters denotes itself; the others are escaped, as any may be, by a letter or
by the UTF-16 units. Another character stands in for a surrogate that stands alone. -/
inductive Quoted (standIn : Nat → Char) : List Char → List Char → Prop
  | nil : Quoted standIn [] []
  | plain {c : Char} {cs s : List Char} : 0x20 ≤ c.toNat → c ≠ '"' → c ≠ '\\' → Quoted standIn cs s →
      Quoted standIn (c :: cs) (c :: s)
  | letter {c e : Char} {cs s : List Char} : readString.escape? c = some e → Quoted standIn cs s →
      Quoted standIn ('\\' :: c :: cs) (e :: s)
  | unit {a b c d : Char} {cs s : List Char} {unit : Nat} : unit? a b c d = some unit →
      (isHighSurrogate unit = true → ¬StartsLow cs) → Quoted standIn cs s →
      Quoted standIn ('\\' :: 'u' :: a :: b :: c :: d :: cs) (charOfUnit standIn unit :: s)
  | pair {a b c d e f g h : Char} {cs s : List Char} {high low : Nat} : unit? a b c d = some high →
      unit? e f g h = some low → isHighSurrogate high = true → isLowSurrogate low = true → Quoted standIn cs s →
      Quoted standIn ('\\' :: 'u' :: a :: b :: c :: d :: '\\' :: 'u' :: e :: f :: g :: h :: cs)
        (Char.ofNat (0x10000 + (high - 0xD800) * 0x400 + (low - 0xDC00)) :: s)

variable {standIn : Nat → Char}

theorem Quoted.startsLow {cs s : List Char} (h : Quoted standIn cs s) {rest : List Char}
    (hlow : StartsLow (cs ++ '"' :: rest)) : StartsLow cs := by
  obtain ⟨a, b, c, d, tail, low, heq, hunit, hsurrogate⟩ := hlow
  cases h with
  | nil => cases heq
  | plain _ _ hslash => exact absurd (List.cons.inj heq).1 hslash
  | letter hescape =>
    obtain rfl := (List.cons.inj (List.cons.inj heq).2).1
    cases hescape
  | unit =>
    cases heq
    exact ⟨_, _, _, _, _, _, rfl, hunit, hsurrogate⟩
  | pair =>
    cases heq
    exact ⟨_, _, _, _, _, _, rfl, hunit, hsurrogate⟩

/-! ## Reading -/

theorem readString_letter {c e : Char} (he : readString.escape? c = some e) (done rest : List Char) :
    readString standIn done ('\\' :: c :: rest) = readString standIn (e :: done) rest := by
  have hu : c ≠ 'u' := by
    rintro rfl
    cases he
  rw [readString.eq_5 _ _ _ _ (fun _ _ _ _ _ _ _ _ _ heq _ => hu heq) fun _ _ _ _ _ heq _ => hu heq, he]

theorem readString_plain {c : Char} (hquote : c ≠ '"') (hslash : c ≠ '\\') (h : 0x20 ≤ c.toNat)
    (done rest : List Char) :
    readString standIn done (c :: rest) = readString standIn (c :: done) rest := by
  rw [readString.eq_6 _ _ _ _ hquote (fun _ _ _ _ _ _ _ _ _ heq _ => hslash heq)
    (fun _ _ _ _ _ heq _ => hslash heq) fun _ _ heq _ => hslash heq, if_neg (by omega)]

/-- A unit that does not start a pair is read from its own escape alone. -/
theorem readString_unit {a b c d : Char} {unit : Nat} (hunit : unit? a b c d = some unit) {rest : List Char}
    (halone : isHighSurrogate unit = true → ¬StartsLow rest) (done : List Char) :
    readString standIn done ('\\' :: 'u' :: a :: b :: c :: d :: rest) =
      readString standIn (charOfUnit standIn unit :: done) rest := by
  by_cases hnext : ∃ e f g h rest', rest = '\\' :: 'u' :: e :: f :: g :: h :: rest'
  · obtain ⟨e, f, g, h, rest', rfl⟩ := hnext
    rw [readString.eq_3, hunit]
    cases hlow : unit? e f g h with
    | none => rfl
    | some low =>
      have hpair : ¬(isHighSurrogate unit && isLowSurrogate low) = true := by
        rw [Bool.and_eq_true]
        rintro ⟨hhigh, hsecond⟩
        exact halone hhigh ⟨e, f, g, h, rest', low, rfl, hlow, hsecond⟩
      dsimp only
      rw [if_neg hpair]
  · rw [readString.eq_4 _ _ _ _ _ _ _ fun e f g h rest' heq => hnext ⟨e, f, g, h, rest', heq⟩, hunit]

/-- A pair of surrogates is read as one character. -/
theorem readString_pair {a b c d e f g h : Char} {high low : Nat} (hhigh : unit? a b c d = some high)
    (hlow : unit? e f g h = some low) (hfirst : isHighSurrogate high = true) (hsecond : isLowSurrogate low = true)
    (done rest : List Char) :
    readString standIn done ('\\' :: 'u' :: a :: b :: c :: d :: '\\' :: 'u' :: e :: f :: g :: h :: rest) =
      readString standIn (Char.ofNat (0x10000 + (high - 0xD800) * 0x400 + (low - 0xDC00)) :: done) rest := by
  rw [readString.eq_3, hhigh, hlow]
  dsimp only
  rw [hfirst, hsecond, Bool.and_self, if_pos rfl]

/-- **A string is read as the characters that it denotes.** -/
theorem Quoted.readString {cs s : List Char} (h : Quoted standIn cs s) (done rest : List Char) :
    readString standIn done (cs ++ '"' :: rest) = some (String.ofList (done.reverse ++ s), rest) := by
  induction h generalizing done with
  | nil => rw [List.nil_append, Data.readString.eq_2, List.append_nil]
  | plain hcontrol hquote hslash _ ih =>
    rw [List.cons_append, readString_plain hquote hslash hcontrol, ih, List.reverse_cons, List.append_assoc,
      List.singleton_append]
  | letter hescape _ ih =>
    rw [List.cons_append, List.cons_append, readString_letter hescape, ih, List.reverse_cons, List.append_assoc,
      List.singleton_append]
  | unit hunit halone hcs ih =>
    simp only [List.cons_append]
    rw [readString_unit hunit fun hhigh hlow => halone hhigh (hcs.startsLow hlow), ih, List.reverse_cons,
      List.append_assoc, List.singleton_append]
  | pair hhigh hlow hfirst hsecond _ ih =>
    simp only [List.cons_append]
    rw [readString_pair hhigh hlow hfirst hsecond, ih, List.reverse_cons, List.append_assoc, List.singleton_append]

theorem Quoted.readText {r : Reader} {cs s : List Char} (h : Quoted r.standIn cs s) (rest : List Char) :
    readText r (cs ++ '"' :: rest) = .ok (String.ofList s, rest) := by
  rw [Data.readText, h.readString]
  rfl

/-! ## Hexadecimal digits -/

theorem hexValue?_digitChar : ∀ k < 16, hexValue? (Nat.digitChar k) = some k := by decide

theorem hex_succ {width : Nat} (hwidth : 0 < width) (n : Nat) :
    hex (width + 1) n = hex width (n / 16) ++ [Nat.digitChar (n % 16)] := by
  unfold hex
  rw [Nat.toDigits_eq_if (by omega) (n := n)]
  split
  · next hn =>
    obtain ⟨width, rfl⟩ := Nat.exists_eq_succ_of_ne_zero (Nat.ne_of_gt hwidth)
    rw [Nat.div_eq_of_lt hn, Nat.mod_eq_of_lt hn]
    simp [List.replicate_succ']
  · simp [List.append_assoc]

/-- A unit has four digits. -/
theorem hex_four {n : Nat} (h : n < 0x10000) : hex 4 n =
    [Nat.digitChar (n / 16 / 16 / 16), Nat.digitChar (n / 16 / 16 % 16), Nat.digitChar (n / 16 % 16),
      Nat.digitChar (n % 16)] := by
  have hone : hex 1 (n / 16 / 16 / 16) = [Nat.digitChar (n / 16 / 16 / 16)] := by
    rw [hex, Nat.toDigits_of_lt_base (by omega)]
    rfl
  rw [hex_succ (by omega), hex_succ (by omega), hex_succ (by omega), hone]
  rfl

theorem unit?_digits {n : Nat} (h : n < 0x10000) :
    unit? (Nat.digitChar (n / 16 / 16 / 16)) (Nat.digitChar (n / 16 / 16 % 16)) (Nat.digitChar (n / 16 % 16))
      (Nat.digitChar (n % 16)) = some n := by
  rw [unit?, hexValue?_digitChar _ (by omega), hexValue?_digitChar _ (by omega), hexValue?_digitChar _ (by omega),
    hexValue?_digitChar _ (by omega)]
  have hvalue : ((n / 16 / 16 / 16 * 16 + n / 16 / 16 % 16) * 16 + n / 16 % 16) * 16 + n % 16 = n := by omega
  exact congrArg some hvalue

/-! ## Writing -/

/-- The code point of a character is no surrogate. -/
theorem toNat_valid (c : Char) : c.toNat < 0xD800 ∨ 0xE000 ≤ c.toNat ∧ c.toNat < 0x110000 := by
  rcases c.valid with h | ⟨h, h'⟩
  · exact .inl h
  · exact .inr ⟨h, h'⟩

theorem isHighSurrogate_toNat (c : Char) : isHighSurrogate c.toNat = false := by
  have hvalid := toNat_valid c
  simp only [isHighSurrogate, Bool.and_eq_false_imp, decide_eq_true_eq, decide_eq_false_iff_not]
  omega

theorem charOfUnit_toNat (c : Char) : charOfUnit standIn c.toNat = c := by
  have hvalid := toNat_valid c
  have hlow : isLowSurrogate c.toNat = false := by
    simp only [isLowSurrogate, Bool.and_eq_false_imp, decide_eq_true_eq, decide_eq_false_iff_not]
    omega
  rw [charOfUnit, isHighSurrogate_toNat, hlow]
  exact Char.ofNat_toNat c

section Written

variable {c : Char} {cs s : List Char}

theorem quoted_unitEscape (hc : c.toNat < 0x10000) (h : Quoted standIn cs s) :
    Quoted standIn (unitEscape c.toNat ++ cs) (c :: s) := by
  have hone := Quoted.unit (unit?_digits hc) (fun hhigh => by rw [isHighSurrogate_toNat] at hhigh; cases hhigh) h
  rw [charOfUnit_toNat] at hone
  rw [unitEscape, hex_four hc]
  exact hone

/-- A character beyond the units is a pair of surrogates. -/
theorem quoted_pair (hc : 0x10000 ≤ c.toNat) (h : Quoted standIn cs s) :
    Quoted standIn (unitEscape (0xD800 + (c.toNat - 0x10000) / 0x400) ++
      (unitEscape (0xDC00 + (c.toNat - 0x10000) % 0x400) ++ cs)) (c :: s) := by
  have hvalid := toNat_valid c
  obtain ⟨high, hhigh⟩ : ∃ high, high = 0xD800 + (c.toNat - 0x10000) / 0x400 := ⟨_, rfl⟩
  obtain ⟨low, hlow⟩ : ∃ low, low = 0xDC00 + (c.toNat - 0x10000) % 0x400 := ⟨_, rfl⟩
  have hcode : 0x10000 + (high - 0xD800) * 0x400 + (low - 0xDC00) = c.toNat := by omega
  have hfirst : isHighSurrogate high = true := by
    simp only [isHighSurrogate, Bool.and_eq_true, decide_eq_true_eq]
    omega
  have hsecond : isLowSurrogate low = true := by
    simp only [isLowSurrogate, Bool.and_eq_true, decide_eq_true_eq]
    omega
  have hunit : ∀ unit, isHighSurrogate unit = true ∨ isLowSurrogate unit = true → unit < 0x10000 := fun unit hunit => by
    simp only [isHighSurrogate, isLowSurrogate, Bool.and_eq_true, decide_eq_true_eq] at hunit
    omega
  have hboth := Quoted.pair (unit?_digits (hunit high (.inl hfirst))) (unit?_digits (hunit low (.inr hsecond))) hfirst
    hsecond h
  rw [hcode, Char.ofNat_toNat] at hboth
  rw [← hhigh, ← hlow, unitEscape, unitEscape, hex_four (hunit high (.inl hfirst)), hex_four (hunit low (.inr hsecond))]
  exact hboth

/-- What is written for a character denotes it. -/
theorem quoted_jsonChar (c : Char) (h : Quoted standIn cs s) : Quoted standIn (jsonChar c ++ cs) (c :: s) := by
  unfold jsonChar
  split_ifs with hself hfeed hreturn htab hback hform hplain hunit
  · have hc : readString.escape? c = some c := by
      rcases (by simpa using hself : c = '"' ∨ c = '\\') with rfl | rfl <;> rfl
    exact .letter hc h
  · rw [hfeed]
    exact .letter rfl h
  · rw [hreturn]
    exact .letter rfl h
  · rw [htab]
    exact .letter rfl h
  · have hc : Char.ofNat 8 = c := by rw [← hback, Char.ofNat_toNat]
    rw [← hc]
    exact .letter rfl h
  · have hc : Char.ofNat 12 = c := by rw [← hform, Char.ofNat_toNat]
    rw [← hc]
    exact .letter rfl h
  · have hrange : 0x20 ≤ c.toNat ∧ c.toNat < 0x7F := by simpa using hplain
    have hne : c ≠ '"' ∧ c ≠ '\\' := by simpa using hself
    exact .plain hrange.1 hne.1 hne.2 h
  · exact quoted_unitEscape hunit h
  · rw [List.append_assoc]
    exact quoted_pair (by omega) h

end Written

/-- **What is written for a text denotes it.** -/
theorem quoted_flatMap (s : List Char) : Quoted standIn (s.flatMap jsonChar) s := by
  induction s with
  | nil => exact .nil
  | cons c s ih =>
    rw [List.flatMap_cons]
    exact quoted_jsonChar c ih

end GameSheet.Data
