import Mathlib.Data.List.TakeWhile
import GameSheet.Decimal.Reading

/-!
# Numerals are read back

A numeral that was scanned is in order (`Numeral.inOrder_of_scan`), and a numeral in order is what its characters are
read as (`Numeral.ofChars?_chars`). In front of other text it is found as well, unless it goes on into that text and a
longer one is found (`Numeral.scan_append_chars`). So a text is read as a numeral exactly if it consists of the
characters of one in order (`Numeral.ofChars?_eq_some_iff`).
-/

namespace GameSheet.Decimal

variable {digit : Char → Bool}

/-- The class holds none of the other characters of a numeral. -/
structure DigitClass (digit : Char → Bool) : Prop where
  point : digit '.' = false
  marks : ∀ c, c = 'e' ∨ c = 'E' → digit c = false
  signs : ∀ c, c = '+' ∨ c = '-' → digit c = false

/-- The exponent part is one that a scan may find. -/
structure Power.InOrder (digit : Char → Bool) (p : Power) : Prop where
  mark : p.mark = 'e' ∨ p.mark = 'E'
  sign : ∀ c ∈ p.sign, c = '+' ∨ c = '-'
  digits : ∀ c ∈ p.digits, digit c = true
  digits_ne_nil : p.digits ≠ []

/-- The numeral is one that a scan may find. -/
structure Numeral.InOrder (digit : Char → Bool) (n : Numeral) : Prop where
  whole : ∀ c ∈ n.whole, digit c = true
  fraction : ∀ ds ∈ n.fraction, ∀ c ∈ ds, digit c = true
  power : ∀ p ∈ n.power, p.InOrder digit
  some_digit : ¬ (n.whole = [] ∧ n.fraction.getD [] = [])

/-! ## What a scan finds is in order -/

theorem scanSign_in_order (cs : List Char) : ∀ c ∈ (scanSign cs).1, c = '+' ∨ c = '-' := by
  intro c hc
  unfold scanSign at hc
  split at hc
  · split at hc
    · rename_i h
      cases hc
      exact h
    · cases hc
  · cases hc

theorem Power.inOrder_of_scan {cs : List Char} : ∀ p ∈ (Power.scan digit cs).1, p.InOrder digit := by
  intro p hp
  unfold Power.scan at hp
  split at hp
  · rename_i mark rest
    split at hp
    · rename_i hmark
      split at hp
      · cases hp
      · rename_i hne
        cases hp
        exact ⟨hmark, scanSign_in_order rest, fun c hc => List.mem_takeWhile_imp hc, hne⟩
    · cases hp
  · cases hp

theorem Numeral.fraction_of_scan {cs : List Char} :
    ∀ ds ∈ (Numeral.scanFraction digit cs).1, ∀ c ∈ ds, digit c = true := by
  intro ds hds c hc
  unfold Numeral.scanFraction at hds
  split at hds
  · cases hds
    exact List.mem_takeWhile_imp hc
  · cases hds

theorem Numeral.inOrder_of_scan {cs rest : List Char} {n : Numeral} (h : Numeral.scan digit cs = some (n, rest)) :
    n.InOrder digit := by
  unfold Numeral.scan at h
  dsimp only at h
  split at h
  · cases h
  · rename_i hne
    simp only [Option.some.injEq, Prod.mk.injEq] at h
    obtain ⟨rfl, rfl⟩ := h
    refine ⟨fun c hc => List.mem_takeWhile_imp hc, Numeral.fraction_of_scan, Power.inOrder_of_scan, ?_⟩
    simpa using hne

/-! ## The characters of a numeral -/

theorem Power.mem_chars {p : Power} (hp : p.InOrder digit) {c : Char} (hc : c ∈ p.chars) :
    digit c = true ∨ c ∈ ['.', 'e', 'E', '+', '-'] := by
  rw [Power.chars, List.cons_append, List.mem_cons, List.mem_append] at hc
  rcases hc with rfl | hc | hc
  · rcases hp.mark with hmark | hmark <;> simp [hmark]
  · rcases hp.sign c (Option.mem_toList.1 hc) with rfl | rfl <;> simp
  · exact .inl (hp.digits c hc)

/-- A numeral has no other characters than digits, a point, a mark and a sign. -/
theorem Numeral.mem_chars {n : Numeral} (hn : n.InOrder digit) {c : Char} (hc : c ∈ n.chars) :
    digit c = true ∨ c ∈ ['.', 'e', 'E', '+', '-'] := by
  rw [Numeral.chars, List.mem_append, List.mem_append] at hc
  rcases hc with (hc | hc) | hc
  · exact .inl (hn.whole c hc)
  · cases hf : n.fraction with
    | none => simp [hf] at hc
    | some ds =>
      rw [hf] at hc
      rcases List.mem_cons.1 hc with rfl | hc
      · simp
      · exact .inl (hn.fraction ds hf c hc)
  · cases hp : n.power with
    | none => simp [hp] at hc
    | some p =>
      rw [hp] at hc
      exact Power.mem_chars (hn.power p hp) hc

/-- A numeral starts with a digit or a point. -/
theorem Numeral.head_chars {n : Numeral} (hn : n.InOrder digit) (d : List Char) :
    ∀ c ∈ (n.chars ++ d).head?, digit c = true ∨ c = '.' := by
  intro c hc
  obtain ⟨whole, fraction, power⟩ := n
  cases whole with
  | cons x whole =>
    cases hc
    exact .inl (hn.whole c List.mem_cons_self)
  | nil =>
    cases fraction with
    | none => exact absurd ⟨rfl, rfl⟩ hn.some_digit
    | some ds =>
      cases hc
      exact .inr rfl

/-- A numeral of one class of digits is one of another class to which its digits belong. -/
theorem Numeral.InOrder.of_chars {digit' : Char → Bool} {n : Numeral} (hn : n.InOrder digit)
    (h : ∀ c ∈ n.chars, digit c = true → digit' c = true) : n.InOrder digit' := by
  refine ⟨fun c hc => h c ?_ (hn.whole c hc), fun ds hds c hc => h c ?_ (hn.fraction ds hds c hc), fun p hp => ?_,
    hn.some_digit⟩
  · simp [Numeral.chars, hc]
  · simp [Numeral.chars, Option.mem_def.1 hds, hc]
  · have hpower := hn.power p hp
    refine ⟨hpower.mark, hpower.sign, fun c hc => h c ?_ (hpower.digits c hc), hpower.digits_ne_nil⟩
    simp [Numeral.chars, Option.mem_def.1 hp, Power.chars, hc]

/-! ## Reading back -/

/-- Digits are cut off where another character or the end follows. -/
theorem span_digits {ds rest : List Char} (hds : ∀ c ∈ ds, digit c = true) (hr : ∀ c ∈ rest.head?, digit c = false) :
    (ds ++ rest).takeWhile digit = ds ∧ (ds ++ rest).dropWhile digit = rest := by
  rw [List.takeWhile_append_of_pos hds, List.dropWhile_append_of_pos hds]
  cases rest with
  | nil => simp
  | cons c rest =>
    have hc := hr c rfl
    simp [hc]

theorem scanSign_append_toList {sign : Option Char} {ds : List Char} (hs : ∀ c ∈ sign, c = '+' ∨ c = '-')
    (hds : ∀ c ∈ ds.head?, ¬ (c = '+' ∨ c = '-')) : scanSign (sign.toList ++ ds) = (sign, ds) := by
  cases sign with
  | some c => simp only [Option.toList_some, List.singleton_append, scanSign, if_pos (hs c rfl)]
  | none =>
    cases ds with
    | nil => rfl
    | cons d ds => simp only [Option.toList_none, List.nil_append, scanSign, if_neg (hds d rfl)]

/-- The fraction ends where the exponent part starts. -/
theorem Numeral.scanFraction_chars {fraction : Option (List Char)} {rest : List Char}
    (hf : ∀ ds ∈ fraction, ∀ c ∈ ds, digit c = true) (hr : ∀ c ∈ rest.head?, c ≠ '.' ∧ digit c = false) :
    Numeral.scanFraction digit ((fraction.map ('.' :: ·)).getD [] ++ rest) = (fraction, rest) := by
  cases fraction with
  | some ds =>
    have hspan := span_digits (hf ds rfl) fun c hc => (hr c hc).2
    simp only [Option.map_some, Option.getD_some, List.cons_append, Numeral.scanFraction, hspan.1, hspan.2]
  | none =>
    cases rest with
    | nil => rfl
    | cons c rest =>
      have hc := (hr c rfl).1
      unfold Numeral.scanFraction
      split
      · rename_i heq
        exact absurd (List.cons.inj heq).1 hc
      · rfl

section ReadBack

variable (hd : DigitClass digit)

include hd

/-- An exponent part takes the digits behind it along. -/
theorem Power.scan_append_chars {p : Power} (hp : p.InOrder digit) (d : List Char) :
    Power.scan digit (p.chars ++ d) =
      (some { p with digits := p.digits ++ d.takeWhile digit }, d.dropWhile digit) := by
  obtain ⟨mark, sign, digits⟩ := p
  obtain ⟨c, ds, rfl⟩ : ∃ c ds, digits = c :: ds := List.exists_cons_of_ne_nil hp.digits_ne_nil
  have hsign : scanSign (sign.toList ++ (c :: ds ++ d)) = (sign, c :: ds ++ d) := by
    refine scanSign_append_toList hp.sign fun x hx hxs => ?_
    cases hx
    have hc := hp.digits c List.mem_cons_self
    rw [hd.signs c hxs] at hc
    cases hc
  have htake : (c :: ds ++ d).takeWhile digit = c :: ds ++ d.takeWhile digit :=
    List.takeWhile_append_of_pos hp.digits
  have hdrop : (c :: ds ++ d).dropWhile digit = d.dropWhile digit := List.dropWhile_append_of_pos hp.digits
  simp only [Power.chars, List.cons_append, List.append_assoc, Power.scan, if_pos hp.mark] at hsign htake hdrop ⊢
  simp only [hsign, htake, hdrop]

/-- The exponent part starts with its mark. -/
theorem Power.head_chars {p : Power} (hp : p.InOrder digit) (d : List Char) :
    ∀ c ∈ (p.chars ++ d).head?, c ≠ '.' ∧ digit c = false := by
  rintro c ⟨⟩
  refine ⟨?_, hd.marks p.mark hp.mark⟩
  rcases hp.mark with h | h <;> rw [h] <;> decide

omit hd in
/-- What a scan finds, by its parts. -/
theorem Numeral.scan_of_parts {cs whole middle after rest : List Char} {fraction : Option (List Char)}
    {power : Option Power} (hwhole : cs.takeWhile digit = whole) (hmiddle : cs.dropWhile digit = middle)
    (hfraction : Numeral.scanFraction digit middle = (fraction, after))
    (hpower : Power.scan digit after = (power, rest)) (hdigit : ¬(whole = [] ∧ fraction.getD [] = [])) :
    Numeral.scan digit cs = some (⟨whole, fraction, power⟩, rest) := by
  have hsome : (whole.isEmpty && (fraction.getD []).isEmpty) = false := by simpa using hdigit
  simp only [Numeral.scan, hwhole, hmiddle, hfraction, hpower, hsome, Bool.false_eq_true, if_false]

/-- Whole and fraction are found in front of what is neither a digit nor a point. -/
theorem Numeral.scan_of_power {n : Numeral} {tail rest : List Char} {power : Option Power} (hn : n.InOrder digit)
    (htail : ∀ c ∈ tail.head?, c ≠ '.' ∧ digit c = false) (hpower : Power.scan digit tail = (power, rest)) :
    Numeral.scan digit (n.whole ++ ((n.fraction.map ('.' :: ·)).getD [] ++ tail)) =
      some ({ n with power := power }, rest) := by
  have hrest : ∀ c ∈ ((n.fraction.map ('.' :: ·)).getD [] ++ tail).head?, digit c = false := by
    intro c hc
    cases hf : n.fraction with
    | some ds =>
      rw [hf] at hc
      cases hc
      exact hd.point
    | none =>
      rw [hf] at hc
      exact (htail c hc).2
  have hspan := span_digits hn.whole hrest
  exact Numeral.scan_of_parts hspan.1 hspan.2 (Numeral.scanFraction_chars hn.fraction htail) hpower hn.some_digit

/-- A numeral is found where its characters are the whole text. -/
theorem Numeral.scan_chars {n : Numeral} (hn : n.InOrder digit) : Numeral.scan digit n.chars = some (n, []) := by
  obtain ⟨whole, fraction, power⟩ := n
  cases power with
  | none =>
    have hend : ∀ c ∈ ([] : List Char).head?, c ≠ '.' ∧ digit c = false := fun c hc => (by cases hc)
    have hscan := Numeral.scan_of_power hd hn hend rfl
    rwa [← List.append_assoc] at hscan
  | some p =>
    have hpower := Power.scan_append_chars hd (hn.power p rfl) []
    have hscan := Numeral.scan_of_power hd hn (Power.head_chars hd (hn.power p rfl) []) hpower
    simpa [Numeral.chars] using hscan

/-- **A numeral is read back from its characters.** -/
theorem Numeral.ofChars?_chars {n : Numeral} (hn : n.InOrder digit) : Numeral.ofChars? digit n.chars = some n := by
  rw [Numeral.ofChars?, Numeral.scan_chars hd hn]

theorem Numeral.ofChars?_eq_some_iff {n : Numeral} {cs : List Char} :
    Numeral.ofChars? digit cs = some n ↔ n.InOrder digit ∧ n.chars = cs := by
  constructor
  · intro h
    unfold Numeral.ofChars? at h
    split at h
    · next hscan =>
      obtain rfl := Option.some.inj h
      refine ⟨Numeral.inOrder_of_scan hscan, ?_⟩
      simpa using (Numeral.scan_append hscan).symm
    · cases h
  · rintro ⟨hn, rfl⟩
    exact Numeral.ofChars?_chars hd hn

/-- A numeral in front of other text is found, or a longer one. -/
theorem Numeral.scan_append_chars {n : Numeral} (hn : n.InOrder digit) (d : List Char) :
    ∃ n' rest, Numeral.scan digit (n.chars ++ d) = some (n', rest) ∧ n.chars.length ≤ n'.chars.length := by
  obtain ⟨whole, fraction, power⟩ := n
  cases power with
  | some p =>
    have hpower := Power.scan_append_chars hd (hn.power p rfl) d
    have hscan := Numeral.scan_of_power hd hn (Power.head_chars hd (hn.power p rfl) d) hpower
    refine ⟨⟨whole, fraction, some { p with digits := p.digits ++ d.takeWhile digit }⟩, d.dropWhile digit, ?_, ?_⟩
    · rw [← hscan]
      simp [Numeral.chars]
    · simp [Numeral.chars, Power.chars]
  | none =>
    cases fraction with
    | some ds =>
      have hpoint : ∀ c ∈ ('.' :: (ds ++ d)).head?, digit c = false := by
        rintro c ⟨⟩
        exact hd.point
      have hspan := span_digits hn.whole hpoint
      have hds : (ds ++ d).takeWhile digit = ds ++ d.takeWhile digit :=
        List.takeWhile_append_of_pos (hn.fraction ds rfl)
      have hfraction : Numeral.scanFraction digit ('.' :: (ds ++ d)) =
          (some (ds ++ d.takeWhile digit), (ds ++ d).dropWhile digit) := by rw [Numeral.scanFraction, hds]
      rcases hpower : Power.scan digit ((ds ++ d).dropWhile digit) with ⟨power, rest⟩
      have hscan := Numeral.scan_of_parts hspan.1 hspan.2 hfraction hpower fun hempty =>
        hn.some_digit ⟨hempty.1, (List.append_eq_nil_iff.1 hempty.2).1⟩
      refine ⟨⟨whole, some (ds ++ d.takeWhile digit), power⟩, rest, ?_, ?_⟩
      · rw [← hscan]
        simp [Numeral.chars]
      · simp [Numeral.chars]
    | none =>
      have hwhole : (whole ++ d).takeWhile digit = whole ++ d.takeWhile digit :=
        List.takeWhile_append_of_pos hn.whole
      rcases hfraction : Numeral.scanFraction digit ((whole ++ d).dropWhile digit) with ⟨fraction, after⟩
      rcases hpower : Power.scan digit after with ⟨power, rest⟩
      have hscan := Numeral.scan_of_parts hwhole rfl hfraction hpower fun hempty =>
        hn.some_digit ⟨(List.append_eq_nil_iff.1 hempty.1).1, rfl⟩
      refine ⟨⟨whole ++ d.takeWhile digit, fraction, power⟩, rest, ?_, ?_⟩
      · rw [← hscan]
        simp [Numeral.chars]
      · simp [Numeral.chars]

end ReadBack

theorem digitClass_isAsciiDigit : DigitClass Text.isAsciiDigit where
  point := by decide
  marks := by
    rintro c (rfl | rfl) <;> decide
  signs := by
    rintro c (rfl | rfl) <;> decide

/-- The digits of all scripts. -/
theorem digitClass_isDigit : DigitClass Text.isDigit where
  point := by decide
  marks := by
    rintro c (rfl | rfl) <;> decide
  signs := by
    rintro c (rfl | rfl) <;> decide

end GameSheet.Decimal
