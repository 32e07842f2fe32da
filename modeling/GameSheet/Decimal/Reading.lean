import GameSheet.Text.Blank
import GameSheet.Text.Digit
import GameSheet.Decimal.Exact

/-!
# Reading numbers

The shape of a number literal, `12`, `12.`, `12.5`, `.5`, each with an optional exponent, and the float it
denotes: the one nearest to the decimal value, a tie to the even significand.

* `Numeral.scan` reads the longest numeral at the start of a text, over a given class of digits.
* `numericText?` reads a text that holds a signed numeral of ASCII digits and nothing else.
* `floatText?` reads the wider texts that a command line takes for a float.
-/

namespace GameSheet.Decimal

open GameSheet.Text

/-- The float nearest to `coefficient · 10 ^ exponent`. Numbers far outside the range of floats are recognised
by their size, without computing the power. -/
def ofDecimal (coefficient : Nat) (exponent : Int) : Float :=
  let leading : Int := exponent + (Nat.toDigits 10 coefficient).length
  if coefficient = 0 ∨ leading < -330 then 0.0
  else if 330 < leading then 1.0 / 0.0
  else Float.ofScientific coefficient (exponent < 0) exponent.natAbs

/-! ## Numerals -/

/-- The sign at the start of the text, if one stands there, and the rest. -/
def scanSign (cs : List Char) : Option Char × List Char :=
  match cs with
  | c :: rest => if c = '+' ∨ c = '-' then (some c, rest) else (none, cs)
  | [] => (none, cs)

theorem scanSign_append (cs : List Char) : (scanSign cs).1.toList ++ (scanSign cs).2 = cs := by
  fun_cases scanSign cs <;> simp_all

/-- The number with a sign: negated by a minus. -/
def signed (sign : Option Char) (x : Float) : Float :=
  if sign = some '-' then -x else x

/-- The exponent part of a numeral: its mark, its sign if any, and its digits. -/
structure Power where
  mark : Char
  sign : Option Char
  digits : List Char
  deriving DecidableEq, Repr

/-- A numeral by its parts. -/
structure Numeral where
  whole : List Char
  fraction : Option (List Char)
  power : Option Power
  deriving DecidableEq, Repr

namespace Power

/-- The characters of the exponent part. -/
def chars (p : Power) : List Char :=
  p.mark :: p.sign.toList ++ p.digits

/-- The exponent it denotes. -/
def value (p : Power) : Int :=
  if p.sign = some '-' then -(digitsValue p.digits) else digitsValue p.digits

/-- The exponent part at the start of the text, if a whole one stands there, and the rest. -/
def scan (digit : Char → Bool) (cs : List Char) : Option Power × List Char :=
  match cs with
  | mark :: rest =>
    if mark = 'e' ∨ mark = 'E' then
      match (scanSign rest).2.takeWhile digit with
      | [] => (none, cs)
      | digits => (some ⟨mark, (scanSign rest).1, digits⟩, (scanSign rest).2.dropWhile digit)
    else (none, cs)
  | [] => (none, cs)

theorem scan_append (digit : Char → Bool) (cs : List Char) :
    ((scan digit cs).1.map chars).getD [] ++ (scan digit cs).2 = cs := by
  unfold scan
  split
  · rename_i mark rest
    have sign := scanSign_append rest
    split
    · split
      · simp
      · simp [chars, List.takeWhile_append_dropWhile, sign]
    · simp
  · simp

end Power

namespace Numeral

/-- The characters of the numeral. -/
def chars (n : Numeral) : List Char :=
  n.whole ++ (n.fraction.map ('.' :: ·)).getD [] ++ (n.power.map Power.chars).getD []

/-- The float that the numeral denotes. -/
def value (n : Numeral) : Float :=
  let fraction := n.fraction.getD []
  ofDecimal (digitsValue (n.whole ++ fraction)) ((n.power.map Power.value).getD 0 - fraction.length)

/-- The point and the digits after it at the start of the text, if a point stands there, and the rest. -/
def scanFraction (digit : Char → Bool) : List Char → Option (List Char) × List Char
  | '.' :: rest => (some (rest.takeWhile digit), rest.dropWhile digit)
  | cs => (none, cs)

/-- The longest numeral at the start of the text, and the rest. A digit stands before or after the point. -/
def scan (digit : Char → Bool) (cs : List Char) : Option (Numeral × List Char) :=
  let whole := cs.takeWhile digit
  let (fraction, rest) := scanFraction digit (cs.dropWhile digit)
  if whole.isEmpty && (fraction.getD []).isEmpty then none
  else
    let (power, rest) := Power.scan digit rest
    some (⟨whole, fraction, power⟩, rest)

/-- The numeral that the whole text is. -/
def ofChars? (digit : Char → Bool) (cs : List Char) : Option Numeral :=
  match scan digit cs with
  | some (n, []) => some n
  | _ => none

/-! ### A numeral and the rest make up the text -/

theorem scanFraction_append (digit : Char → Bool) (cs : List Char) :
    ((scanFraction digit cs).1.map ('.' :: ·)).getD [] ++ (scanFraction digit cs).2 = cs := by
  fun_cases scanFraction digit cs <;> simp [List.takeWhile_append_dropWhile]

theorem scan_append {digit : Char → Bool} {cs rest : List Char} {n : Numeral}
    (h : scan digit cs = some (n, rest)) : cs = n.chars ++ rest := by
  unfold scan at h
  dsimp only at h
  split at h
  · simp at h
  · simp only [Option.some.injEq, Prod.mk.injEq] at h
    obtain ⟨rfl, rfl⟩ := h
    have power := Power.scan_append digit (scanFraction digit (cs.dropWhile digit)).2
    have fraction := scanFraction_append digit (cs.dropWhile digit)
    have whole := List.takeWhile_append_dropWhile (p := digit) (l := cs)
    simp only [chars, List.append_assoc]
    rw [power, fraction, whole]

theorem chars_ne_nil {digit : Char → Bool} {cs rest : List Char} {n : Numeral}
    (h : scan digit cs = some (n, rest)) : n.chars ≠ [] := by
  unfold scan at h
  dsimp only at h
  split at h
  · simp at h
  · rename_i hne
    simp only [Option.some.injEq, Prod.mk.injEq] at h
    obtain ⟨rfl, rfl⟩ := h
    intro hnil
    simp only [chars, List.append_eq_nil_iff] at hnil
    obtain ⟨⟨hw, hf⟩, _⟩ := hnil
    apply hne
    cases hs : (scanFraction digit (cs.dropWhile digit)).1 <;> simp_all

end Numeral

/-! ## Texts that hold a number -/

/-- The number that a text holds: a numeral of ASCII digits with an optional sign, between blanks. -/
def numericText? (s : String) : Option Float :=
  let (sign, cs) := scanSign (trim s.toList)
  (Numeral.ofChars? isAsciiDigit cs).map fun n => signed sign n.value

/-- Without the underscores that stand between two digits; any other underscore is kept. -/
def dropUnderscores : List Char → List Char
  | a :: '_' :: b :: rest =>
    if isDigit a && isDigit b then a :: dropUnderscores (b :: rest) else a :: '_' :: dropUnderscores (b :: rest)
  | c :: rest => c :: dropUnderscores rest
  | [] => []

/-- The float that a command line argument denotes: a signed numeral of any decimal digits, in which underscores
may stand between digits, or a name of an infinity or of NaN in any case, between blanks. -/
def floatText? (s : String) : Option Float :=
  let (sign, cs) := scanSign (trim s.toList)
  let word := lowerWord cs
  if word = "inf" || word = "infinity" then some (signed sign (1.0 / 0.0))
  else if word = "nan" then some (0.0 / 0.0)
  else (Numeral.ofChars? isDigit (dropUnderscores cs)).map fun n => signed sign n.value
where
  /-- The characters with the letters A to Z in lower case. -/
  lowerWord (cs : List Char) : String :=
    String.ofList (cs.map Char.toLower)

end GameSheet.Decimal
