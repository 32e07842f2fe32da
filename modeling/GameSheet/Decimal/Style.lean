import GameSheet.Decimal.Digits

/-!
# Styles of number text

How chosen decimal digits are laid out: positionally or with an exponent. A style is a record of the decisions,
and each output of the library has its own.
-/

namespace GameSheet.Decimal

/-- The decisions of a way to write floats. -/
structure Style where
  /-- The least exponent of the first digit that is written positionally. -/
  positionalFrom : Int
  /-- The least exponent of the first digit above these that is written with an exponent again. -/
  exponentFrom : Int
  /-- Whether a whole number is written with `.0`. -/
  keepsPoint : Bool
  /-- Whether an exponent that is not negative is written with a plus sign. -/
  plusExponent : Bool
  /-- The least count of digits of an exponent. -/
  exponentDigits : Nat
  /-- The text of NaN. -/
  nan : String
  /-- The text of the positive infinity. -/
  infinity : String

namespace Style

/-- Digits from the first place on, the first of them standing for a multiple of `10 ^ exponent`. -/
def positional (style : Style) (digits : List Char) (exponent : Int) : List Char :=
  if exponent < 0 then '0' :: '.' :: List.replicate (-exponent - 1).toNat '0' ++ digits
  else
    let wholeCount := exponent.toNat + 1
    let whole := digits.take wholeCount ++ List.replicate (wholeCount - digits.length) '0'
    match digits.drop wholeCount with
    | [] => if style.keepsPoint then whole ++ ['.', '0'] else whole
    | fraction => whole ++ '.' :: fraction

/-- One digit, the others after a point, and the exponent. -/
def exponential (style : Style) (digits : List Char) (exponent : Int) : List Char :=
  let mantissa := match digits with
    | first :: second :: others => first :: '.' :: second :: others
    | few => few
  let sign := if exponent < 0 then ['-'] else if style.plusExponent then ['+'] else []
  let power := Nat.toDigits 10 exponent.natAbs
  mantissa ++ 'e' :: sign ++ List.replicate (style.exponentDigits - power.length) '0' ++ power

/-- The text of chosen digits. -/
def write (style : Style) (s : Scientific) : List Char :=
  let digits := Nat.toDigits 10 s.coefficient
  let exponent := s.exponent + (digits.length - 1 : Nat)
  if style.positionalFrom ≤ exponent ∧ exponent < style.exponentFrom then style.positional digits exponent
  else style.exponential digits exponent

/-- The text of a float whose size has the digits that `choose` picks. -/
def text (style : Style) (choose : Magnitude → Scientific) (x : Float) : String :=
  if x.isNaN then style.nan
  else
    let sign := if isNegative x then "-" else ""
    sign ++ if x.isInf then style.infinity else String.ofList (style.write (choose (Magnitude.ofFloat x)))

end Style

/-! ## The styles in use -/

/-- Exact texts: the fewest digits that read back, positional from `0.0001` up to `10 ^ 16`. -/
def exactStyle : Style := ⟨-4, 16, true, true, 2, "nan", "inf"⟩

/-- Numbers of a JSON text. -/
def jsonStyle : Style := ⟨-4, 16, true, true, 2, "NaN", "Infinity"⟩

/-- Numbers of a table of comma-separated values. -/
def tableStyle : Style := ⟨-5, 16, true, false, 1, "NaN", "inf"⟩

/-- Numbers on display: at most ten significant digits, positional from `0.0001` up to `10 ^ 10`. -/
def displayStyle : Style := ⟨-4, 10, false, true, 2, "NaN", "Infinity"⟩

/-- A float by the fewest digits that read back. -/
def exactText (x : Float) : String :=
  exactStyle.text shortest x

/-- A float in a JSON text. -/
def jsonText (x : Float) : String :=
  jsonStyle.text shortest x

/-- A float in a table of comma-separated values. -/
def tableText (x : Float) : String :=
  tableStyle.text shortest x

/-- A float on display: a whole number below `10 ^ 15` in full and without the sign of a zero, any other number
rounded to ten significant digits. -/
def displayText (x : Float) : String :=
  if isWhole x && x.abs < 1e15 then toString (truncInt x)
  else displayStyle.text (fun m => rounded 10 m.numerator m.denominator) x

end GameSheet.Decimal
