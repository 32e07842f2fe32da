import GameSheet.Decimal.Exact

/-!
# Decimal digits of a number

Two ways to choose the decimal digits that stand for a positive number: a fixed count of them, rounded to
nearest with ties to even (`rounded`), and the fewest that are read back as the same float (`shortest`).

Every number in this file is a fraction `num / den` of natural numbers with `den` positive.
-/

namespace GameSheet.Decimal

/-- The number `coefficient · 10 ^ exponent`. -/
structure Scientific where
  coefficient : Nat
  exponent : Int
  deriving DecidableEq, Repr

/-- The count of decimal digits of a number; one for zero. -/
def digitCount (n : Nat) : Nat :=
  (Nat.toDigits 10 n).length

/-- The quotient rounded to nearest, a tie to the even neighbour. -/
def roundDiv (num den : Nat) : Nat :=
  let q := num / den
  let twice := 2 * (num % den)
  if den < twice || (twice == den && q % 2 == 1) then q + 1 else q

/-- The greatest `e` with `10 ^ e ≤ num / den`, for a positive numerator. -/
def leadingExponent (num den : Nat) : Int :=
  if den ≤ num then digitCount (num / den) - 1 else -(digitCount ((den + num - 1) / num - 1) : Int)

/-- The fraction times `10 ^ e`, as a fraction. -/
def scaled (num den : Nat) (e : Int) : Nat × Nat :=
  (num * Nat.pow 10 e.toNat, den * Nat.pow 10 (-e).toNat)

/-- Without the zeros at the end of the coefficient. -/
def Scientific.normalize (s : Scientific) : Scientific :=
  let digits := (Nat.toDigits 10 s.coefficient).reverse
  let zeros := (digits.takeWhile (· == '0')).length
  if s.coefficient = 0 then ⟨0, 0⟩ else ⟨s.coefficient / Nat.pow 10 zeros, s.exponent + zeros⟩

/-- The number rounded to `count` significant digits. -/
def rounded (count : Nat) (num den : Nat) : Scientific :=
  if num = 0 then ⟨0, 0⟩
  else
    let last := leadingExponent num den - (count - 1 : Nat)
    let (n, d) := scaled num den (-last)
    Scientific.normalize ⟨roundDiv n d, last⟩

/-! ## The fewest digits that read back -/

/-- Whether `coefficient · 10 ^ exponent` lies among the reals that are rounded to the float `m`: between the
middles to its two neighbours, which belong to it exactly if the significand is even. Quarter units of the last
binary place make both middles whole. -/
def Magnitude.roundsTo (m : Magnitude) (coefficient : Nat) (exponent : Int) : Bool :=
  let below := if m.significand = normalBound ∧ -1074 < m.exponent then 1 else 2
  let low := 4 * m.significand - below
  let high := 4 * m.significand + 2
  -- `coefficient · 10 ^ exponent` against `bound · 2 ^ (m.exponent - 2)`, both sides made whole
  let value := coefficient * Nat.pow 10 exponent.toNat * Nat.pow 2 (2 - m.exponent).toNat
  let unit := Nat.pow 10 (-exponent).toNat * Nat.pow 2 (m.exponent - 2).toNat
  if m.significand % 2 = 0 then low * unit ≤ value && value ≤ high * unit
  else low * unit < value && value < high * unit

/-- The neighbour of the number on the grid of multiples of `10 ^ exponent` that is read back as `m`: the nearer
one if both are. -/
def Magnitude.onGrid? (m : Magnitude) (exponent : Int) : Option Scientific :=
  let (n, d) := scaled m.numerator m.denominator (-exponent)
  let nearest := roundDiv n d
  let other := if nearest = n / d then n / d + 1 else n / d
  if m.roundsTo nearest exponent then some ⟨nearest, exponent⟩
  else if m.roundsTo other exponent then some ⟨other, exponent⟩
  else none

/-- The first of the grids of 1, 2, … 17 digits on which a neighbour of the number is read back as `m`. -/
def shortest (m : Magnitude) : Scientific :=
  if m.significand = 0 then ⟨0, 0⟩
  else
    let leading := leadingExponent m.numerator m.denominator
    (((List.range 17).findSome? fun more : Nat => m.onGrid? (leading - more)).getD ⟨0, 0⟩).normalize

end GameSheet.Decimal
