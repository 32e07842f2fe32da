import GameSheet.Decimal.Exact

/-!
# Arithmetic of formulas

Inside a formula numbers follow IEEE 754: infinities and NaN are values that flow on, and nothing fails. Where a
rule of the standard library of floats differs from the one formulas use, the rule is stated at the function.
-/

namespace GameSheet.Arithmetic

open GameSheet.Decimal

/-- Not a number. -/
def nan : Float := 0.0 / 0.0

/-- The positive infinity. -/
def infinity : Float := 1.0 / 0.0

/-- The size of `x` with the sign of `y`. -/
def copySign (x y : Float) : Float :=
  if isNegative y then -x.abs else x.abs

/-- The quotient; a division by zero gives an infinity by the two signs, or NaN for zero and NaN. -/
def divide (a b : Float) : Float :=
  if b == 0.0 then
    if a == 0.0 || a.isNaN then nan else copySign infinity a * copySign 1.0 b
  else a / b

/-- The power; a zero of either sign to a negative exponent is the positive infinity. -/
def power (base exponent : Float) : Float :=
  if base == 0.0 && exponent < 0.0 then infinity else base.pow exponent

/-- The exponential. -/
def exponential (x : Float) : Float :=
  x.exp

/-- The natural logarithm; NaN below zero. -/
def logarithm (x : Float) : Float :=
  if x.isNaN || x < 0.0 then nan
  else if x == 0.0 then -infinity
  else x.log

/-- The square root; NaN below zero. -/
def squareRoot (x : Float) : Float :=
  if x.isNaN || x < 0.0 then nan else x.sqrt

/-- The first of the least numbers, or NaN if one of them is NaN. -/
def least (x : Float) (others : List Float) : Float :=
  if x.isNaN || others.any Float.isNaN then nan
  else others.foldl (fun best y => if y < best then y else best) x

/-- The first of the greatest numbers, or NaN if one of them is NaN. -/
def greatest (x : Float) (others : List Float) : Float :=
  if x.isNaN || others.any Float.isNaN then nan
  else others.foldl (fun best y => if best < y then y else best) x

/-- The smaller of two numbers. -/
def smaller (x y : Float) : Float :=
  least x [y]

/-- The larger of two numbers. -/
def larger (x y : Float) : Float :=
  greatest x [y]

/-- The greatest whole number that does not exceed `x`; a zero has no sign. -/
def floor (x : Float) : Float :=
  if x.isFinite then Float.ofInt (floorInt x) else x

/-- The least whole number that is not exceeded by `x`; a zero has no sign. -/
def ceiling (x : Float) : Float :=
  if x.isFinite then Float.ofInt (ceilInt x) else x

/-- What is left of `x` after taking away a whole multiple of `y` towards zero, with the sign of `x`. Both are
finite and `y` is not zero; the result is exact. -/
def remainder (x y : Float) : Float :=
  let a := Magnitude.ofFloat x
  let b := Magnitude.ofFloat y
  let unit := if a.exponent ≤ b.exponent then a.exponent else b.exponent
  let whole (m : Magnitude) : Nat := m.significand * Nat.pow 2 (m.exponent - unit).toNat
  copySign ((Float.ofNat (whole a % whole b)).scaleB unit) x

/-! ## Sums -/

/-- Adds `x` to a sum that is kept as parts which do not overlap, smallest first, without rounding. The second
component is what the parts above the last one have become together with `x`. -/
def addExactly (x : Float) : List Float → List Float × Float
  | [] => ([], x)
  | part :: parts =>
    let (large, small) := if x.abs < part.abs then (part, x) else (x, part)
    let high := large + small
    let low := small - (high - large)
    let (rest, top) := addExactly high parts
    (if low != 0.0 then low :: rest else rest, top)

/-- The float nearest to the sum of parts that do not overlap, given from the largest down. -/
def collapse (high : Float) : List Float → Float
  | [] => high
  | part :: below =>
    let sum := high + part
    let low := part - (sum - high)
    if low == 0.0 then collapse sum below
    else match below with
      | [] => sum
      | next :: _ =>
        -- a tie that the parts below decide
        let twice := low * 2.0
        let up := sum + twice
        if ((low < 0.0 && next < 0.0) || (low > 0.0 && next > 0.0)) && twice == up - sum then up else sum

/-- The state of an exact summation: the parts of the finite numbers, the sum of the infinities, and the sum of
all numbers that are not finite. -/
structure PartialSum where
  parts : List Float := []
  infinities : Float := 0.0
  special : Float := 0.0

/-- One more number; nothing if a sum of finite numbers leaves the range of floats. -/
def PartialSum.add (s : PartialSum) (x : Float) : Option PartialSum :=
  let (rest, top) := addExactly x s.parts
  if top == 0.0 then some { s with parts := rest }
  else if top.isFinite then some { s with parts := rest ++ [top] }
  else if x.isFinite then none
  else some ⟨[], if x.isInf then s.infinities + x else s.infinities, s.special + x⟩

/-- The result of the summation; nothing for opposite infinities. -/
def PartialSum.result (s : PartialSum) : Option Float :=
  if s.special != 0.0 then if s.infinities.isNaN then none else some s.special
  else match s.parts.reverse with
    | [] => some 0.0
    | top :: below => some (collapse top below)

/-- The float nearest to the exact sum; nothing if the sum leaves the range of floats on the way or holds
opposite infinities. -/
def exactSum? (xs : List Float) : Option Float :=
  (xs.foldlM PartialSum.add {}).bind PartialSum.result

/-- The sum: exact where it can be, otherwise added up from the left. -/
def sum (xs : List Float) : Float :=
  (exactSum? xs).getD (xs.foldl (· + ·) 0.0)

end GameSheet.Arithmetic
