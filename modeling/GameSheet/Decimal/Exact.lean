/-!
# The exact value of a float

A finite binary64 number is a whole significand times a power of two. Decimal texts, floors and remainders are
computed from this value, in natural and integer arithmetic, so that nothing is rounded twice.
-/

namespace GameSheet.Decimal

/-- The number `significand · 2 ^ exponent`. -/
structure Magnitude where
  significand : Nat
  exponent : Int
  deriving DecidableEq, Repr

namespace Magnitude

/-- The least significand of a normal float, two to the power 52: significands have 53 binary digits. -/
def normalBound : Nat := 4503599627370496

/-- The size of a finite float, without its sign. -/
def ofFloat (x : Float) : Magnitude :=
  let bits : Nat := x.toBits.toNat
  let fraction : Nat := bits % normalBound
  let biased : Nat := bits / normalBound % 2048
  if biased = 0 then ⟨fraction, -1074⟩ else ⟨fraction + normalBound, (biased : Int) - 1075⟩

/-- The numerator of the number as a fraction of two natural numbers. -/
def numerator (m : Magnitude) : Nat :=
  m.significand * Nat.pow 2 m.exponent.toNat

/-- The denominator of the number as a fraction of two natural numbers, a power of two. -/
def denominator (m : Magnitude) : Nat :=
  Nat.pow 2 (-m.exponent).toNat

theorem denominator_pos (m : Magnitude) : 0 < m.denominator :=
  Nat.two_pow_pos _

/-- Whether the number is whole. -/
def isWhole (m : Magnitude) : Bool :=
  m.numerator % m.denominator == 0

end Magnitude

/-- Whether the sign of the float is minus, zeros and NaN included. -/
def isNegative (x : Float) : Bool :=
  0x8000000000000000 ≤ x.toBits

/-- The numerator of a finite float with its sign, over the denominator of its size. -/
def signedNumerator (x : Float) : Int :=
  if isNegative x then -((Magnitude.ofFloat x).numerator : Int) else (Magnitude.ofFloat x).numerator

/-- The greatest whole number that a finite float reaches. -/
def floorInt (x : Float) : Int :=
  signedNumerator x / (Magnitude.ofFloat x).denominator

/-- The least whole number that a finite float does not exceed. -/
def ceilInt (x : Float) : Int :=
  -(-signedNumerator x / (Magnitude.ofFloat x).denominator)

/-- The whole number next to a finite float on the side of zero. -/
def truncInt (x : Float) : Int :=
  if isNegative x then ceilInt x else floorInt x

/-- Whether a float is finite and whole. -/
def isWhole (x : Float) : Bool :=
  x.isFinite && (Magnitude.ofFloat x).isWhole

end GameSheet.Decimal
