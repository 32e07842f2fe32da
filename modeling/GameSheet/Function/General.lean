import GameSheet.Arithmetic
import GameSheet.Function.Basic

/-!
# General functions

Mathematics, statistics, trigonometry and logic.
-/

namespace GameSheet.General

open Arithmetic Decimal

/-! ## Mathematics -/

/-- The number rounded to so many decimal places, a half away from zero. The count of places is cut to a whole
number, which fails for an infinity or NaN unless the number itself is one; so does a zero with more places than
there are powers of ten. -/
def round (x : Float) (places : Float := 0.0) : Except Fault Float :=
  if x.isNaN || x.isInf then .ok x
  else if places.isNaN then .error .nanToInteger
  else if places.isInf then .error .infinityToInteger
  else
    let factor := power 10.0 (Float.ofInt (truncInt places))
    let scaled := x.abs * factor
    if scaled.isInf then .ok x
    else if factor == 0.0 then .ok (copySign 0.0 x)
    else if scaled.isNaN then .error .nanToInteger
    else .ok (copySign (floor (scaled + 0.5) / factor) x)

/-- The logarithm to a base. -/
def logarithmTo (x : Float) (base : Float := 10.0) : Float :=
  divide (logarithm x) (logarithm base)

/-- The rest of a division, with the sign of the divisor. -/
def modulo (a b : Float) : Float :=
  if b == 0.0 then nan else a - b * floor (a / b)

/-! ## Statistics -/

/-- The mean of numbers. -/
def average (xs : List Float) : Except Fault Float :=
  if xs.isEmpty then .error .divisionByZero else .ok (sum xs / Float.ofNat xs.length)

/-! ## Trigonometry -/

/-- A periodic function; infinities lie outside its domain. -/
def periodic (f : Float → Float) : Implementation :=
  .ofNumbers fun
    | [x] => if x.isInf then .error .outsideDomain else .ok (f x)
    | _ => .error .unsuited

/-- The float nearest to the ratio of a circle to its diameter. -/
def pi : Float := 3.141592653589793

/-! ## Logic -/

/-- One for true and zero for false. -/
def truth (b : Bool) : Float :=
  if b then 1.0 else 0.0

/-! ## The functions as formulas call them -/

open Implementation

/-- Mathematical functions. -/
def mathematics : List FunctionSpec := [
  ⟨"ABS", some (unary Float.abs), 1, some 1, "math", "ABS(x)", "ABS(-5)", "Absolute value", []⟩,
  ⟨"ROUND", some (ofNumbers fun
      | [x] => round x
      | [x, places] => round x places
      | _ => .error .unsuited), 1, some 2, "math", "ROUND(x, digits?)", "ROUND(3.14159, 2)",
    "Round half away from zero", []⟩,
  ⟨"FLOOR", some (unary floor), 1, some 1, "math", "FLOOR(x)", "FLOOR(2.7)", "Round down", []⟩,
  ⟨"CEIL", some (unary ceiling), 1, some 1, "math", "CEIL(x)", "CEIL(2.1)", "Round up", []⟩,
  ⟨"SQRT", some (unary squareRoot), 1, some 1, "math", "SQRT(x)", "SQRT(16)", "Square root", []⟩,
  ⟨"POWER", some (binary power), 2, some 2, "math", "POWER(base, exponent)", "POWER(1.15, 10)",
    "Exponentiation", []⟩,
  ⟨"POW", some (binary power), 2, some 2, "math", "POW(base, exponent)", "POW(2, 8)",
    "Exponentiation (alias of POWER)", []⟩,
  ⟨"EXP", some (unary exponential), 1, some 1, "math", "EXP(x)", "EXP(1)", "e raised to x", []⟩,
  ⟨"LN", some (unary logarithm), 1, some 1, "math", "LN(x)", "LN(10)", "Natural logarithm", []⟩,
  ⟨"LOG", some (total fun
      | [x] => some (logarithmTo x)
      | [x, base] => some (logarithmTo x base)
      | _ => none), 1, some 2, "math", "LOG(x, base?)", "LOG(1000)", "Logarithm (base 10 by default)", []⟩,
  ⟨"MOD", some (binary modulo), 2, some 2, "math", "MOD(a, b)", "MOD(10, 3)", "Remainder", []⟩]

/-- Statistical functions. -/
def statistics : List FunctionSpec := [
  ⟨"SUM", some (total fun xs => some (sum xs)), 1, none, "stat", "SUM(a, b, ...)", "SUM(1, 2, 3)", "Sum", []⟩,
  ⟨"AVERAGE", some (ofNumbers average), 1, none, "stat", "AVERAGE(a, b, ...)", "AVERAGE(1, 2, 3)",
    "Arithmetic mean", []⟩,
  ⟨"MIN", some (ofNumbers fun
      | x :: others => .ok (least x others)
      | [] => .error .noLeast), 1, none, "stat", "MIN(a, b, ...)", "MIN(3, 1, 2)", "Smallest value", []⟩,
  ⟨"MAX", some (ofNumbers fun
      | x :: others => .ok (greatest x others)
      | [] => .error .noGreatest), 1, none, "stat", "MAX(a, b, ...)", "MAX(3, 1, 2)", "Largest value", []⟩]

/-- Trigonometric functions. -/
def trigonometry : List FunctionSpec := [
  ⟨"SIN", some (periodic Float.sin), 1, some 1, "trig", "SIN(radians)", "SIN(PI()/2)", "Sine", []⟩,
  ⟨"COS", some (periodic Float.cos), 1, some 1, "trig", "COS(radians)", "COS(0)", "Cosine", []⟩,
  ⟨"TAN", some (periodic Float.tan), 1, some 1, "trig", "TAN(radians)", "TAN(PI()/4)", "Tangent", []⟩,
  ⟨"PI", some (total fun
      | [] => some pi
      | _ => none), 0, some 0, "trig", "PI()", "PI()", "The constant pi", []⟩]

/-- Logical functions; the conditional and the recovery from errors are special forms of the evaluator. -/
def logic : List FunctionSpec := [
  ⟨"IF", none, 2, some 3, "logic", "IF(condition, then, else?)", "IF(Level>10, 2, 1)",
    "Choose a value by condition (else defaults to 0)", [1, 2]⟩,
  ⟨"IFERROR", none, 2, some 2, "logic", "IFERROR(value, fallback)", "IFERROR(ATK/DEF, 0)",
    "Fallback value when the first argument fails", [0, 1]⟩,
  ⟨"AND", some (total fun xs => some (truth (xs.all (· != 0.0)))), 1, none, "logic", "AND(a, b, ...)",
    "AND(1, 0)", "1 if all are non-zero", []⟩,
  ⟨"OR", some (total fun xs => some (truth (xs.any (· != 0.0)))), 1, none, "logic", "OR(a, b, ...)",
    "OR(1, 0)", "1 if any is non-zero", []⟩,
  ⟨"NOT", some (unary fun x => truth (x == 0.0)), 1, some 1, "logic", "NOT(a)", "NOT(0)",
    "Logical negation", []⟩]

/-- All general functions. -/
def functions : List FunctionSpec :=
  mathematics ++ statistics ++ trigonometry ++ logic

end GameSheet.General
