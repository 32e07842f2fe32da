import GameSheet.Function.Balance
import GameSheet.Table.Basic

/-!
# Growth tables

How a value grows with the level on a curve, as a table over the first levels, to be charted or written to a file.
-/

namespace GameSheet.Table

open GameSheet.Balance

/-- The field of the levels from one on. -/
def levelField (levels : Nat) : Field :=
  ⟨"level", .ints ((List.range levels).map fun i => some (Int.ofNat (i + 1)))⟩

/-- The field of the values that a curve takes at the levels from one on. -/
def valueField (header : String) (levels : Nat) (value : Float → Float) : Field :=
  ⟨header, .floats ((List.range levels).map fun i => some (value (Float.ofNat (i + 1))))⟩

/-- The values on one curve. -/
def growth (base rate : Float) (curve : Curve) (levels : Nat) (ceiling : Float := 100.0) (middle : Float := 50.0) :
    Table where
  fields := [levelField levels, valueField "value" levels fun level => scale base level rate curve ceiling middle]

/-- The values on the four standard curves side by side. The logarithmic curve takes ten times the rate and the
quadratic one a tenth of it, so that the values are of comparable size. -/
def comparison (base rate : Float) (levels : Nat) : Table where
  fields := [
    levelField levels,
    valueField "linear" levels fun level => scale base level rate .linear,
    valueField "exponential" levels fun level => scale base level rate .exponential,
    valueField "logarithmic" levels fun level => scale base level (rate * 10.0) .logarithmic,
    valueField "quadratic" levels fun level => scale base level (rate / 10.0) .quadratic]

end GameSheet.Table
