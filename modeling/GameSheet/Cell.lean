import GameSheet.Data
import GameSheet.Decimal.Reading

/-!
# Cells

A cell holds raw data as the grid stores it (`RawCell`); a computed cell holds a number, a text or nothing
(`CellValue`). Raw numbers and booleans become numbers, an empty text becomes the empty value. A raw integer may
be too large to be a number, the one way in which a conversion fails.
-/

namespace GameSheet

/-- The value of a computed cell. -/
inductive CellValue where
  | number (x : Float)
  | text (s : String)
  | empty
  deriving DecidableEq, Inhabited

/-- The data of a cell as the grid stores it. -/
inductive RawCell where
  | null
  | bool (b : Bool)
  | int (n : Int)
  | float (x : Float)
  | text (s : String)
  deriving DecidableEq, Inhabited

/-- An integer beyond the range of floats. -/
inductive Overflow where
  | integerTooLarge
  deriving DecidableEq, Repr

namespace Overflow

/-- What went wrong, in words. -/
def message : Overflow → String
  | integerTooLarge => "int too large to convert to float"

end Overflow

/-- The float nearest to an integer. -/
def floatOfInt (n : Int) : Except Overflow Float :=
  let x := Float.ofInt n
  if x.isInf then .error .integerTooLarge else .ok x

namespace CellValue

/-- The text of a value in the grid. -/
def display : CellValue → String
  | number x => Decimal.displayText x
  | text s => s
  | empty => ""

/-- Whether the value is a text. -/
def isText : CellValue → Bool
  | text _ => true
  | _ => false

/-- Whether the value is a number. -/
def isNumber : CellValue → Bool
  | number _ => true
  | _ => false

/-- One for true and zero for false. -/
def truth (b : Bool) : CellValue :=
  number (if b then 1.0 else 0.0)

end CellValue

namespace RawCell

/-- The raw data that document data can stand for: any scalar. -/
def ofData? : Data → Option RawCell
  | .null => some null
  | .bool b => some (bool b)
  | .int n => some (int n)
  | .float x => some (float x)
  | .text s => some (text s)
  | .list _ | .mapping _ => none

/-- The raw data as document data. -/
def toData : RawCell → Data
  | null => .null
  | bool b => .bool b
  | int n => .int n
  | float x => .float x
  | text s => .text s

/-- The value of a cell with this data. -/
def value : RawCell → Except Overflow CellValue
  | null => .ok .empty
  | bool b => .ok (.truth b)
  | int n => (floatOfInt n).map .number
  | float x => .ok (.number x)
  | text s => .ok (if s.isEmpty then .empty else .text s)

/-- The text by which row identifiers are compared. -/
def shown (c : RawCell) : String :=
  c.toData.shown

/-- The text by which a setting is found: a number as it is displayed, other data as its text; nothing for a
cell that holds null. -/
def settingName : RawCell → Except Overflow (Option String)
  | null => .ok none
  | bool b => .ok (some (CellValue.truth b).display)
  | int n => (floatOfInt n).map fun x => some (Decimal.displayText x)
  | float x => .ok (some (Decimal.displayText x))
  | text s => .ok (some s)

end RawCell

end GameSheet
