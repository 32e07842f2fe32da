import GameSheet.Evaluation.Failure
import GameSheet.Options

/-!
# Resolution of references

A reference leads to a cell, and finding the cell needs no evaluation: only names, identifiers and the content of
the columns by which rows are found. `Reference.target` gives the cell or says what is missing.

A column and the row above are found from the row at which the formula is evaluated; settings and the cells of other
sheets do not depend on it.
-/

namespace GameSheet

/-- What references are resolved in. -/
structure Scope where
  workbook : Workbook
  options : Options

/-- What is there, or that it is missing. -/
def orMissing {α : Type} (m : Missing) : Option α → Except Failure α
  | some x => .ok x
  | none => .error (.reference m)

namespace Sheet

/-- The column of a name or of the place it has in a settings sheet. -/
def settingsColumn (s : Sheet) (name : Option String) (place : Nat) : Except Failure Column :=
  match name with
  | some label => orMissing (.columnIn label s.name) (s.columnByName? label)
  | none => orMissing (.settingsColumns s.name) s.columns[place]?

/-- Whether a column is called `Value` in any case of letters. -/
def isValueColumn (c : Column) : Bool :=
  Text.lowerAscii c.name == "value"

/-- The column that holds the values of a settings sheet. -/
def valueColumn (s : Sheet) (name : Option String) : Except Failure Column :=
  match name, s.columns.find? isValueColumn with
  | none, some c => .ok c
  | _, _ => s.settingsColumn name 1

/-- The place of the first of some rows whose key cell reads as the key of a setting. -/
def settingRow (s : Sheet) (keyColumn : Column) (key : String) : List s.Index → Except Failure s.Index
  | [] => .error (.reference (.setting key))
  | i :: rest =>
    match (s.rows[i].cell keyColumn.id).settingName with
    | .error e => .error (.overflow e)
    | .ok name => if name = some key then .ok i else settingRow s keyColumn key rest

end Sheet

namespace Scope

/-- The cell of a column in a row. -/
def cellOfRow (site : RowSite) (name : String) : Except Failure CellSite := do
  let column ← orMissing (.column name) (site.sheet.columnByName? name)
  .ok ⟨site, column⟩

/-- The cell of a setting. -/
def cellOfSetting (scope : Scope) (key : String) : Except Failure CellSite := do
  let sheet ← orMissing (.settingsSheet scope.options.settingsSheet)
    (scope.workbook.sheetByName? scope.options.settingsSheet)
  let keyColumn ← sheet.settingsColumn scope.options.settingsKeyColumn 0
  let valueColumn ← sheet.valueColumn scope.options.settingsValueColumn
  let index ← sheet.settingRow keyColumn key (List.finRange sheet.rows.length)
  .ok ⟨⟨sheet, index⟩, valueColumn⟩

/-- The cell of a sheet, a row and a column. -/
def cellOfSheet (scope : Scope) (sheetName : String) (selector : Formula.RowSelector) (columnName : String) :
    Except Failure CellSite := do
  let sheet ← orMissing (.sheet sheetName) (scope.workbook.sheetByName? sheetName)
  let index ← orMissing (.rowIn selector sheetName) (sheet.findRow? selector)
  let column ← orMissing (.columnIn columnName sheetName) (sheet.columnByName? columnName)
  .ok ⟨⟨sheet, index⟩, column⟩

/-- The cell that a reference leads to from a row, or from nowhere. -/
def target (scope : Scope) (site : Option RowSite) : Formula.Reference → Except Failure CellSite
  | .column name _ => do cellOfRow (← orMissing (.column name) site) name
  | .previous name _ => do cellOfRow (← orMissing .previousRow (site.bind RowSite.above?)) name
  | .setting key _ => scope.cellOfSetting key
  | .cross sheet row column _ => scope.cellOfSheet sheet row column

end Scope

end GameSheet
