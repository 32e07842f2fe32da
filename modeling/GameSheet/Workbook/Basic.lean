import GameSheet.Workbook.Sheet

/-!
# Workbooks

A workbook is a list of sheets with distinct names and distinct identifiers. A sheet is found by its identifier or,
failing that, by its name.
-/

namespace GameSheet

/-- What is repeated in a workbook. -/
inductive WorkbookFault where
  | sheetNames (names : List String)
  | sheetIds
  deriving DecidableEq, Repr

/-- What is wrong, in words. -/
def WorkbookFault.message : WorkbookFault → String
  | sheetNames names => "Duplicate sheet names: " ++ Text.quotedList names
  | sheetIds => "Duplicate sheet ids"

/-- A list of sheets. -/
structure Workbook where
  sheets : List Sheet
  names_nodup : (sheets.map Sheet.name).Nodup
  ids_nodup : (sheets.map Sheet.id).Nodup

namespace Workbook

/-- The workbook without sheets. -/
def empty : Workbook := ⟨[], by simp, by simp⟩

/-- The workbook of some sheets, unless a name or an identifier is repeated. -/
def make (sheets : List Sheet) : Except WorkbookFault Workbook :=
  if names : (sheets.map Sheet.name).Nodup then
    if ids : (sheets.map Sheet.id).Nodup then .ok ⟨sheets, names, ids⟩
    else .error .sheetIds
  else .error (.sheetNames (repeated (sheets.map Sheet.name)))

/-- The sheet of a name. -/
def sheetByName? (w : Workbook) (name : String) : Option Sheet :=
  w.sheets.find? (·.name == name)

/-- The sheet of an identifier. -/
def sheetById? (w : Workbook) (id : String) : Option Sheet :=
  w.sheets.find? (·.id == id)

/-- The sheet of an identifier or, failing that, of a name. -/
def sheet? (w : Workbook) (key : String) : Option Sheet :=
  w.sheetById? key <|> w.sheetByName? key

end Workbook

end GameSheet
