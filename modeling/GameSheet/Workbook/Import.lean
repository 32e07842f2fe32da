import GameSheet.Table.Basic
import GameSheet.Workbook.Sheet

/-!
# Sheets from tables

A table becomes a sheet: each field a column, each record a row, and each value that is not missing the data of a
cell. Columns that are declared beforehand keep their identifiers and formulas, and fields without one are added as
columns of their own. Rows take their identifiers from an identifier column of the table, if it has one, and
otherwise from their places.
-/

namespace GameSheet

/-- The identifier of the column at a place, from one on, that has no other. -/
def columnIdAt (place : Nat) : String :=
  "col" ++ toString place

/-- The identifier of the row at a place, from one on, that has no other. -/
def rowIdAt (place : Nat) : String :=
  "row" ++ toString place

/-- The columns with one for each header that names none of them yet. -/
def extendColumns (columns : List Column) : List String → List Column
  | [] => columns
  | header :: rest =>
    if columns.any (·.name == header) then extendColumns columns rest
    else extendColumns (columns ++ [{ id := columnIdAt (columns.length + 1), name := header }]) rest

/-- The identifier of the column that a header names. -/
def columnIdOf (columns : List Column) (header : String) : String :=
  ((columns.find? (·.name == header)).map Column.id).getD ""

/-- The header of the field that identifies the records, if there is one. -/
def identifierHeader? (headers : List String) : Option String :=
  Sheet.identifierColumns.find? headers.contains

/-- The identifier of the record at a place, from one on. -/
def recordId (header : Option String) (place : Nat) (record : List (String × RawCell)) : String :=
  match header.bind fun h => record.lookup h with
  | none | some .null => rowIdAt place
  | some raw => raw.shown

/-- The cells of a record by column identifier; missing values are left out. -/
def recordCells (columns : List Column) : List (String × RawCell) → List (String × RawCell)
  | [] => []
  | (_, .null) :: rest => recordCells columns rest
  | (header, raw) :: rest => (columnIdOf columns header, raw) :: recordCells columns rest

/-- The row of the record at a place, from one on. -/
def recordRow (columns : List Column) (header : Option String) (place : Nat) (record : List (String × RawCell)) :
    Row where
  id := recordId header place record
  cells := recordCells columns record

/-- The sheet of a table, with some columns declared beforehand. An empty identifier stands for the name. -/
def Sheet.ofTable (id name : String) (declared : List Column) (t : Table) : Except SheetFault Sheet :=
  let columns := extendColumns declared t.headers
  let header := identifierHeader? t.headers
  Sheet.make (if id.isEmpty then name else id) name columns
    (t.records.zipIdx.map fun (record, i) => recordRow columns header (i + 1) record)

end GameSheet
