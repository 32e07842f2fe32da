import GameSheet.Cell
import GameSheet.Formula.Expr

/-!
# Sheets

A sheet is a grid of ordered rows and named columns. Its type carries what the rest of the library relies on: the
names of the columns, their identifiers, and the identifiers of the rows are each distinct. `Sheet.make` checks this
and says what is repeated.

A row is found by its identifier, by the content of an `ID` column, or by the content of a `name` column, in this
order (`Sheet.findRow?`).
-/

namespace GameSheet

/-- Whether a column computes its empty cells. -/
inductive ColumnKind where
  | general
  | formula
  deriving DecidableEq, Repr

/-- A named column. The formula of a formula column applies to every row without a value of its own. -/
structure Column where
  id : String
  name : String
  kind : ColumnKind := .general
  formula : Option String := none
  deriving DecidableEq, Repr

/-- A row: its identifier and the raw data of its cells by column identifier. -/
structure Row where
  id : String
  cells : List (String × RawCell)
  deriving DecidableEq

/-- The raw data of the cell in a column; null if the row has none. -/
def Row.cell (r : Row) (columnId : String) : RawCell :=
  (r.cells.lookup columnId).getD .null

/-! ## Where the value of a cell comes from -/

/-- What a cell is computed from. -/
inductive Source where
  /-- A formula body. -/
  | formula (body : String)
  /-- The data of the cell itself. -/
  | literal (raw : RawCell)
  deriving DecidableEq

/-- The formula of a column as the source of a cell without data; without a formula the cell is empty. -/
def Column.source (c : Column) : Source :=
  match c.kind, c.formula with
  | .formula, some f => if f.isEmpty then .literal .null else .formula (Formula.stripMarker f)
  | _, _ => .literal .null

/-- The source of a cell: a formula of its own, else its own data, else the formula of its column. -/
def Row.source (r : Row) (c : Column) : Source :=
  match r.cell c.id with
  | .text s =>
    match s.toList with
    | [] => c.source
    | '=' :: body => .formula (String.ofList body)
    | _ => .literal (.text s)
  | .null => c.source
  | raw => .literal raw

/-! ## Repetitions -/

/-- What is repeated in a sheet. -/
inductive SheetFault where
  | columnNames (sheet : String) (names : List String)
  | columnIds (sheet : String)
  | rowIds (sheet : String) (ids : List String)
  deriving DecidableEq, Repr

/-- What is wrong, in words. -/
def SheetFault.message : SheetFault → String
  | columnNames sheet names =>
    "Sheet " ++ Text.quoted sheet ++ ": duplicate column names " ++ Text.quotedList names
  | columnIds sheet => "Sheet " ++ Text.quoted sheet ++ ": duplicate column ids"
  | rowIds sheet ids => "Sheet " ++ Text.quoted sheet ++ ": duplicate row ids " ++ Text.quotedList ids

/-- The texts that occur more than once, each once, in order of their characters. -/
def repeated (texts : List String) : List String :=
  ((texts.filter fun t => 1 < texts.count t).mergeSort (· ≤ ·)).eraseDups

/-! ## Sheets -/

/-- A grid of ordered rows and named columns. -/
structure Sheet where
  id : String
  name : String
  columns : List Column
  rows : List Row
  columnNames_nodup : (columns.map Column.name).Nodup
  columnIds_nodup : (columns.map Column.id).Nodup
  rowIds_nodup : (rows.map Row.id).Nodup

namespace Sheet

/-- The sheet of some columns and rows, unless a name or an identifier is repeated. -/
def make (id name : String) (columns : List Column) (rows : List Row) : Except SheetFault Sheet :=
  if names : (columns.map Column.name).Nodup then
    if ids : (columns.map Column.id).Nodup then
      if rowIds : (rows.map Row.id).Nodup then .ok ⟨id, name, columns, rows, names, ids, rowIds⟩
      else .error (.rowIds name (repeated (rows.map Row.id)))
    else .error (.columnIds name)
  else .error (.columnNames name (repeated (columns.map Column.name)))

/-- The column of a name. -/
def columnByName? (s : Sheet) (name : String) : Option Column :=
  s.columns.find? (·.name == name)

/-- The column of an identifier. -/
def columnById? (s : Sheet) (id : String) : Option Column :=
  s.columns.find? (·.id == id)

/-- The place of a row in its sheet. -/
abbrev Index (s : Sheet) := Fin s.rows.length

/-- The place of the row with an identifier. -/
def rowIndex? (s : Sheet) (id : String) : Option s.Index :=
  s.rows.findFinIdx? (·.id == id)

/-- Whether one of the columns holds data in the row that reads as the identifier. -/
def identifies (columns : List Column) (identifier : String) (row : Row) : Bool :=
  columns.any fun c =>
    match row.cell c.id with
    | .null => false
    | raw => raw.shown == identifier

/-- The place of the first row that one of the named columns identifies. -/
def rowByContent? (s : Sheet) (names : List String) (identifier : String) : Option s.Index :=
  s.rows.findFinIdx? (identifies (names.filterMap s.columnByName?) identifier)

/-- The columns that hold identifiers of rows. -/
def identifierColumns : List String := ["ID", "id"]

/-- The columns that hold names of rows. -/
def nameColumns : List String := ["name", "Name"]

/-- The place of the row that a reference picks: by position, or by the first of identifier, content of an
identifier column and content of a name column that finds one. -/
def findRow? (s : Sheet) : Formula.RowSelector → Option s.Index
  | .index n => if h : n < s.rows.length then some ⟨n, h⟩ else none
  | .named identifier =>
    s.rowIndex? identifier <|> s.rowByContent? identifierColumns identifier <|>
      s.rowByContent? nameColumns identifier

end Sheet

end GameSheet
