import GameSheet.Engine
import GameSheet.Table.Basic

/-!
# Recalculation

A pass over a sheet computes all its cells, row by row and within a row in the order of the columns. Cells that hold
data have it as their value; formula cells are evaluated one after the other, by default with one memo for the whole
pass. Each failed formula is reported, and at the end the pass itself. A pass stops early only at an integer that is
no number.

A computed sheet is seen as outcomes, as errors, as texts (`displayRows`) and as a table (`ComputedSheet.table`).
-/

namespace GameSheet

/-- What became of a cell. -/
inductive ComputedCell where
  /-- The cell holds data. -/
  | literal (v : CellValue)
  /-- The cell holds a formula. -/
  | formula (o : Outcome)
  deriving DecidableEq

namespace ComputedCell

/-- The value of the cell; a failed formula has none. -/
def value? : ComputedCell → Option CellValue
  | literal v => some v
  | formula o => o.value?

/-- The outcome of the formula of the cell, if it has one. -/
def outcome? : ComputedCell → Option Outcome
  | literal _ => none
  | formula o => some o

/-- The text of the cell in the grid. -/
def text : ComputedCell → String
  | literal v => v.display
  | formula o => o.cellText

end ComputedCell

/-- A row with what became of its cells, in the order of the columns. -/
structure ComputedRow where
  row : Row
  cells : List (Column × ComputedCell)

/-- A sheet with what became of its cells. -/
structure ComputedSheet where
  sheet : Sheet
  rows : List ComputedRow

/-! ## Views of a computed sheet -/

/-- What became of the cell in a column. -/
def ComputedRow.cell? (r : ComputedRow) (c : Column) : Option ComputedCell :=
  r.cells.lookup c

namespace ComputedSheet

/-- The outcomes of the formula cells in the order of their evaluation. -/
def outcomes (s : ComputedSheet) : List (Row × Column × Outcome) :=
  s.rows.flatMap fun r => r.cells.filterMap fun (c, cell) => cell.outcome?.map fun o => (r.row, c, o)

/-- The failures of the formula cells in the order of their evaluation. -/
def failures (s : ComputedSheet) : List (Row × Column × Failure) :=
  s.outcomes.filterMap fun (r, c, o) => o.failure?.map fun f => (r, c, f)

/-- The texts of the rows in the order of the columns. -/
def displayRows (s : ComputedSheet) : List (List String) :=
  s.rows.map fun r => r.cells.map fun (_, cell) => cell.text

/-- The cells of a column from the first row on. -/
def column (s : ComputedSheet) (c : Column) : List ComputedCell :=
  s.rows.filterMap (·.cell? c)

/-- The number of a cell for a table of numbers: none for an empty cell, and nothing at all for a text or a
failure. -/
def number? (cell : ComputedCell) : Option (Option Float) :=
  match cell.value? with
  | some (.number x) => some (some x)
  | some .empty => some none
  | _ => none

/-- The series of a column: numbers if every cell holds a number or nothing, otherwise the texts of the cells. -/
def series (cells : List ComputedCell) : Series :=
  match cells.mapM number? with
  | some xs => .floats xs
  | none => .texts (cells.map fun cell => some cell.text)

/-- The computed sheet as a table. -/
def table (s : ComputedSheet) : Table where
  fields := s.sheet.columns.map fun c => ⟨c.name, series (s.column c)⟩

/-- The report of the pass. -/
def report (s : ComputedSheet) : Event :=
  let formulas := s.outcomes.length
  let failed := s.failures.length
  { severity := .info
    topic := .sheetComputed
    message := "Computed sheet " ++ s.sheet.name ++ ": " ++ toString formulas ++ " formula cells, " ++
      toString failed ++ " errors"
    context := [
      ("sheet", .text s.sheet.name),
      ("rows", .int s.sheet.rows.length),
      ("formula_cells", .int formulas),
      ("errors", .int failed),
      ("elapsed_ms", .int 0)] }

end ComputedSheet

/-! ## The pass -/

/-- The state of a pass: the memo, if one is used, and what has been reported. -/
structure Pass where
  memo : Option Memo
  events : List Event := []

/-- A step of a pass, which an integer that is no number stops. -/
abbrev PassStep (α : Type) := ExceptT Overflow (StateM Pass) α

namespace Engine

/-- Evaluates the formula of a cell and reports its failure. -/
def computeFormula (engine : Engine) (context : Context) (body : String) : PassStep ComputedCell := fun pass =>
  let (outcome, memo) := engine.evaluateWith pass.memo (some context) body
  (.ok (.formula outcome), ⟨memo, pass.events ++ (outcome.report (some context) body).toList⟩)

/-- Computes a cell. -/
def computeCell (engine : Engine) (workbook : Workbook) (sheet : Sheet) (row : Row) (column : Column) :
    PassStep ComputedCell :=
  match row.source column with
  | .literal raw =>
    match raw.value with
    | .ok v => pure (.literal v)
    | .error e => throw e
  | .formula body => engine.computeFormula ⟨workbook, sheet.id, row.id, some column.id⟩ body

/-- Computes some cells of a row. -/
def computeCells (engine : Engine) (workbook : Workbook) (sheet : Sheet) (row : Row) :
    List Column → PassStep (List (Column × ComputedCell))
  | [] => pure []
  | c :: rest => do
    let cell ← engine.computeCell workbook sheet row c
    let cells ← engine.computeCells workbook sheet row rest
    pure ((c, cell) :: cells)

/-- Computes some rows. -/
def computeRows (engine : Engine) (workbook : Workbook) (sheet : Sheet) : List Row → PassStep (List ComputedRow)
  | [] => pure []
  | r :: rest => do
    let cells ← engine.computeCells workbook sheet r sheet.columns
    let rows ← engine.computeRows workbook sheet rest
    pure (⟨r, cells⟩ :: rows)

/-- Computes all cells of a sheet of a workbook, and says what was reported on the way. -/
def computeSheet (engine : Engine) (workbook : Workbook) (sheet : Sheet) (useMemo : Bool := true) :
    Except Overflow ComputedSheet × List Event :=
  match engine.computeRows workbook sheet sheet.rows ⟨if useMemo then some ∅ else none, []⟩ with
  | (.ok rows, pass) =>
    let computed : ComputedSheet := ⟨sheet, rows⟩
    (.ok computed, pass.events ++ [computed.report])
  | (.error e, pass) => (.error e, pass.events)

end Engine

end GameSheet
