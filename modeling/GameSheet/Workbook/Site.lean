import GameSheet.Workbook.Basic

/-!
# Sites

A site is a place in a workbook: a row of a sheet (`RowSite`) or a cell of it (`CellSite`). A formula is evaluated
at a row, the references in it lead to cells, and a cell is known by its key, the three identifiers of its sheet,
its row and its column.
-/

namespace GameSheet

/-- A cell of a workbook, by identifiers. -/
structure CellKey where
  sheet : String
  row : String
  column : String
  deriving DecidableEq, Hashable, Repr

/-- A row of a sheet, by its place. -/
structure RowSite where
  sheet : Sheet
  index : sheet.Index

namespace RowSite

/-- The row. -/
def row (s : RowSite) : Row :=
  s.sheet.rows[s.index]

/-- The row above, if there is one. -/
def above? (s : RowSite) : Option RowSite :=
  match s.index with
  | ⟨0, _⟩ => none
  | ⟨i + 1, h⟩ => some ⟨s.sheet, ⟨i, Nat.lt_of_succ_lt h⟩⟩

end RowSite

/-- A cell of a sheet: its row and its column. -/
structure CellSite where
  site : RowSite
  column : Column

namespace CellSite

/-- The key of the cell. -/
def key (c : CellSite) : CellKey :=
  ⟨c.site.sheet.id, c.site.row.id, c.column.id⟩

/-- The cell as messages show it. -/
def label (c : CellSite) : String :=
  c.site.sheet.name ++ "!" ++ c.site.row.id ++ "/" ++ c.column.name

/-- What the cell is computed from. -/
def source (c : CellSite) : Source :=
  c.site.row.source c.column

end CellSite

end GameSheet
