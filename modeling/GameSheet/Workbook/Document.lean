import GameSheet.File.Basic
import GameSheet.Workbook.Basic
import GameSheet.Workbook.Import

/-!
# Workbook documents

A workbook is written as a document with a list of sheets. A sheet has a name, columns and rows, and may take rows
from a table in a file before those of the document. What has no identifier gets one from its place.

`Workbook.ofDocument` gives the workbook or says what is wrong with the document; the sheets are looked at one after
the other, and within a sheet the columns before the file and the file before the rows.
-/

namespace GameSheet

/-- Why a document is no workbook. -/
inductive DocumentFault where
  /-- The file cannot be parsed. -/
  | malformed (path : String)
  /-- The file does not hold a mapping. -/
  | noMapping (path : String)
  | noSheets
  | namelessSheet
  | badColumn (place : Nat)
  | badRow (sheet : String) (place : Nat)
  | unknownColumn (sheet row key : String)
  /-- Some entries of a column or a row have values that they cannot have. -/
  | badEntries (names : List String)
  | sheet (f : SheetFault)
  | workbook (f : WorkbookFault)
  | file (f : FileFault)
  /-- The file of a sheet cannot be opened. -/
  | noSource (path : String)
  | table (f : TableFault)
  /-- Columns or rows are given by data that has no parts. -/
  | noParts (sort : String)
  /-- Cells are given by data that is no mapping. -/
  | noCells (sort : String)
  /-- A source is given by data that is no text. -/
  | noPath (sort : String)
  deriving DecidableEq, Repr

/-- What is wrong, in words. -/
def DocumentFault.message : DocumentFault → String
  | malformed path => "Cannot parse " ++ path
  | noMapping path => path ++ " must contain a mapping"
  | noSheets => "Workbook document must contain a 'sheets' list"
  | namelessSheet => "Each sheet needs a 'name'"
  | badColumn place => "Column " ++ toString place ++ " must be a name or a mapping with 'name'"
  | badRow label place => "Sheet " ++ Text.quoted label ++ ": row " ++ toString place ++ " must be a mapping"
  | unknownColumn label row key =>
    "Sheet " ++ Text.quoted label ++ ": row " ++ Text.quoted row ++ " has a value for unknown column " ++
      Text.quoted key
  | badEntries names => "unsuited values of " ++ ", ".intercalate names
  | sheet f => f.message
  | workbook f => f.message
  | file f => f.message
  | noSource path => "No such file or directory (os error 2): " ++ path
  | table f => f.message
  | noParts sort => Text.quoted sort ++ " object is not iterable"
  | noCells sort => Text.quoted sort ++ " object has no attribute 'items'"
  | noPath sort => "unsupported operand type(s) for /: 'PosixPath' and " ++ Text.quoted sort

/-! ## Columns -/

/-- Sets the value of a key that has none. -/
def defaultEntry (key : String) (value : Data) (entries : List (String × Data)) : List (String × Data) :=
  if (entries.lookup key).isSome then entries else entries ++ [(key, value)]

/-- A text. -/
def Data.text? : Data → Option String
  | .text s => some s
  | _ => none

/-- A text, or nothing for null. -/
def Data.optionalText? : Data → Option (Option String)
  | .text s => some (some s)
  | .null => some none
  | _ => none

/-- The word for a formula column. -/
def ColumnKind.formulaWord : String := "formula"

/-- The kind that a word names. -/
def ColumnKind.ofData? : Data → Option ColumnKind
  | .text s => if s = formulaWord then some .formula else if s = "general" then some .general else none
  | _ => none

/-- The column that some entries describe, or the names of the entries that do not fit. -/
def Column.ofEntries (entries : List (String × Data)) : Except (List String) Column :=
  let id := (entries.lookup "id").bind Data.text?
  let name := (entries.lookup "name").bind Data.text?
  let kind := (entries.lookup "kind").elim (some .general) ColumnKind.ofData?
  let formula := (entries.lookup "formula").elim (some none) Data.optionalText?
  match id, name, kind, formula with
  | some id, some name, some kind, some formula => .ok ⟨id, name, kind, formula⟩
  | _, _, _, _ => .error (
      (if formula.isNone then ["formula"] else []) ++ (if id.isNone then ["id"] else []) ++
        (if kind.isNone then ["kind"] else []) ++ if name.isNone then ["name"] else [])

/-- The entries that describe a column at a place, from one on. A column with a formula is a formula column unless it
says otherwise. -/
def columnEntries (place : Nat) (entries : List (String × Data)) : List (String × Data) :=
  let described := defaultEntry "id" (.text (columnIdAt place)) entries
  if ((Data.mapping described).given? "formula").isSome then
    defaultEntry "kind" (.text ColumnKind.formulaWord) described
  else described

/-- The column at a place, from one on: a name, or a mapping with a name. -/
def columnOfData (place : Nat) (raw : Data) : Except DocumentFault Column :=
  let described := match raw with
    | .text s => some [("name", .text s)]
    | .mapping entries => if (entries.lookup "name").isSome then some entries else none
    | _ => none
  match described with
  | none => .error (.badColumn place)
  | some entries => (Column.ofEntries (columnEntries place entries)).mapError .badEntries

/-! ## Rows -/

/-- The identifier of the column that a key names: by the name of the column, or else by its identifier. -/
def columnIdOfKey? (columns : List Column) (key : String) : Option String :=
  ((columns.find? (·.name == key)).orElse fun _ => columns.find? (·.id == key)).map Column.id

/-- The data of the cells of a row by column identifier. -/
def cellEntries (sheet row : String) (columns : List Column) :
    List (String × Data) → List (String × Data) → Except DocumentFault (List (String × Data))
  | done, [] => .ok done
  | done, (key, value) :: rest =>
    match columnIdOfKey? columns key with
    | none => .error (.unknownColumn sheet row key)
    | some id => cellEntries sheet row columns (setEntry id value done) rest

/-- The raw data of the cells of a row. -/
def rawCells (entries : List (String × Data)) : Except DocumentFault (List (String × RawCell)) :=
  match entries.mapM fun (id, value) => (RawCell.ofData? value).map fun raw => (id, raw) with
  | some cells => .ok cells
  | none => .error (.badEntries ["cells"])

/-- The identifier of the row at a place and the entries of its cells: those under `cells`, or all. -/
def rowParts (place : Nat) (entries : List (String × Data)) : Except DocumentFault (String × List (String × Data)) :=
  let raw := Data.mapping entries
  if (raw.get? "cells").isSome then
    let id := ((raw.get? "id").map Data.shown).getD (rowIdAt place)
    match raw.given? "cells" with
    | none => .ok (id, [])
    | some (.mapping cells) => .ok (id, cells)
    | some d => .error (.noCells d.sort)
  else .ok (rowIdAt place, entries)

/-- The row at a place, from one on. -/
def rowOfData (sheet : String) (columns : List Column) (place : Nat) (raw : Data) : Except DocumentFault Row :=
  match raw with
  | .mapping entries => do
    let (id, values) ← rowParts place entries
    let placed ← cellEntries sheet id columns [] values
    let cells ← rawCells placed
    .ok ⟨id, cells⟩
  | _ => .error (.badRow sheet place)

/-! ## Sheets and workbooks -/

/-- What the data holds one after the other: the items of a list, the keys of a mapping, the characters of a text. Other
data has no parts. -/
def Data.parts? : Data → Option (List Data)
  | .list items => some items
  | .mapping entries => some (entries.map fun (key, _) => .text key)
  | .text s => some (s.toList.map fun c => .text (String.singleton c))
  | _ => none

/-- The results of a step at each part, from a place on. -/
def eachFrom {α : Type} (step : Nat → Data → Except DocumentFault α) (place : Nat) :
    List Data → Except DocumentFault (List α)
  | [] => .ok []
  | raw :: rest => do
    let x ← step place raw
    let xs ← eachFrom step (place + 1) rest
    .ok (x :: xs)

/-- The parts of an entry that may be missing. -/
def partsOf (raw : Data) (key : String) : List Data :=
  ((raw.given? key).bind Data.parts?).getD []

/-- The results of a step at each part of an entry that may be missing, or why it has no parts. -/
def eachPart {α : Type} (step : Nat → Data → Except DocumentFault α) (raw : Data) (key : String) :
    Except DocumentFault (List α) :=
  match raw.given? key with
  | none => .ok []
  | some d =>
    match d.parts? with
    | none => .error (.noParts d.sort)
    | some parts => eachFrom step 1 parts

/-- The path that a source is given by. -/
def sourcePath : Data → Except DocumentFault String
  | .text s => .ok s
  | d => .error (.noPath d.sort)

/-- The table in a file. -/
def tableOfFile (files : Files) (path : String) : Except DocumentFault Table :=
  match files.text? path with
  | none => .error (.noSource path)
  | some text => (files.formats.table text).mapError .table

/-- The sheet that data describes; files are found from a directory. -/
def sheetOfData (files : Files) (directory : String) (raw : Data) : Except DocumentFault Sheet :=
  match raw.get? "name" with
  | none => .error .namelessSheet
  | some label => do
    let name := label.shown
    let id := ((raw.get? "id").map Data.shown).getD name
    let declared ← eachPart columnOfData raw "columns"
    match raw.given? "source" with
    | none => do
      let rows ← eachPart (rowOfData name declared) raw "rows"
      (Sheet.make id name declared rows).mapError .sheet
    | some source => do
      let path ← sourcePath source
      let table ← tableOfFile files (Path.join directory path)
      let base ← (Sheet.ofTable id name declared table).mapError .sheet
      let rows ← eachPart (rowOfData name base.columns) raw "rows"
      (Sheet.make id name base.columns (base.rows ++ rows)).mapError .sheet

/-- The workbook that data describes; files are found from a directory. -/
def Workbook.ofDocument (files : Files) (directory : String) (d : Data) : Except DocumentFault Workbook :=
  match d.get? "sheets" with
  | some (.list items) => do
    let sheets ← items.mapM (sheetOfData files directory)
    (Workbook.make sheets).mapError .workbook
  | _ => .error .noSheets

/-- The mapping that a file holds; a file that holds nothing stands for an empty one. -/
def mappingOfFile (files : Files) (path : String) : Except DocumentFault Data := do
  let text ← (files.read path).mapError .file
  match files.formats.document text with
  | none => .error (.malformed (Path.plain path))
  | some (.mapping entries) => .ok (.mapping entries)
  | some d => if d.isVoid then .ok (.mapping []) else .error (.noMapping (Path.plain path))

/-- The paths of the files that the sheets of a document take rows from. -/
def sourcePaths (directory : String) (d : Data) : List String :=
  (partsOf d "sheets").filterMap fun sheet => ((sheet.given? "source").bind Data.text?).map (Path.join directory)

/-- The workbook in a file. -/
def Workbook.load (files : Files) (path : String) : Except DocumentFault Workbook := do
  let d ← mappingOfFile files path
  Workbook.ofDocument files (Path.parent path) d

end GameSheet
