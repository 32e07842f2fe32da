import Mathlib.Data.List.Zip
import GameSheet.Proofs.Workbook.Cells
import GameSheet.Workbook.Document

/-!
# Loaded workbooks

A loaded workbook is sound (`Workbook.Sound`): names and identifiers are distinct where they have to be, and every cell
of a row is in a column of its sheet. The sheets of a document come about in three ways, and all of them are covered:

* rows of the document, whose cells are addressed by the name or by the identifier of a column (`rowOfData_fits`),
* records of a table, whose headers all name a column (`Sheet.ofTable_sound`),
* rows of the document after records of a table, with the columns of both.

Columns and rows are read part by part, if they have parts at all (`eachPart_eq_ok_iff`).

**`Workbook.sound_of_load`** holds for whatever tables the sources of a document give (`Workbook.ofFrames`), so also for
those that are read from files.
-/

namespace GameSheet

/-! ## Sound workbooks -/

/-- Every cell of the row is in one of the columns. -/
def Row.Fits (columns : List Column) (r : Row) : Prop :=
  ∀ cell ∈ r.cells, cell.1 ∈ columns.map Column.id

/-- Names and identifiers are distinct, and every cell is in a column of the sheet. -/
structure Sheet.Sound (s : Sheet) : Prop where
  columnNames : (s.columns.map Column.name).Nodup
  columnIds : (s.columns.map Column.id).Nodup
  rowIds : (s.rows.map Row.id).Nodup
  cells : ∀ r ∈ s.rows, r.Fits s.columns

/-- The sheets are sound, their names and identifiers are distinct, and a key is that of one cell at most. -/
structure Workbook.Sound (w : Workbook) : Prop where
  sheetNames : (w.sheets.map Sheet.name).Nodup
  sheetIds : (w.sheets.map Sheet.id).Nodup
  sheets : ∀ s ∈ w.sheets, s.Sound
  cells : ∀ c d, w.Contains c → w.Contains d → c.key = d.key → c = d

theorem Sheet.make_eq_ok_iff {id name : String} {columns : List Column} {rows : List Row} {s : Sheet} :
    Sheet.make id name columns rows = .ok s ↔ s.id = id ∧ s.name = name ∧ s.columns = columns ∧ s.rows = rows := by
  constructor
  · intro h
    unfold Sheet.make at h
    split at h
    · split at h
      · split at h
        · cases h
          exact ⟨rfl, rfl, rfl, rfl⟩
        · cases h
      · cases h
    · cases h
  · rintro ⟨rfl, rfl, rfl, rfl⟩
    rw [Sheet.make, dif_pos s.columnNames_nodup, dif_pos s.columnIds_nodup, dif_pos s.rowIds_nodup]

/-- Columns and rows make a sheet exactly if no name and no identifier is repeated. -/
theorem Sheet.exists_make_iff {id name : String} {columns : List Column} {rows : List Row} :
    (∃ s, Sheet.make id name columns rows = .ok s) ↔
      (columns.map Column.name).Nodup ∧ (columns.map Column.id).Nodup ∧ (rows.map Row.id).Nodup := by
  simp only [Sheet.make_eq_ok_iff]
  constructor
  · rintro ⟨s, rfl, rfl, rfl, rfl⟩
    exact ⟨s.columnNames_nodup, s.columnIds_nodup, s.rowIds_nodup⟩
  · rintro ⟨hnames, hids, hrows⟩
    exact ⟨⟨id, name, columns, rows, hnames, hids, hrows⟩, rfl, rfl, rfl, rfl⟩

/-- A sheet of rows that fit its columns is sound. -/
theorem Sheet.sound_of_make {id name : String} {columns : List Column} {rows : List Row} {s : Sheet}
    (h : Sheet.make id name columns rows = .ok s) (hrows : ∀ r ∈ rows, r.Fits columns) : s.Sound := by
  obtain ⟨-, -, rfl, rfl⟩ := Sheet.make_eq_ok_iff.1 h
  exact ⟨s.columnNames_nodup, s.columnIds_nodup, s.rowIds_nodup, hrows⟩

/-! ## Rows of a document -/

section Rows

variable {columns : List Column}

theorem mem_of_columnIdOfKey? {key id : String} (h : columnIdOfKey? columns key = some id) :
    id ∈ columns.map Column.id := by
  obtain ⟨c, hc, rfl⟩ := Option.map_eq_some_iff.1 h
  refine List.mem_map_of_mem ?_
  rcases hname : columns.find? (·.name == key) with _ | c'
  · rw [hname] at hc
    exact List.mem_of_find?_eq_some hc
  · rw [hname] at hc
    cases hc
    exact List.mem_of_find?_eq_some hname

theorem mem_setEntry {α : Type} {key : String} {value : α} {entries : List (String × α)} {e : String × α}
    (h : e ∈ setEntry key value entries) : e = (key, value) ∨ e ∈ entries := by
  induction entries with
  | nil => exact .inl (List.mem_singleton.1 h)
  | cons first rest ih =>
    rw [setEntry] at h
    split at h
    · next hkey =>
      rcases List.mem_cons.1 h with rfl | h
      · exact .inl (Prod.ext hkey rfl)
      · exact .inr (List.mem_cons_of_mem _ h)
    · rcases List.mem_cons.1 h with rfl | h
      · exact .inr List.mem_cons_self
      · exact (ih h).imp_right (List.mem_cons_of_mem _)

/-- What holds of each entry under the identifier of the column that its key names holds of the placed ones. -/
theorem forall_mem_cellEntries {P : String × Data → Prop} {sheet row : String}
    {entries done placed : List (String × Data)} (h : cellEntries sheet row columns done entries = .ok placed)
    (hentries : ∀ e ∈ entries, ∀ id, columnIdOfKey? columns e.1 = some id → P (id, e.2)) (hdone : ∀ e ∈ done, P e) :
    ∀ e ∈ placed, P e := by
  induction entries generalizing done with
  | nil =>
    cases h
    exact hdone
  | cons entry rest ih =>
    obtain ⟨hentry, hrest⟩ := List.forall_mem_cons.1 hentries
    rw [cellEntries] at h
    split at h
    · cases h
    · next id hid =>
      refine ih h hrest fun e he => ?_
      rcases mem_setEntry he with rfl | he
      · exact hentry id hid
      · exact hdone e he

/-- Cells keep their keys, and their data is raw data. -/
theorem rawCells_eq_ok_iff {entries : List (String × Data)} {cells : List (String × RawCell)} :
    rawCells entries = .ok cells ↔
      List.Forall₂ (fun e cell => cell.1 = e.1 ∧ RawCell.ofData? e.2 = some cell.2) entries cells := by
  have hstep : ∀ (e : String × Data) (cell : String × RawCell),
      ((RawCell.ofData? e.2).map fun raw => (e.1, raw)) = some cell ↔
        cell.1 = e.1 ∧ RawCell.ofData? e.2 = some cell.2 := by
    intro e cell
    rw [Option.map_eq_some_iff]
    constructor
    · rintro ⟨raw, hraw, rfl⟩
      exact ⟨rfl, hraw⟩
    · rintro ⟨hkey, hraw⟩
      exact ⟨cell.2, hraw, Prod.ext hkey.symm rfl⟩
  simp only [← hstep, ← mapM_eq_some_iff]
  rw [rawCells]
  split
  · next h => rw [h, Except.ok.injEq, Option.some.injEq]
  · next h => simp [h]

/-- A row of a document has cells in the columns only. -/
theorem rowOfData_fits {sheet : String} {place : Nat} {raw : Data} {r : Row}
    (h : rowOfData sheet columns place raw = .ok r) : r.Fits columns := by
  unfold rowOfData at h
  split at h
  · obtain ⟨⟨id, entries⟩, -, h⟩ := bind_eq_ok_iff.1 h
    obtain ⟨placed, hplaced, h⟩ := bind_eq_ok_iff.1 h
    obtain ⟨cells, hcells, h⟩ := bind_eq_ok_iff.1 h
    cases h
    intro cell hcell
    obtain ⟨e, he, hkey, -⟩ := exists_of_forall₂ (rawCells_eq_ok_iff.1 hcells).flip hcell
    rw [hkey]
    exact forall_mem_cellEntries (P := fun e => e.1 ∈ columns.map Column.id) hplaced
      (fun _ _ _ hid => mem_of_columnIdOfKey? hid) (List.forall_mem_nil _) e he
  · cases h

/-- A step at each part succeeds exactly if its results go with the parts and their places. -/
theorem eachFrom_eq_ok_iff {α : Type} {step : Nat → Data → Except DocumentFault α} {place : Nat} {parts : List Data}
    {xs : List α} : eachFrom step place parts = .ok xs ↔
      List.Forall₂ (fun p x => step p.2 p.1 = .ok x) (parts.zipIdx place) xs := by
  induction parts generalizing place xs with
  | nil => simp [eachFrom, eq_comm]
  | cons raw rest ih =>
    rw [eachFrom, bind_eq_ok_iff, List.zipIdx_cons, List.forall₂_cons_left_iff]
    refine exists_congr fun x => ?_
    rw [bind_eq_ok_iff]
    constructor
    · rintro ⟨hx, more, hmore, h⟩
      exact ⟨more, hx, ih.1 hmore, (Except.ok.inj h).symm⟩
    · rintro ⟨more, hx, hmore, rfl⟩
      exact ⟨hx, more, ih.2 hmore, rfl⟩

/-- What each step relates to its part holds of the parts and the results one by one. -/
theorem forall₂_of_eachFrom {α : Type} {step : Nat → Data → Except DocumentFault α} {R : Data → α → Prop} {place : Nat}
    {parts : List Data} {xs : List α} (h : eachFrom step place parts = .ok xs)
    (hstep : ∀ raw ∈ parts, ∀ k x, step k raw = .ok x → R raw x) : List.Forall₂ R parts xs := by
  have hmem : ∀ p ∈ parts.zipIdx place, p.1 ∈ parts := fun p hp => List.fst_mem_of_mem_zipIdx hp
  rw [← List.zipIdx_map_fst place parts, List.forall₂_map_left_iff]
  exact ((List.forall₂_and_left _ _).2 ⟨hmem, eachFrom_eq_ok_iff.1 h⟩).imp fun p x hp => hstep p.1 hp.1 p.2 x hp.2

/-- The data has parts under the key, or nothing. -/
def Data.Lists (raw : Data) (key : String) : Prop :=
  ∀ d, raw.given? key = some d → ∃ parts, d.parts? = some parts

/-- A step at each part of an entry succeeds exactly if the entry has parts and the step succeeds at each. -/
theorem eachPart_eq_ok_iff {α : Type} {step : Nat → Data → Except DocumentFault α} {raw : Data} {key : String}
    {xs : List α} : eachPart step raw key = .ok xs ↔
      raw.Lists key ∧ eachFrom step 1 (partsOf raw key) = .ok xs := by
  rw [eachPart, Data.Lists, partsOf]
  cases hgiven : raw.given? key with
  | none => simp [eachFrom]
  | some d => cases hparts : d.parts? with
    | none => simp [hparts]
    | some parts => simp [hparts]

example : eachPart columnOfData (.mapping [("columns", .int 5)]) "columns" = .error (.noParts "int") := rfl

theorem rowsOfData_fit {sheet : String} {raw : Data} {key : String} {rows : List Row}
    (h : eachPart (rowOfData sheet columns) raw key = .ok rows) : ∀ r ∈ rows, r.Fits columns := by
  intro r hr
  obtain ⟨p, -, hrow⟩ := exists_of_forall₂ (eachFrom_eq_ok_iff.1 (eachPart_eq_ok_iff.1 h).2).flip hr
  exact rowOfData_fits hrow

end Rows

/-! ## Records of a table -/

section Records

variable {columns : List Column} {headers : List String}

theorem subset_extendColumns : columns ⊆ extendColumns columns headers := by
  induction headers generalizing columns with
  | nil => exact List.Subset.refl _
  | cons header rest ih =>
    rw [extendColumns]
    split
    · exact ih
    · exact List.Subset.trans (List.subset_append_left _ _) ih

/-- Every header names a column. -/
theorem exists_extendColumns : ∀ header ∈ headers, ∃ c ∈ extendColumns columns headers, c.name = header := by
  induction headers generalizing columns with
  | nil => exact List.forall_mem_nil _
  | cons header rest ih =>
    rw [extendColumns]
    split
    · next hany =>
      obtain ⟨c, hc, hname⟩ := List.any_eq_true.1 hany
      exact List.forall_mem_cons.2 ⟨⟨c, subset_extendColumns hc, by simpa using hname⟩, ih⟩
    · refine List.forall_mem_cons.2 ⟨⟨_, subset_extendColumns (List.mem_append_right _ (List.mem_singleton_self _)),
        rfl⟩, ih⟩

theorem columnIdOf_mem {header : String} (h : ∃ c ∈ columns, c.name = header) :
    columnIdOf columns header ∈ columns.map Column.id := by
  obtain ⟨c, hc, hname⟩ := h
  unfold columnIdOf
  cases hfind : columns.find? (·.name == header) with
  | none => exact absurd (List.find?_eq_none.1 hfind c hc) (by simp [hname])
  | some d => exact List.mem_map_of_mem (List.mem_of_find?_eq_some hfind)

/-- The values of a record stand under the headers of the table. -/
theorem Table.map_fst_of_mem_records {t : Table} {record : List (String × RawCell)} (h : record ∈ t.records) :
    record.map Prod.fst = t.headers := by
  obtain ⟨fields⟩ := t
  simp only [records, headers] at h ⊢
  generalize height _ = height at h
  induction fields generalizing record with
  | nil => rw [List.eq_of_mem_replicate h, List.map_nil, List.map_nil]
  | cons f fields ih =>
    rw [List.foldr_cons, withField, ← List.map_uncurry_zip_eq_zipWith] at h
    obtain ⟨⟨c, rest⟩, hmem, rfl⟩ := List.mem_map.1 h
    exact congrArg (f.header :: ·) (ih (List.of_mem_zip hmem).2)

theorem exists_of_mem_recordCells {record : List (String × RawCell)} :
    ∀ cell ∈ recordCells columns record, ∃ e ∈ record, cell.1 = columnIdOf columns e.1 := by
  fun_induction recordCells columns record with
  | case1 => exact List.forall_mem_nil _
  | case2 header rest ih => exact fun cell hcell => (ih cell hcell).imp fun e he => ⟨List.mem_cons_of_mem _ he.1, he.2⟩
  | case3 header raw rest _ ih =>
    refine List.forall_mem_cons.2 ⟨⟨_, List.mem_cons_self, rfl⟩, fun cell hcell => ?_⟩
    exact (ih cell hcell).imp fun e he => ⟨List.mem_cons_of_mem _ he.1, he.2⟩

/-- **The sheet of a table is sound**, whatever columns are declared beforehand. -/
theorem Sheet.ofTable_sound {id name : String} {declared : List Column} {t : Table} {s : Sheet}
    (h : Sheet.ofTable id name declared t = .ok s) : s.Sound := by
  refine Sheet.sound_of_make h fun r hr => ?_
  obtain ⟨⟨record, i⟩, hrecord, rfl⟩ := List.mem_map.1 hr
  intro cell hcell
  obtain ⟨e, he, hkey⟩ := exists_of_mem_recordCells cell hcell
  have hheader : e.1 ∈ t.headers := by
    rw [← Table.map_fst_of_mem_records (List.fst_mem_of_mem_zipIdx hrecord)]
    exact List.mem_map_of_mem he
  rw [hkey]
  exact columnIdOf_mem (exists_extendColumns e.1 hheader)

end Records

/-! ## Sheets and workbooks of a document -/

/-- The sheet that data describes, with a table for each source. -/
def sheetOfFrames (frame : String → Except DocumentFault Table) (raw : Data) : Except DocumentFault Sheet :=
  match raw.get? "name" with
  | none => .error .namelessSheet
  | some label => do
    let name := label.shown
    let id := ((raw.get? "id").map Data.shown).getD name
    let declared ← eachPart columnOfData raw "columns"
    match raw.given? "source" with
    | none => do
      let rows ← eachPart (rowOfData name declared) raw "rows"
      (Sheet.make id name declared rows).mapError .sheet
    | some source => do
      let path ← sourcePath source
      let table ← frame path
      let base ← (Sheet.ofTable id name declared table).mapError .sheet
      let rows ← eachPart (rowOfData name base.columns) raw "rows"
      (Sheet.make id name base.columns (base.rows ++ rows)).mapError .sheet

/-- The workbook that data describes, with a table for each source. -/
def Workbook.ofFrames (frame : String → Except DocumentFault Table) (d : Data) : Except DocumentFault Workbook :=
  match d.get? "sheets" with
  | some (.list items) => do
    let sheets ← items.mapM (sheetOfFrames frame)
    (Workbook.make sheets).mapError .workbook
  | _ => .error .noSheets

/-- Loading takes the tables from files. -/
theorem Workbook.ofDocument_eq_ofFrames (files : Files) (directory : String) (d : Data) :
    Workbook.ofDocument files directory d =
      Workbook.ofFrames (fun source => tableOfFile files (Path.join directory source)) d := rfl

variable {frame : String → Except DocumentFault Table}

theorem sheetOfFrames_sound {raw : Data} {s : Sheet} (h : sheetOfFrames frame raw = .ok s) : s.Sound := by
  unfold sheetOfFrames at h
  split at h
  · cases h
  · obtain ⟨declared, -, h⟩ := bind_eq_ok_iff.1 h
    split at h
    · obtain ⟨rows, hrows, h⟩ := bind_eq_ok_iff.1 h
      exact Sheet.sound_of_make (ok_of_mapError h) (rowsOfData_fit hrows)
    · obtain ⟨path, -, h⟩ := bind_eq_ok_iff.1 h
      obtain ⟨table, -, h⟩ := bind_eq_ok_iff.1 h
      obtain ⟨base, hbase, h⟩ := bind_eq_ok_iff.1 h
      obtain ⟨rows, hrows, h⟩ := bind_eq_ok_iff.1 h
      refine Sheet.sound_of_make (ok_of_mapError h) (List.forall_mem_append.2 ⟨?_, rowsOfData_fit hrows⟩)
      exact (Sheet.ofTable_sound (ok_of_mapError hbase)).cells

theorem Workbook.make_eq_ok_iff {sheets : List Sheet} {w : Workbook} :
    Workbook.make sheets = .ok w ↔ w.sheets = sheets := by
  constructor
  · intro h
    unfold Workbook.make at h
    split at h
    · split at h
      · cases h
        rfl
      · cases h
    · cases h
  · rintro rfl
    rw [Workbook.make, dif_pos w.names_nodup, dif_pos w.ids_nodup]

theorem Workbook.ofFrames_sound {d : Data} {w : Workbook} (h : Workbook.ofFrames frame d = .ok w) : w.Sound := by
  unfold Workbook.ofFrames at h
  split at h
  · obtain ⟨sheets, hsheets, h⟩ := bind_eq_ok_iff.1 h
    obtain rfl := Workbook.make_eq_ok_iff.1 (ok_of_mapError h)
    refine ⟨w.names_nodup, w.ids_nodup, fun s hs => ?_, fun _ _ => Workbook.eq_of_key_eq⟩
    obtain ⟨raw, -, hraw⟩ := exists_of_forall₂ (mapM_eq_ok_iff.1 hsheets).flip hs
    exact sheetOfFrames_sound hraw
  · cases h

/-- **Loaded workbooks are sound**, whatever tables the sources of the document give, or whatever files they are read
from: names and identifiers of sheets, of columns and of rows are distinct, cells are in columns of their sheet, and a
key is that of one cell at most. -/
theorem Workbook.sound_of_load (d : Data) :
    (∀ frame w, Workbook.ofFrames frame d = .ok w → w.Sound) ∧
      ∀ files directory w, Workbook.ofDocument files directory d = .ok w → w.Sound :=
  ⟨fun _ _ h => Workbook.ofFrames_sound h, fun files directory _ h =>
    Workbook.ofFrames_sound ((Workbook.ofDocument_eq_ofFrames files directory d).symm.trans h)⟩

/-- A sheet with the rows of a file and a row of the document after them. -/
def unitsDocument : Data :=
  .mapping [("sheets", .list [.mapping [
    ("name", .text "Units"),
    ("source", .text "units.csv"),
    ("columns", .list [.mapping [("name", .text "Cost"), ("formula", .text "=Power")]]),
    ("rows", .list [.mapping [("id", .text "troll"), ("cells", .mapping [("Power", .int 9)])]])]])]

theorem Workbook.sound_of_load_units : ∃ w,
    Workbook.ofDocument { entries := [("units.csv", "ID,Power\ngoblin,3\n")] } "." unitsDocument = .ok w ∧
      w.sheets.map (fun s => s.rows.map Row.id) = [["goblin", "troll"]] ∧ w.Sound := by
  obtain ⟨w, hw, hrows⟩ : ∃ w,
      Workbook.ofDocument { entries := [("units.csv", "ID,Power\ngoblin,3\n")] } "." unitsDocument = .ok w ∧
        w.sheets.map (fun s => s.rows.map Row.id) = [["goblin", "troll"]] := map_eq_ok_iff.1 (by decide +kernel)
  exact ⟨w, hw, hrows, (Workbook.sound_of_load unitsDocument).2 _ _ w hw⟩

end GameSheet
