import GameSheet.Proofs.Workbook.Tables

/-!
# What a document describes

A row of a document gives data by keys, and a key names a column: by the name of the column, or by its identifier if no
column has the key for a name (`Column.Answers`). A row that is read holds in each column what the last of its entries
gives that names it (`Row.Keeps`, **`rowOfData_keeps`**). A mapping can be read as a row (`exists_rowOfData`) if its
cells, where they stand apart, are a mapping too, their keys all name columns and their data is scalar.

A sheet of a document has the name and the identifier that it is described by, and ends with the rows of the document
(**`sheetOfFrames_rows`**).
-/

namespace GameSheet

/-! ## Keys and columns -/

/-- The key names the column: it is its name, or its identifier and the name of no column. -/
def Column.Answers (columns : List Column) (key : String) (c : Column) : Prop :=
  c.name = key ∨ c.id = key ∧ ∀ d ∈ columns, d.name ≠ key

instance (columns : List Column) (key : String) (c : Column) : Decidable (c.Answers columns key) :=
  inferInstanceAs (Decidable (_ ∨ _ ∧ _))

/-- What the entries of a row give a column: the data of the last one that names it. -/
def Column.given? (columns : List Column) (c : Column) : List (String × Data) → Option Data
  | [] => none
  | (key, value) :: rest => (c.given? columns rest).or (if c.Answers columns key then some value else none)

section Keys

variable {columns : List Column} {c : Column} {key : String}

/-- Some column answers to a key that is the name or the identifier of one. -/
theorem exists_answers (h : ∃ c ∈ columns, c.name = key ∨ c.id = key) : ∃ c ∈ columns, c.Answers columns key := by
  by_cases hname : ∃ c ∈ columns, c.name = key
  · obtain ⟨c, hc, hkey⟩ := hname
    exact ⟨c, hc, .inl hkey⟩
  · have hnone : ∀ d ∈ columns, d.name ≠ key := fun d hd hkey => hname ⟨d, hd, hkey⟩
    obtain ⟨c, hc, hkey⟩ := h
    exact ⟨c, hc, .inr ⟨hkey.resolve_left (hnone c hc), hnone⟩⟩

variable (hnames : (columns.map Column.name).Nodup) (hids : (columns.map Column.id).Nodup)

include hnames hids

/-- A key leads to the column that it names. -/
theorem columnIdOfKey?_eq_some_iff {id : String} :
    columnIdOfKey? columns key = some id ↔ ∃ c ∈ columns, c.Answers columns key ∧ c.id = id := by
  rw [columnIdOfKey?]
  cases hname : columns.find? (·.name == key) with
  | some c =>
    obtain ⟨hc, hkey⟩ := (find?_eq_some_iff_of_nodup hnames).1 hname
    simp only [Option.orElse_some, Option.map_some, Option.some.injEq]
    constructor
    · intro hid
      exact ⟨c, hc, .inl hkey, hid⟩
    · rintro ⟨d, hd, hkey' | ⟨-, hnone⟩, rfl⟩
      · rw [List.inj_on_of_nodup_map hnames hc hd (hkey.trans hkey'.symm)]
      · exact absurd hkey (hnone c hc)
  | none =>
    have hnone : ∀ d ∈ columns, d.name ≠ key := by simpa using hname
    simp only [Option.orElse_none, Option.map_eq_some_iff, find?_eq_some_iff_of_nodup hids]
    constructor
    · rintro ⟨c, ⟨hc, hkey⟩, hid⟩
      exact ⟨c, hc, .inr ⟨hkey, hnone⟩, hid⟩
    · rintro ⟨c, hc, hkey, hid⟩
      exact ⟨c, ⟨hc, (hkey.resolve_left (hnone c hc)).1⟩, hid⟩

/-- A key names one column at most. -/
theorem Column.Answers.unique {d : Column} (hc : c ∈ columns) (hd : d ∈ columns) (h : c.Answers columns key)
    (h' : d.Answers columns key) : c = d := by
  have hkey := (columnIdOfKey?_eq_some_iff hnames hids).2 ⟨c, hc, h, rfl⟩
  have hkey' := (columnIdOfKey?_eq_some_iff hnames hids).2 ⟨d, hd, h', rfl⟩
  exact List.inj_on_of_nodup_map hids hc hd (Option.some.inj (hkey.symm.trans hkey'))

theorem columnIdOfKey?_eq_some_id (hc : c ∈ columns) :
    columnIdOfKey? columns key = some c.id ↔ c.Answers columns key := by
  rw [columnIdOfKey?_eq_some_iff hnames hids]
  constructor
  · rintro ⟨d, hd, hkey, hid⟩
    rwa [← List.inj_on_of_nodup_map hids hd hc hid]
  · intro h
    exact ⟨c, hc, h, rfl⟩

/-! ## Cells of a row -/

variable {sheet row : String} {entries done placed : List (String × Data)}

/-- **Placed entries are found under the columns that they name**, the last one of those that name one column. -/
theorem lookup_cellEntries (h : cellEntries sheet row columns done entries = .ok placed) (hc : c ∈ columns) :
    placed.lookup c.id = (c.given? columns entries).or (done.lookup c.id) := by
  induction entries generalizing done with
  | nil =>
    cases h
    rfl
  | cons entry rest ih =>
    obtain ⟨key, value⟩ := entry
    rw [cellEntries] at h
    split at h
    · cases h
    · next id hid =>
      -- what follows is placed later, so it comes before what the entry places
      rw [ih h, Column.given?, Option.or_assoc]
      congr 1
      split
      · next hanswers =>
        obtain rfl : id = c.id :=
          Option.some.inj (hid.symm.trans ((columnIdOfKey?_eq_some_id hnames hids hc).2 hanswers))
        exact lookup_setEntry_self _ _ _
      · next hanswers =>
        refine lookup_setEntry_of_ne (fun heq => hanswers ?_) _ _
        exact (columnIdOfKey?_eq_some_id hnames hids hc).1 (by rw [hid, heq])

theorem exists_cellEntries (hkeys : ∀ e ∈ entries, ∃ c ∈ columns, c.Answers columns e.1) :
    ∃ placed, cellEntries sheet row columns done entries = .ok placed := by
  induction entries generalizing done with
  | nil => exact ⟨done, rfl⟩
  | cons entry rest ih =>
    obtain ⟨⟨c, hc, hkey⟩, hrest⟩ := List.forall_mem_cons.1 hkeys
    rw [cellEntries, (columnIdOfKey?_eq_some_id hnames hids hc).2 hkey]
    exact ih hrest

/-- Every key of entries that can be placed names a column. -/
theorem answers_of_cellEntries (h : cellEntries sheet row columns done entries = .ok placed) :
    ∀ e ∈ entries, ∃ c ∈ columns, c.Answers columns e.1 := by
  induction entries generalizing done with
  | nil => exact List.forall_mem_nil _
  | cons entry rest ih =>
    rw [cellEntries] at h
    split at h
    · cases h
    · next id hid =>
      obtain ⟨c, hc, hkey, -⟩ := (columnIdOfKey?_eq_some_iff hnames hids).1 hid
      exact List.forall_mem_cons.2 ⟨⟨c, hc, hkey⟩, ih h⟩

end Keys

/-! ## Rows -/

/-- The entries of the cells of a row: those under `cells`, or all. -/
def Data.cells (raw : Data) : List (String × Data) :=
  if (raw.get? "cells").isSome then ((raw.given? "cells").map Data.entries).getD [] else raw.entries

/-- The identifier that is given for a row, beside its cells. -/
def Data.rowId? (raw : Data) : Option String :=
  if (raw.get? "cells").isSome then (raw.get? "id").map Data.shown else none

/-- A row has parts exactly if its cells, where they are given, are a mapping. -/
theorem rowParts_eq_ok_iff {place : Nat} {entries : List (String × Data)} {parts : String × List (String × Data)} :
    rowParts place entries = .ok parts ↔
      (∀ d, (Data.mapping entries).given? "cells" = some d → ∃ cells, d = .mapping cells) ∧
        parts = ((Data.mapping entries).rowId?.getD (rowIdAt place), (Data.mapping entries).cells) := by
  rw [rowParts, Data.rowId?, Data.cells]
  cases hget : (Data.mapping entries).get? "cells" with
  | none => simp [Data.given?, hget, Data.entries, eq_comm]
  | some _ =>
    cases hgiven : (Data.mapping entries).given? "cells" with
    | none => simp [eq_comm]
    | some d => cases d <;> simp [Data.entries, eq_comm]

/-- The row holds in each column what the entries give it, and nothing where they give nothing. -/
def Row.Keeps (columns : List Column) (entries : List (String × Data)) (r : Row) : Prop :=
  ∀ c ∈ columns, (c.given? columns entries).elim (some .null) RawCell.ofData? = some (r.cell c.id)

/-- The data describes a row: it is a mapping, and so are its cells if it has them apart, with scalar data under these
keys. -/
structure Data.DescribesRow (keys : List String) (raw : Data) : Prop where
  mapping : ∃ entries, raw = .mapping entries
  apart : ∀ d, raw.given? "cells" = some d → ∃ entries, d = .mapping entries
  keyed : ∀ e ∈ raw.cells, e.1 ∈ keys
  scalar : ∀ e ∈ raw.cells, ∃ x, RawCell.ofData? e.2 = some x

section Rows

variable {columns : List Column} {sheet : String} {place : Nat} {raw : Data} {r : Row}

/-- A mapping is read as a row exactly if its entries can be placed and hold raw data. -/
theorem rowOfData_eq_ok_iff : rowOfData sheet columns place raw = .ok r ↔
    (∃ entries, raw = .mapping entries) ∧ (∀ d, raw.given? "cells" = some d → ∃ entries, d = .mapping entries) ∧
      r.id = raw.rowId?.getD (rowIdAt place) ∧
      ∃ placed, cellEntries sheet r.id columns [] raw.cells = .ok placed ∧ rawCells placed = .ok r.cells := by
  cases raw with
  | mapping entries =>
    simp only [rowOfData, bind_eq_ok_iff, rowParts_eq_ok_iff]
    constructor
    · rintro ⟨_, ⟨hcells, rfl⟩, placed, hplaced, cells, hraw, h⟩
      cases h
      exact ⟨⟨entries, rfl⟩, hcells, rfl, placed, hplaced, hraw⟩
    · rintro ⟨-, hcells, hid, placed, hplaced, hraw⟩
      rw [hid] at hplaced
      exact ⟨_, ⟨hcells, rfl⟩, placed, hplaced, r.cells, hraw, by rw [← hid]⟩
  | _ => simp [rowOfData]

theorem rowOfData_id (h : rowOfData sheet columns place raw = .ok r) : r.id = raw.rowId?.getD (rowIdAt place) :=
  (rowOfData_eq_ok_iff.1 h).2.2.1

/-- Raw data is found under the keys of the data that it was. -/
theorem lookup_of_forall₂ {entries : List (String × Data)} {cells : List (String × RawCell)}
    (h : List.Forall₂ (fun e cell => cell.1 = e.1 ∧ RawCell.ofData? e.2 = some cell.2) entries cells) (key : String) :
    (entries.lookup key).elim (some .null) RawCell.ofData? = some ((cells.lookup key).getD .null) := by
  induction h with
  | nil => rfl
  | @cons e cell _ _ hcell _ ih =>
    obtain ⟨k, value⟩ := e
    obtain ⟨k', x⟩ := cell
    obtain ⟨rfl, hx⟩ := hcell
    simp only [List.lookup_cons]
    split
    · exact hx
    · exact ih

variable (hnames : (columns.map Column.name).Nodup) (hids : (columns.map Column.id).Nodup)

include hnames hids

/-- **A row that is read holds what its entries give.** -/
theorem rowOfData_keeps (h : rowOfData sheet columns place raw = .ok r) : r.Keeps columns raw.cells := by
  obtain ⟨-, -, -, placed, hplaced, hcells⟩ := rowOfData_eq_ok_iff.1 h
  intro c hc
  have hlookup := lookup_of_forall₂ (rawCells_eq_ok_iff.1 hcells) c.id
  rwa [lookup_cellEntries hnames hids hplaced hc, List.lookup_nil, Option.or_none] at hlookup

/-- The keys of a row that is read name columns. -/
theorem answers_of_rowOfData (h : rowOfData sheet columns place raw = .ok r) :
    ∀ e ∈ raw.cells, ∃ c ∈ columns, c.Answers columns e.1 := by
  obtain ⟨-, -, -, placed, hplaced, -⟩ := rowOfData_eq_ok_iff.1 h
  exact answers_of_cellEntries hnames hids hplaced

/-- A mapping with scalar data under keys of columns is read as a row. -/
theorem exists_rowOfData (h : raw.DescribesRow (columns.map Column.name ++ columns.map Column.id)) :
    ∃ r, rowOfData sheet columns place raw = .ok r := by
  have hkeys : ∀ e ∈ raw.cells, ∃ c ∈ columns, c.Answers columns e.1 := by
    intro e he
    refine exists_answers ?_
    rcases List.mem_append.1 (h.keyed e he) with hname | hid
    · obtain ⟨c, hc, hkey⟩ := List.mem_map.1 hname
      exact ⟨c, hc, .inl hkey⟩
    · obtain ⟨c, hc, hkey⟩ := List.mem_map.1 hid
      exact ⟨c, hc, .inr hkey⟩
  obtain ⟨placed, hplaced⟩ :=
    @exists_cellEntries columns hnames hids sheet (raw.rowId?.getD (rowIdAt place)) raw.cells [] hkeys
  have hscalar : ∀ e ∈ placed, ∃ x, RawCell.ofData? e.2 = some x :=
    forall_mem_cellEntries (P := fun e => ∃ x, RawCell.ofData? e.2 = some x) hplaced
      (fun e he _ _ => h.scalar e he) (List.forall_mem_nil _)
  obtain ⟨cells, hcells⟩ : ∃ cells, rawCells placed = .ok cells := by
    simp only [rawCells_eq_ok_iff, exists_forall₂_iff]
    intro e he
    obtain ⟨x, hx⟩ := hscalar e he
    exact ⟨(e.1, x), rfl, hx⟩
  exact ⟨⟨_, cells⟩, rowOfData_eq_ok_iff.2 ⟨h.mapping, h.apart, rfl, placed, hplaced, hcells⟩⟩

variable {parts : List Data} {rows : List Row}

theorem rowsOfData_keep (h : eachFrom (rowOfData sheet columns) place parts = .ok rows) :
    List.Forall₂ (fun row r => r.Keeps columns row.cells) parts rows :=
  forall₂_of_eachFrom h fun _ _ _ _ => rowOfData_keeps hnames hids

theorem exists_rowsOfData
    (h : ∀ row ∈ parts, row.DescribesRow (columns.map Column.name ++ columns.map Column.id)) :
    ∃ rows, eachFrom (rowOfData sheet columns) place parts = .ok rows := by
  simp only [eachFrom_eq_ok_iff, exists_forall₂_iff]
  intro p hp
  exact exists_rowOfData hnames hids (h p.1 (List.fst_mem_of_mem_zipIdx hp))

end Rows

theorem rowsOfData_ids {sheet : String} {columns : List Column} {place : Nat} {parts : List Data} {rows : List Row}
    (h : eachFrom (rowOfData sheet columns) place parts = .ok rows) :
    rows.map Row.id = (parts.zipIdx place).map fun p => p.1.rowId?.getD (rowIdAt p.2) :=
  (map_eq_map_of_forall₂ (eachFrom_eq_ok_iff.1 h) fun _ _ hr => (rowOfData_id hr).symm).symm

/-! ## Sheets -/

/-- The name that a sheet is described by. -/
def Data.sheetName (raw : Data) : String :=
  ((raw.get? "name").map Data.shown).getD ""

/-- The identifier that a sheet is described by: the one that is given, or its name. -/
def Data.sheetId (raw : Data) : String :=
  ((raw.get? "id").map Data.shown).getD raw.sheetName

section Sheets

variable {frame : String → Except DocumentFault Table} {raw : Data} {s : Sheet}

/-- **A sheet is named as it is described, and ends with the rows of the document**, read with its columns. -/
theorem sheetOfFrames_rows (h : sheetOfFrames frame raw = .ok s) : s.name = raw.sheetName ∧ s.id = raw.sheetId ∧
    ∃ front inline, s.rows = front ++ inline ∧
      eachPart (rowOfData s.name s.columns) raw "rows" = .ok inline := by
  unfold sheetOfFrames at h
  split at h
  · cases h
  · next label hlabel =>
    have hname : raw.sheetName = label.shown := by rw [Data.sheetName, hlabel, Option.map_some, Option.getD_some]
    obtain ⟨declared, -, h⟩ := bind_eq_ok_iff.1 h
    split at h
    · obtain ⟨rows, hrows, h⟩ := bind_eq_ok_iff.1 h
      obtain ⟨hid, hlabel, rfl, rfl⟩ := Sheet.make_eq_ok_iff.1 (ok_of_mapError h)
      refine ⟨hlabel.trans hname.symm, by rw [hid, Data.sheetId, hname], [], s.rows, rfl, ?_⟩
      rw [hlabel]
      exact hrows
    · obtain ⟨path, -, h⟩ := bind_eq_ok_iff.1 h
      obtain ⟨table, -, h⟩ := bind_eq_ok_iff.1 h
      obtain ⟨base, -, h⟩ := bind_eq_ok_iff.1 h
      obtain ⟨rows, hrows, h⟩ := bind_eq_ok_iff.1 h
      obtain ⟨hid, hlabel, hcolumns, hall⟩ := Sheet.make_eq_ok_iff.1 (ok_of_mapError h)
      refine ⟨hlabel.trans hname.symm, by rw [hid, Data.sheetId, hname], base.rows, rows, hall, ?_⟩
      rw [hlabel, hcolumns]
      exact hrows

/-- A workbook has the sheets that a document describes, in their order. -/
theorem Workbook.ofFrames_eq_ok_iff {d : Data} {w : Workbook} : Workbook.ofFrames frame d = .ok w ↔
    ∃ items, d.get? "sheets" = some (.list items) ∧
      List.Forall₂ (fun raw s => sheetOfFrames frame raw = .ok s) items w.sheets := by
  rw [Workbook.ofFrames]
  split
  · next items hitems =>
    simp only [bind_eq_ok_iff, mapM_eq_ok_iff, hitems, Option.some.injEq, Data.list.injEq, exists_eq_left']
    constructor
    · rintro ⟨sheets, hsheets, h⟩
      rwa [Workbook.make_eq_ok_iff.1 (ok_of_mapError h)]
    · intro hsheets
      exact ⟨w.sheets, hsheets, by rw [Workbook.make_eq_ok_iff.2 rfl]; rfl⟩
  · next hnone =>
    refine iff_of_false (by simp) ?_
    rintro ⟨items, hitems, -⟩
    exact hnone items hitems

section Documents

variable {items : List Data} {sheets : List Sheet}

theorem Workbook.sheets_of_ofFrames {d : Data} {w : Workbook} (hitems : d.get? "sheets" = some (.list items))
    (hw : Workbook.ofFrames frame d = .ok w) :
    List.Forall₂ (fun raw s => sheetOfFrames frame raw = .ok s) items w.sheets := by
  obtain ⟨items', hitems', hsheets⟩ := Workbook.ofFrames_eq_ok_iff.1 hw
  obtain rfl : items = items' := Data.list.inj (Option.some.inj (hitems.symm.trans hitems'))
  exact hsheets

variable (h : List.Forall₂ (fun raw s => sheetOfFrames frame raw = .ok s) items sheets)

include h

theorem sheets_names : sheets.map Sheet.name = items.map Data.sheetName :=
  (map_eq_map_of_forall₂ h fun _ _ hs => (sheetOfFrames_rows hs).1.symm).symm

theorem sheets_ids : sheets.map Sheet.id = items.map Data.sheetId :=
  (map_eq_map_of_forall₂ h fun _ _ hs => (sheetOfFrames_rows hs).2.1.symm).symm

/-- Sheets that can be read make a workbook if they are described by distinct names and identifiers. -/
theorem Workbook.exists_ofFrames {d : Data} (hitems : d.get? "sheets" = some (.list items))
    (hnames : (items.map Data.sheetName).Nodup) (hids : (items.map Data.sheetId).Nodup) :
    ∃ w, Workbook.ofFrames frame d = .ok w ∧ w.sheets = sheets := by
  rw [← sheets_names h] at hnames
  rw [← sheets_ids h] at hids
  exact ⟨⟨sheets, hnames, hids⟩, Workbook.ofFrames_eq_ok_iff.2 ⟨items, hitems, h⟩, rfl⟩

end Documents

end Sheets

end GameSheet
