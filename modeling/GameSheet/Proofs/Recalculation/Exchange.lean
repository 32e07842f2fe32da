import GameSheet.Proofs.Recalculation.Views
import GameSheet.Proofs.Workbook.Tables

/-!
# Tables that come back

A table of numbers and of plain texts (`Table.Exchangeable`) becomes a sheet, and the computed sheet as a table is that
table again (**`computeNamed_table`**): the headers in their order, each series with its sort, its values and what is
missing.

* The sheet holds the table (`Sheet.Holds`), so each of its cells is computed from the value that it came from
  (`RawCell.IsPlain.source`).
* A column of such cells is a series of numbers exactly if the field is one (`series_of_plain`). A series of texts needs
  a record for that: without any text the cells of the column are nothing but numbers.
-/

namespace GameSheet

/-! ## Plain data -/

/-- The data is a number or missing, or it is a text that is neither empty nor a formula. -/
inductive RawCell.IsPlain : RawCell → Prop
  | null : IsPlain .null
  | float (x : Float) : IsPlain (.float x)
  | text {s : String} : s ≠ "" → s.toList.head? ≠ some '=' → IsPlain (.text s)

/-- The series has numbers, some of which may be missing, or texts, none of which is. -/
inductive Series.IsPlain : Series → Prop
  | floats (xs : List (Option Float)) : IsPlain (.floats xs)
  | texts {texts : List String} : (∀ s ∈ texts, (RawCell.text s).IsPlain) → IsPlain (.texts (texts.map some))

/-- A table with a record, with plain values under distinct headers, and with a different text for each record if it has
a field that identifies the records. -/
structure Table.Exchangeable (t : Table) : Prop where
  headers_nodup : t.headers.Nodup
  rectangular : t.IsRectangular
  height_pos : 0 < t.height
  plain : ∀ f ∈ t.fields, f.series.IsPlain
  identifies : t.Identifies

theorem RawCell.IsPlain.exists_value {raw : RawCell} (h : raw.IsPlain) : ∃ v, raw.value = .ok v := by
  cases h with
  | null => exact ⟨_, rfl⟩
  | float x => exact ⟨_, rfl⟩
  | text => exact ⟨_, rfl⟩

/-- Plain data in a column without a formula is what the cell is computed from. -/
theorem RawCell.IsPlain.source {raw : RawCell} (h : raw.IsPlain) {r : Row} {c : Column}
    (hc : c.source = .literal .null) (hcell : r.cell c.id = raw) : r.source c = .literal raw := by
  unfold Row.source
  rw [hcell]
  cases h with
  | null => exact hc
  | float x => rfl
  | text hne hhead =>
    dsimp only
    split
    · next hnil => exact absurd (String.toList_eq_nil_iff.1 hnil) hne
    · next heq => exact absurd (by rw [heq]; rfl) hhead
    · rfl

theorem Series.IsPlain.cell {s : Series} (h : s.IsPlain) : ∀ raw ∈ s.cells, raw.IsPlain := by
  intro raw hraw
  cases h with
  | floats xs =>
    obtain ⟨x, -, rfl⟩ := List.mem_map.1 hraw
    cases x with
    | none => exact .null
    | some y => exact .float y
  | @texts texts htexts =>
    rw [Series.cells, List.map_map] at hraw
    obtain ⟨s, hs, rfl⟩ := List.mem_map.1 hraw
    exact htexts s hs

/-! ## Series of computed cells -/

/-- The cell has the value of the data. -/
def ComputedCell.IsValueOf (raw : RawCell) (cell : ComputedCell) : Prop :=
  ∃ v, raw.value = .ok v ∧ cell = .literal v

theorem number?_of_float {x : Option Float} {cell : ComputedCell}
    (h : ComputedCell.IsValueOf (x.elim .null .float) cell) : ComputedSheet.number? cell = some x := by
  obtain ⟨v, hv, rfl⟩ := h
  cases x <;> cases hv <;> rfl

theorem isValueOf_text {s : String} (hs : s ≠ "") {cell : ComputedCell} (h : ComputedCell.IsValueOf (.text s) cell) :
    cell = .literal (.text s) := by
  obtain ⟨v, hv, rfl⟩ := h
  have hempty : s.isEmpty = false := by simpa using hs
  rw [RawCell.value, hempty] at hv
  cases hv
  rfl

theorem literals_of_texts {texts : List String} (htexts : ∀ s ∈ texts, (RawCell.text s).IsPlain)
    {cells : List ComputedCell} (hcells : List.Forall₂ ComputedCell.IsValueOf (texts.map RawCell.text) cells) :
    cells = texts.map fun s => .literal (.text s) := by
  induction texts generalizing cells with
  | nil =>
    cases hcells
    rfl
  | cons s rest ih =>
    obtain ⟨hs, hrest⟩ := List.forall_mem_cons.1 htexts
    rw [List.map_cons, List.forall₂_cons_left_iff] at hcells
    obtain ⟨cell, cells, hcell, hcells, rfl⟩ := hcells
    cases hs with
    | text hne => rw [isValueOf_text hne hcell, ih hrest hcells, List.map_cons]

/-- **The values of a plain series are that series again**, if there are any. -/
theorem series_of_plain {s : Series} (h : s.IsPlain) (hlength : 0 < s.length) {cells : List ComputedCell}
    (hcells : List.Forall₂ ComputedCell.IsValueOf s.cells cells) : ComputedSheet.series cells = s := by
  unfold ComputedSheet.series
  cases h with
  | floats xs =>
    rw [Series.cells, List.forall₂_map_left_iff] at hcells
    have hnumbers : cells.mapM ComputedSheet.number? = some xs :=
      mapM_eq_some_iff.2 (hcells.imp fun x cell h => number?_of_float h).flip
    rw [hnumbers]
  | @texts texts htexts =>
    rw [Series.cells, List.map_map] at hcells
    rw [literals_of_texts htexts hcells]
    -- The first text keeps the column from being one of numbers.
    obtain ⟨first, rest, rfl⟩ := List.exists_cons_of_length_pos (by simpa [Series.length, Series.cells] using hlength)
    have hwords : ((first :: rest).map fun s => ComputedCell.literal (.text s)).mapM ComputedSheet.number? = none :=
      mapM_eq_none_iff.2 ⟨_, List.mem_cons_self, rfl⟩
    rw [hwords]
    simp [ComputedCell.text, CellValue.display]

/-! ## The sheet and its table -/

section Sheets

variable {t : Table} {sheet : Sheet}

/-- The cells of a sheet that holds a table have plain data. -/
theorem Sheet.Holds.plain_cell (h : sheet.Holds t) (hplain : ∀ f ∈ t.fields, f.series.IsPlain) {row : Row}
    (hrow : row ∈ sheet.rows) {column : Column} (hcolumn : column ∈ sheet.columns) :
    (row.cell column.id).IsPlain ∧ row.source column = .literal (row.cell column.id) := by
  obtain ⟨f, hf, -, hsource, hcells⟩ := exists_of_forall₂ h hcolumn
  have hcell : (row.cell column.id).IsPlain := by
    refine (hplain f hf).cell _ ?_
    rw [← hcells]
    exact List.mem_map_of_mem (f := fun row => row.cell column.id) hrow
  exact ⟨hcell, hcell.source hsource rfl⟩

/-- The cells of a column have the values of the cells of the sheet. -/
theorem ComputedSheet.Full.column_values {computed : ComputedSheet} (h : computed.Full)
    (hholds : computed.sheet.Holds t) (hplain : ∀ f ∈ t.fields, f.series.IsPlain) {column : Column}
    (hcolumn : column ∈ computed.sheet.columns) :
    List.Forall₂ ComputedCell.IsValueOf (computed.sheet.rows.map (·.cell column.id)) (computed.column column) := by
  rw [List.forall₂_map_left_iff]
  refine (h.forall₂_column hcolumn).imp fun row cell hcell => ?_
  obtain ⟨r, hr, rfl, hmem⟩ := hcell
  have hrow : r.row ∈ computed.sheet.rows := by
    rw [← h.rows]
    exact List.mem_map_of_mem hr
  have hanswer : ComputedCell.Answers (r.row.source column) cell := h.answers r hr _ hmem
  rw [(hholds.plain_cell hplain hrow hcolumn).2] at hanswer
  obtain ⟨hvalue⟩ := hanswer
  exact ⟨_, hvalue, rfl⟩

/-- **The computed sheet of a table is that table.** -/
theorem ComputedSheet.Full.table_eq {computed : ComputedSheet} (h : computed.Full) (hholds : computed.sheet.Holds t)
    (ht : t.Exchangeable) : computed.table = t := by
  have hfields : List.Forall₂ (· = ·) computed.table.fields t.fields := by
    rw [ComputedSheet.table, List.forall₂_map_left_iff]
    obtain ⟨hlength, hzip⟩ := List.forall₂_iff_zip.1 hholds
    refine List.forall₂_iff_zip.2 ⟨hlength, fun {c f} hcf => ?_⟩
    obtain ⟨hc, hf⟩ := List.of_mem_zip hcf
    obtain ⟨hname, -, hcells⟩ := hzip hcf
    have hvalues := h.column_values hholds ht.plain hc
    rw [hcells] at hvalues
    have hpositive : 0 < f.series.length := by
      rw [ht.rectangular f hf]
      exact ht.height_pos
    rw [series_of_plain (ht.plain f hf) hpositive hvalues, hname]
  rw [List.forall₂_eq_eq_eq] at hfields
  exact congrArg Table.mk hfields

/-- The integers of a sheet that holds a table are numbers: it has none. -/
theorem Sheet.Holds.integersFit (h : sheet.Holds t) (hplain : ∀ f ∈ t.fields, f.series.IsPlain) :
    sheet.IntegersFit := by
  intro row hrow column hcolumn
  obtain ⟨hcell, hsource⟩ := h.plain_cell hplain hrow hcolumn
  exact (Row.value_of_source hsource).1 hcell.exists_value

theorem Workbook.make_singleton (sheet : Sheet) : Workbook.make [sheet] = .ok ⟨[sheet], by simp, by simp⟩ := by
  rw [make, dif_pos (by simp), dif_pos (by simp)]

theorem Workbook.sheet?_singleton {key : String} (h : key = sheet.id ∨ key = sheet.name) :
    (Workbook.mk [sheet] (by simp) (by simp)).sheet? key = some sheet := by
  simp only [sheet?, sheetById?, sheetByName?, List.find?_singleton, beq_iff_eq]
  rcases h with rfl | rfl
  · rw [if_pos rfl]
    rfl
  · split
    · rfl
    · rw [if_pos rfl]
      rfl

end Sheets

/-- **Tables come back.** A table with at least one record, with distinct headers, whose series are numbers, some of
which may be missing, or texts that are there, not empty and no formulas, and whose identifier field, if it has one, has
a different text for each record: it becomes the sheet of a workbook, and that sheet computed, under its identifier or
its name, with or without a memo, gives the table again. -/
theorem computeNamed_table {t : Table} (ht : t.Exchangeable) (engine : Engine) (id name : String) (useMemo : Bool) :
    ∃ sheet w, Sheet.ofTable id name [] t = .ok sheet ∧ Workbook.make [sheet] = .ok w ∧
      ∀ key, key = sheet.id ∨ key = name →
        ∃ computed, engine.computeNamed w key useMemo = .ok computed ∧ computed.table = t := by
  obtain ⟨sheet, hsheet, rfl, hholds⟩ := Sheet.ofTable_holds ht.headers_nodup ht.rectangular ht.identifies id name
  refine ⟨sheet, _, hsheet, Workbook.make_singleton sheet, fun key hkey => ?_⟩
  have hfound := Workbook.sheet?_singleton hkey
  obtain ⟨computed, hcomputed, hcompletes⟩ := ((engine.computeNamed_completes _ key useMemo).2 sheet hfound).1.2
    (hholds.integersFit ht.plain)
  obtain rfl := hcompletes.sheet_eq
  exact ⟨computed, hcomputed, hcompletes.full.table_eq hholds ht⟩

/-- Two fighters of one rank, with the attack of one of them. -/
def fightersTable : Table where
  fields := [
    ⟨"ID", .texts [some "ogre", some "imp"]⟩,
    ⟨"ATK", .floats [some 12, none]⟩,
    ⟨"Rank", .texts [some "elite", some "elite"]⟩]

theorem fightersTable_exchangeable : fightersTable.Exchangeable where
  headers_nodup := by decide
  rectangular := by
    simp only [Table.IsRectangular, fightersTable, List.forall_mem_cons]
    exact ⟨rfl, rfl, rfl, List.forall_mem_nil _⟩
  height_pos := by decide
  plain := by
    simp only [fightersTable, List.forall_mem_cons]
    refine ⟨@Series.IsPlain.texts ["ogre", "imp"] ?_, .floats _, @Series.IsPlain.texts ["elite", "elite"] ?_,
      List.forall_mem_nil _⟩
    · exact List.forall_mem_cons.2 ⟨.text (by decide) (by decide),
        List.forall_mem_singleton.2 (.text (by decide) (by decide))⟩
    · exact List.forall_mem_cons.2 ⟨.text (by decide) (by decide),
        List.forall_mem_singleton.2 (.text (by decide) (by decide))⟩
  identifies := by
    intro header hheader f hf hname
    obtain rfl : header = "ID" := (Option.some.inj hheader).symm
    simp only [fightersTable, List.mem_cons, List.not_mem_nil, or_false] at hf
    rcases hf with rfl | rfl | rfl
    · exact ⟨["ogre", "imp"], rfl, by decide⟩
    · exact absurd hname (by decide)
    · exact absurd hname (by decide)

theorem computeNamed_table_fighters : ∃ sheet w, Sheet.ofTable "" "Units" [] fightersTable = .ok sheet ∧
    Workbook.make [sheet] = .ok w ∧ ∀ key, key = sheet.id ∨ key = "Units" →
      ∃ computed, Engine.computeNamed {} w key true = .ok computed ∧ computed.table = fightersTable :=
  computeNamed_table fightersTable_exchangeable {} "" "Units" true

end GameSheet
