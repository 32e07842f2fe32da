import GameSheet.Proofs.Workbook.Twins

/-!
# Workbooks in another order

A workbook is reordered by putting its sheets in another order, and in each sheet but the settings sheet the columns.
What is found in it by a name or an identifier stays the same, since these are distinct; so a reference leads to the
same row and the same column of the same sheet, or fails for the same reason (`Workbook.Reordered.target`). In the
settings sheet columns are also found by their place, which is why their order counts there.

`RowMoved` and `CellMoved` relate the places that correspond to each other.
-/

namespace GameSheet

open Formula

/-! ## Another order -/

/-- The sheet with its columns in another order, unless it has the name of the settings sheet. -/
structure Sheet.Reordered (settings : String) (s t : Sheet) : Prop where
  id : s.id = t.id
  name : s.name = t.name
  rows : s.rows = t.rows
  columns : s.columns.Perm t.columns
  settings_columns : s.name = settings → s.columns = t.columns

/-- The workbook with its sheets in another order, and the columns of its sheets. -/
def Workbook.Reordered (settings : String) (w w' : Workbook) : Prop :=
  ∃ sheets, List.Forall₂ (Sheet.Reordered settings) w.sheets sheets ∧ sheets.Perm w'.sheets

/-- One row of a sheet and of the sheet in another order. -/
structure RowMoved (settings : String) (s s' : RowSite) : Prop where
  sheet : s.sheet.Reordered settings s'.sheet
  index : s.index.val = s'.index.val

/-- One cell of a sheet and of the sheet in another order. -/
structure CellMoved (settings : String) (c c' : CellSite) : Prop where
  site : RowMoved settings c.site c'.site
  column : c.column = c'.column

section Moved

variable {settings : String} {s t : Sheet}

namespace Sheet.Reordered

theorem row_eq (h : s.Reordered settings t) {i : s.Index} {j : t.Index} (hij : i.val = j.val) :
    s.rows.get i = t.rows.get j := by
  have hrow := List.getElem_of_eq h.rows i.isLt
  simpa [hij] using hrow

/-! ## Searches in a sheet -/

theorem columnByName? (h : s.Reordered settings t) (name : String) : s.columnByName? name = t.columnByName? name :=
  find?_perm s.columnNames_nodup h.columns name

theorem columnById? (h : s.Reordered settings t) (id : String) : s.columnById? id = t.columnById? id :=
  find?_perm s.columnIds_nodup h.columns id

theorem rowIndex? (h : s.Reordered settings t) (id : String) :
    Option.Rel (fun i j => i.val = j.val) (s.rowIndex? id) (t.rowIndex? id) :=
  Sheet.rowIndex?_congr (congrArg _ h.rows) id

theorem findRow? (h : s.Reordered settings t) (selector : RowSelector) :
    Option.Rel (fun i j => i.val = j.val) (s.findRow? selector) (t.findRow? selector) := by
  refine Sheet.findRow?_congr (congrArg _ h.rows) (fun names _ identifier => ?_) selector
  rw [Sheet.rowByContent?, Sheet.rowByContent?, funext h.columnByName?]
  exact rel_findFinIdx? (congrArg _ h.rows)

theorem settingsColumn (h : s.Reordered settings t) (hname : s.name = settings) (name : Option String) (place : Nat) :
    s.settingsColumn name place = t.settingsColumn name place := by
  cases name <;> simp only [Sheet.settingsColumn, h.columnByName?, h.settings_columns hname, h.name]

theorem valueColumn (h : s.Reordered settings t) (hname : s.name = settings) (name : Option String) :
    s.valueColumn name = t.valueColumn name := by
  simp only [Sheet.valueColumn, h.settings_columns hname, h.settingsColumn hname]

theorem settingRow (h : s.Reordered settings t) (c : Column) (key : String) :
    Matched (fun i j => i.val = j.val) (s.settingRow c key (List.finRange s.rows.length))
      (t.settingRow c key (List.finRange t.rows.length)) :=
  Sheet.settingRow_congr (fun _ _ hij => by rw [h.row_eq hij]) key (forall₂_finRange (congrArg _ h.rows))

end Sheet.Reordered

/-! ## Rows and cells -/

namespace RowMoved

variable {site site' : RowSite}

theorem row_eq (h : RowMoved settings site site') : site.row = site'.row :=
  h.sheet.row_eq h.index

theorem above? (h : RowMoved settings site site') : Option.Rel (RowMoved settings) site.above? site'.above? := by
  obtain ⟨sheet, i, hi⟩ := site
  obtain ⟨sheet', i', hi'⟩ := site'
  obtain rfl : i = i' := h.index
  cases i with
  | zero => exact .none
  | succ i => exact .some ⟨h.sheet, rfl⟩

/-- A column of the row, by its name. -/
theorem cellOfRow (h : RowMoved settings site site') (name : String) :
    Matched (CellMoved settings) (Scope.cellOfRow site name) (Scope.cellOfRow site' name) := by
  unfold Scope.cellOfRow
  rw [h.sheet.columnByName?]
  exact (Matched.refl _).bind fun c c' hc => .found ⟨h, hc⟩

/-- A column of the row, by its identifier. -/
theorem ownCell (h : RowMoved settings site site') (id : String) :
    Matched (CellMoved settings) (Engine.ownCell site id) (Engine.ownCell site' id) := by
  unfold Engine.ownCell
  rw [h.sheet.columnById?]
  exact (Matched.refl _).bind fun c c' hc => .found ⟨h, hc⟩

end RowMoved

namespace CellMoved

variable {c c' : CellSite}

theorem key_eq (h : CellMoved settings c c') : c.key = c'.key := by
  simp only [CellSite.key, h.site.sheet.id, h.site.row_eq, h.column]

theorem label_eq (h : CellMoved settings c c') : c.label = c'.label := by
  simp only [CellSite.label, h.site.sheet.name, h.site.row_eq, h.column]

theorem source_eq (h : CellMoved settings c c') : c.source = c'.source := by
  simp only [CellSite.source, h.site.row_eq, h.column]

end CellMoved

end Moved

/-! ## Searches in a workbook -/

namespace Workbook.Reordered

variable {settings : String} {w w' : Workbook}

/-- A sheet is found by a key that is distinct and kept. -/
theorem find? (h : w.Reordered settings w') {key : Sheet → String}
    (hkey : ∀ s t, Sheet.Reordered settings s t → key s = key t) (nodup : (w'.sheets.map key).Nodup) (k : String) :
    Option.Rel (Sheet.Reordered settings) (w.sheets.find? (key · == k)) (w'.sheets.find? (key · == k)) := by
  obtain ⟨sheets, hsheets, hperm⟩ := h
  rw [← find?_perm ((hperm.map key).nodup_iff.2 nodup) hperm k]
  exact rel_find? (fun s t hst => by rw [hkey s t hst]) hsheets

theorem sheetByName? (h : w.Reordered settings w') (name : String) :
    Option.Rel (Sheet.Reordered settings) (w.sheetByName? name) (w'.sheetByName? name) :=
  h.find? (fun _ _ => Sheet.Reordered.name) w'.names_nodup name

theorem sheet? (h : w.Reordered settings w') (key : String) :
    Option.Rel (Sheet.Reordered settings) (w.sheet? key) (w'.sheet? key) :=
  rel_orElse (h.find? (fun _ _ => Sheet.Reordered.id) w'.ids_nodup key) (h.sheetByName? key)

/-- A context leads to the same row. -/
theorem site (h : w.Reordered settings w') (sheet row : String) (column : Option String) :
    Matched (RowMoved settings) (Context.site ⟨w, sheet, row, column⟩) (Context.site ⟨w', sheet, row, column⟩) :=
  (Matched.of_rel _ (h.sheet? sheet)).bind fun _ _ hst =>
    (Matched.of_rel _ (hst.rowIndex? row)).bind fun _ _ hij => .found ⟨hst, hij⟩

variable {options : Options}

/-- A setting is found in the same cell. -/
theorem cellOfSetting (h : w.Reordered options.settingsSheet w') (key : String) :
    Matched (CellMoved options.settingsSheet) (Scope.cellOfSetting ⟨w, options⟩ key)
      (Scope.cellOfSetting ⟨w', options⟩ key) := by
  have hsheet := rel_mono_mem (h.sheetByName? options.settingsSheet)
    (S := fun s t => s.name = options.settingsSheet ∧ s.Reordered options.settingsSheet t)
    fun s t hs _ hst => ⟨by simpa using List.find?_some hs, hst⟩
  refine (Matched.of_rel _ hsheet).bind fun s t ⟨hname, hst⟩ => ?_
  rw [hst.settingsColumn hname, hst.valueColumn hname]
  refine (Matched.refl _).bind fun keyColumn _ hkey => (Matched.refl _).bind fun valueColumn _ hvalue => ?_
  obtain rfl := hkey
  exact (hst.settingRow keyColumn key).bind fun _ _ hij => .found ⟨⟨hst, hij⟩, hvalue⟩

/-- A cell of a sheet is found in the same place. -/
theorem cellOfSheet (h : w.Reordered settings w') (options : Options) (sheet : String) (selector : RowSelector)
    (column : String) :
    Matched (CellMoved settings) (Scope.cellOfSheet ⟨w, options⟩ sheet selector column)
      (Scope.cellOfSheet ⟨w', options⟩ sheet selector column) := by
  refine (Matched.of_rel _ (h.sheetByName? sheet)).bind fun s t hst => ?_
  refine (Matched.of_rel _ (hst.findRow? selector)).bind fun i j hij => ?_
  rw [hst.columnByName?]
  exact (Matched.refl _).bind fun c c' hc => .found ⟨⟨hst, hij⟩, hc⟩

/-- **A reference leads to the same cell, or fails for the same reason.** -/
theorem target (h : w.Reordered options.settingsSheet w') {site site' : Option RowSite}
    (hsite : Option.Rel (RowMoved options.settingsSheet) site site') (r : Reference) :
    Matched (CellMoved options.settingsSheet) (Scope.target ⟨w, options⟩ site r)
      (Scope.target ⟨w', options⟩ site' r) := by
  cases r with
  | column name _ => exact (Matched.of_rel _ hsite).bind fun _ _ hmoved => hmoved.cellOfRow name
  | previous name _ =>
    refine (Matched.of_rel _ ?_).bind fun _ _ hmoved => RowMoved.cellOfRow hmoved name
    cases hsite with
    | none => exact .none
    | some hmoved => exact hmoved.above?
  | setting key _ => exact h.cellOfSetting key
  | cross sheet row column _ => exact h.cellOfSheet options sheet row column

end Workbook.Reordered

end GameSheet
