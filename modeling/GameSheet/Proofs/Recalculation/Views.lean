import GameSheet.Proofs.Decimal.Written
import GameSheet.Proofs.Recalculation.Unbroken

/-!
# The views of a computed sheet

A computed sheet is looked up by keys: its values by row and column (`ComputedSheet.values`), the outcomes and the
errors of its formulas by both at once (`results`, `errors`), and the text of a cell by its outcome or else by its value
(`cellText`). The grid and the table are made of the cells in their order.

**`computeSheet_views`**: all of them show the same of a sheet that was computed. Every cell is a literal, a formula
with a value or a failed formula, by what is found under its keys (`ComputedSheet.Shows`), and every field of the table
holds the texts of the grid or the numbers that they are the texts of (`ComputedSheet.ShowsField`).

The views agree because each key is that of one cell (`ComputedSheet.Full.cell_eq`): rows have distinct identifiers and
columns distinct names.
-/

namespace GameSheet

/-! ## Views by key -/

namespace ComputedSheet

/-- The values by the identifiers of the rows and the names of the columns; a cell without a value is left out. -/
def values (s : ComputedSheet) : List (String × List (String × CellValue)) :=
  s.rows.map fun r => (r.row.id, r.cells.filterMap fun p => p.2.value?.map fun v => (p.1.name, v))

/-- The outcomes of the formula cells by row identifier and column name. -/
def results (s : ComputedSheet) : List ((String × String) × Outcome) :=
  s.outcomes.map fun (r, c, o) => ((r.id, c.name), o)

/-- The messages of the failed formula cells by row identifier and column name. -/
def errors (s : ComputedSheet) : List ((String × String) × String) :=
  s.results.filterMap fun e => e.2.failure?.map fun f => (e.1, f.message)

/-- The value under a row identifier and a column name. -/
def valueAt? (s : ComputedSheet) (row column : String) : Option CellValue :=
  (s.values.lookup row).bind (·.lookup column)

/-- The text under a row identifier and a column name: that of the outcome or else of the value. -/
def cellText (s : ComputedSheet) (row column : String) : String :=
  match s.results.lookup (row, column) with
  | some o => o.cellText
  | none => (s.valueAt? row column).elim "" CellValue.display

/-- The texts of the cells of a column, row by row. -/
def columnTexts (s : ComputedSheet) (column : Column) : List String :=
  s.sheet.rows.map fun row => s.cellText row.id column.name

end ComputedSheet

/-- What a cell is, by the views. -/
inductive CellStatus where
  | literal
  | succeeded
  | failed
  deriving DecidableEq, Repr

/-- The views show the cell with a status: data has a value and no outcome, a formula an outcome, and with it either the
value of the outcome or the error. -/
def ComputedSheet.Shows (s : ComputedSheet) (row : Row) (column : Column) : CellStatus → Prop
  | .literal => ∃ raw v, row.source column = .literal raw ∧ raw.value = .ok v ∧
      s.valueAt? row.id column.name = some v ∧ s.results.lookup (row.id, column.name) = none ∧
        s.errors.lookup (row.id, column.name) = none
  | .succeeded => ∃ body v warnings, row.source column = .formula body ∧
      s.valueAt? row.id column.name = some v ∧
        s.results.lookup (row.id, column.name) = some (.success v warnings) ∧
          s.errors.lookup (row.id, column.name) = none
  | .failed => ∃ body f, row.source column = .formula body ∧ s.valueAt? row.id column.name = none ∧
      s.results.lookup (row.id, column.name) = some (.failed f) ∧
        s.errors.lookup (row.id, column.name) = some f.message

/-- Some cell of the column has failed or holds a text. -/
def ComputedSheet.HoldsWords (s : ComputedSheet) (column : Column) : Prop :=
  ∃ row ∈ s.sheet.rows, s.Shows row column .failed ∨ ∃ t, s.valueAt? row.id column.name = some (.text t)

/-- The text is that of the number, or empty without a number. -/
def IsTextOf (text : String) (x : Option Float) : Prop :=
  (x = none ↔ text = "") ∧ ∀ y, x = some y → Decimal.displayText y = text

/-- A field of the table shows a column: the texts of the grid exactly if some cell has failed or holds a text,
otherwise the numbers that they are the texts of. -/
structure ComputedSheet.ShowsField (s : ComputedSheet) (column : Column) (field : Field) : Prop where
  header : field.header = column.name
  texts : field.series = .texts ((s.columnTexts column).map some) ↔ s.HoldsWords column
  numbers : ¬s.HoldsWords column → ∃ xs, field.series = .floats xs ∧ List.Forall₂ IsTextOf (s.columnTexts column) xs

/-! ## One cell under a key -/

/-- The computed sheet has a result for every cell of its sheet, of the sort of its source. -/
structure ComputedSheet.Full (s : ComputedSheet) : Prop where
  rows : s.rows.map ComputedRow.row = s.sheet.rows
  columns : ∀ r ∈ s.rows, r.cells.map Prod.fst = s.sheet.columns
  answers : ∀ r ∈ s.rows, ∀ p ∈ r.cells, ComputedCell.Answers (r.row.source p.1) p.2

theorem Engine.Completes.full {engine : Engine} {w : Workbook} {sheet : Sheet} {useMemo : Bool}
    {computed : ComputedSheet} (h : engine.Completes w sheet useMemo computed) : computed.Full := by
  obtain rfl := h.sheet_eq
  exact ⟨h.rows, h.columns, h.answers⟩

namespace ComputedSheet.Full

variable {s : ComputedSheet} {r r' : ComputedRow} {p p' : Column × ComputedCell}

theorem nodup_rowIds (h : s.Full) : (s.rows.map fun r => r.row.id).Nodup := by
  have hids : (s.rows.map fun r => r.row.id) = s.sheet.rows.map Row.id := by
    rw [← h.rows, List.map_map]
    rfl
  rw [hids]
  exact s.sheet.rowIds_nodup

theorem nodup_columnNames (h : s.Full) (hr : r ∈ s.rows) : (r.cells.map fun p => p.1.name).Nodup := by
  have hnames : (r.cells.map fun p => p.1.name) = s.sheet.columns.map Column.name := by
    rw [← h.columns r hr, List.map_map]
    rfl
  rw [hnames]
  exact s.sheet.columnNames_nodup

/-- **A key is that of one cell.** -/
theorem cell_eq (h : s.Full) (hr : r ∈ s.rows) (hp : p ∈ r.cells) (hr' : r' ∈ s.rows) (hp' : p' ∈ r'.cells)
    (hrow : r'.row.id = r.row.id) (hcolumn : p'.1.name = p.1.name) : r' = r ∧ p' = p := by
  obtain rfl : r' = r := List.inj_on_of_nodup_map h.nodup_rowIds hr' hr hrow
  exact ⟨rfl, List.inj_on_of_nodup_map (h.nodup_columnNames hr) hp' hp hcolumn⟩

/-- There is a cell in every row and column. -/
theorem exists_cell (h : s.Full) {row : Row} (hrow : row ∈ s.sheet.rows) {column : Column}
    (hcolumn : column ∈ s.sheet.columns) : ∃ r ∈ s.rows, r.row = row ∧ ∃ cell, (column, cell) ∈ r.cells := by
  rw [← h.rows] at hrow
  obtain ⟨r, hr, rfl⟩ := List.mem_map.1 hrow
  rw [← h.columns r hr] at hcolumn
  obtain ⟨⟨column, cell⟩, hcell, rfl⟩ := List.mem_map.1 hcolumn
  exact ⟨r, hr, rfl, cell, hcell⟩

/-! ## What is found under a key -/

theorem valueAt? (h : s.Full) (hr : r ∈ s.rows) (hp : p ∈ r.cells) :
    s.valueAt? r.row.id p.1.name = p.2.value? := by
  have hrow : s.values.lookup r.row.id =
      some (r.cells.filterMap fun p => p.2.value?.map fun v => (p.1.name, v)) := by
    refine lookup_of_nodup ?_ (List.mem_map_of_mem hr)
    rw [values, List.map_map]
    exact h.nodup_rowIds
  rw [ComputedSheet.valueAt?, hrow, Option.bind_some]
  refine lookup_eq_of_mem (fun v hv => ?_) fun v hv => ?_
  · exact List.mem_filterMap.2 ⟨p, hp, by rw [hv]; rfl⟩
  · obtain ⟨p', hp', hv'⟩ := List.mem_filterMap.1 hv
    obtain ⟨v', hvalue, heq⟩ := Option.map_eq_some_iff.1 hv'
    obtain ⟨hname, rfl⟩ := Prod.mk.inj heq
    obtain ⟨-, rfl⟩ := h.cell_eq hr hp hr hp' rfl hname
    exact hvalue

theorem mem_results {key : String × String} {o : Outcome} : (key, o) ∈ s.results ↔
    ∃ r ∈ s.rows, ∃ p ∈ r.cells, p.2.outcome? = some o ∧ (r.row.id, p.1.name) = key := by
  simp only [results, outcomes, List.map_flatMap, List.map_filterMap, List.mem_flatMap, List.mem_filterMap,
    Option.map_map, Option.map_eq_some_iff, Function.comp_apply, Prod.mk.injEq]
  constructor
  · rintro ⟨r, hr, p, hp, o', ho', hkey, rfl⟩
    exact ⟨r, hr, p, hp, ho', hkey⟩
  · rintro ⟨r, hr, p, hp, ho, hkey⟩
    exact ⟨r, hr, p, hp, o, ho, hkey, rfl⟩

theorem results_lookup (h : s.Full) (hr : r ∈ s.rows) (hp : p ∈ r.cells) :
    s.results.lookup (r.row.id, p.1.name) = p.2.outcome? := by
  refine lookup_eq_of_mem (fun o ho => ?_) fun o ho => ?_
  · exact mem_results.2 ⟨r, hr, p, hp, ho, rfl⟩
  · obtain ⟨r', hr', p', hp', ho', hkey⟩ := mem_results.1 ho
    obtain ⟨hrow, hcolumn⟩ := Prod.mk.inj hkey
    obtain ⟨rfl, rfl⟩ := h.cell_eq hr hp hr' hp' hrow hcolumn
    exact ho'

theorem errors_lookup (h : s.Full) (hr : r ∈ s.rows) (hp : p ∈ r.cells) :
    s.errors.lookup (r.row.id, p.1.name) = (p.2.outcome?.bind Outcome.failure?).map Failure.message := by
  refine lookup_eq_of_mem (fun message hm => ?_) fun message hm => ?_
  · obtain ⟨f, hf, rfl⟩ := Option.map_eq_some_iff.1 hm
    obtain ⟨o, ho, hf⟩ := Option.bind_eq_some_iff.1 hf
    exact List.mem_filterMap.2 ⟨((r.row.id, p.1.name), o), mem_results.2 ⟨r, hr, p, hp, ho, rfl⟩, by rw [hf]; rfl⟩
  · obtain ⟨⟨key, o⟩, ho, hm⟩ := List.mem_filterMap.1 hm
    obtain ⟨f, hf, heq⟩ := Option.map_eq_some_iff.1 hm
    obtain ⟨hkey, rfl⟩ := Prod.mk.inj heq
    obtain ⟨r', hr', p', hp', ho', hkey'⟩ := mem_results.1 ho
    obtain ⟨hrow, hcolumn⟩ := Prod.mk.inj (hkey'.trans hkey)
    obtain ⟨rfl, rfl⟩ := h.cell_eq hr hp hr' hp' hrow hcolumn
    rw [ho', Option.bind_some, hf]
    rfl

/-- The text under a key is that of the cell. -/
theorem cellText (h : s.Full) (hr : r ∈ s.rows) (hp : p ∈ r.cells) : s.cellText r.row.id p.1.name = p.2.text := by
  rw [ComputedSheet.cellText, h.results_lookup hr hp, h.valueAt? hr hp]
  cases p.2 <;> rfl

/-! ## The grid -/

/-- The grid shows the texts that are found under the keys. -/
theorem displayRows (h : s.Full) : s.displayRows =
    s.sheet.rows.map fun row => s.sheet.columns.map fun column => s.cellText row.id column.name := by
  rw [← h.rows, List.map_map, ComputedSheet.displayRows]
  refine List.map_congr_left fun r hr => ?_
  rw [Function.comp_apply, ← h.columns r hr, List.map_map]
  exact List.map_congr_left fun p hp => (h.cellText hr hp).symm

/-! ## The status of a cell -/

/-- There is a status that the views show. -/
theorem exists_shows (h : s.Full) (hr : r ∈ s.rows) (hp : p ∈ r.cells) : ∃ status, s.Shows r.row p.1 status := by
  have hvalue := h.valueAt? hr hp
  have hresult := h.results_lookup hr hp
  have herror := h.errors_lookup hr hp
  have hanswer := h.answers r hr p hp
  obtain ⟨column, cell⟩ := p
  dsimp only at hvalue hresult herror hanswer ⊢
  cases hsource : r.row.source column with
  | literal raw =>
    rw [hsource] at hanswer
    obtain ⟨hraw⟩ := hanswer
    exact ⟨.literal, raw, _, hsource, hraw, hvalue, hresult, herror⟩
  | formula body =>
    rw [hsource] at hanswer
    obtain ⟨⟩ | @⟨_, o⟩ := hanswer
    cases o with
    | success v warnings => exact ⟨.succeeded, body, v, warnings, hsource, hvalue, hresult, herror⟩
    | failed f => exact ⟨.failed, body, f, hsource, hvalue, hresult, herror⟩

end ComputedSheet.Full

/-- The status of a cell by the outcome under its key. -/
def CellStatus.ofResult : Option Outcome → CellStatus
  | none => .literal
  | some (.success _ _) => .succeeded
  | some (.failed _) => .failed

namespace ComputedSheet

variable {s : ComputedSheet} {row : Row} {column : Column}

/-- The outcome under the key of a cell tells its status. -/
theorem Shows.eq_ofResult {status : CellStatus} (h : s.Shows row column status) :
    status = .ofResult (s.results.lookup (row.id, column.name)) := by
  cases status with
  | literal =>
    obtain ⟨raw, v, -, -, -, hresult, -⟩ := h
    rw [hresult]
    rfl
  | succeeded =>
    obtain ⟨body, v, warnings, -, -, hresult, -⟩ := h
    rw [hresult]
    rfl
  | failed =>
    obtain ⟨body, f, -, -, hresult, -⟩ := h
    rw [hresult]
    rfl

/-- **The cell of a row and a column has exactly one status.** -/
theorem Full.existsUnique_shows (h : s.Full) (hrow : row ∈ s.sheet.rows) (hcolumn : column ∈ s.sheet.columns) :
    ∃! status, s.Shows row column status := by
  obtain ⟨r, hr, rfl, cell, hcell⟩ := h.exists_cell hrow hcolumn
  obtain ⟨status, hstatus⟩ := h.exists_shows hr hcell
  exact ⟨status, hstatus, fun other hother => hother.eq_ofResult.trans hstatus.eq_ofResult.symm⟩

/-- A cell without a value has failed. -/
theorem Full.shows_failed (h : s.Full) (hrow : row ∈ s.sheet.rows) (hcolumn : column ∈ s.sheet.columns)
    (hvalue : s.valueAt? row.id column.name = none) : s.Shows row column .failed := by
  obtain ⟨status, hstatus, -⟩ := h.existsUnique_shows hrow hcolumn
  cases status with
  | literal =>
    obtain ⟨raw, v, -, -, hv, -⟩ := hstatus
    cases hvalue.symm.trans hv
  | succeeded =>
    obtain ⟨body, v, warnings, -, hv, -⟩ := hstatus
    cases hvalue.symm.trans hv
  | failed => exact hstatus

end ComputedSheet

/-! ## The table -/

theorem ComputedCell.text_of_value? {cell : ComputedCell} {v : CellValue} (h : cell.value? = some v) :
    cell.text = v.display := by
  cases cell with
  | literal v' =>
    cases h
    rfl
  | formula o =>
    cases o with
    | success v' warnings =>
      cases h
      rfl
    | failed f => cases h

theorem number?_eq_none {cell : ComputedCell} :
    ComputedSheet.number? cell = none ↔ cell.value? = none ∨ ∃ t, cell.value? = some (.text t) := by
  unfold ComputedSheet.number?
  cases cell.value? with
  | none => simp
  | some v => cases v <;> simp

/-- A number in the table is shown by the text of its cell. -/
theorem isTextOf_of_number? {cell : ComputedCell} {x : Option Float} (h : ComputedSheet.number? cell = some x) :
    IsTextOf cell.text x := by
  unfold ComputedSheet.number? at h
  split at h
  · next y hvalue =>
    cases h
    have htext : cell.text = Decimal.displayText y := ComputedCell.text_of_value? hvalue
    rw [htext]
    refine ⟨iff_of_false (by simp) (Decimal.displayText_ne_empty y), fun z hz => ?_⟩
    cases hz
    rfl
  · next hvalue =>
    cases h
    have htext : cell.text = "" := ComputedCell.text_of_value? hvalue
    exact ⟨iff_of_true rfl htext, fun z hz => nomatch hz⟩
  · cases h

namespace ComputedSheet.Full

variable {s : ComputedSheet} {column : Column}

/-- What is found in the column of a row is the cell there. -/
theorem cell?_eq_some_iff (h : s.Full) {r : ComputedRow} (hr : r ∈ s.rows) {cell : ComputedCell} :
    r.cell? column = some cell ↔ (column, cell) ∈ r.cells := by
  have hnodup : (r.cells.map Prod.fst).Nodup := by
    rw [h.columns r hr]
    exact s.sheet.columnIds_nodup.of_map
  exact ⟨mem_of_lookup, lookup_of_nodup hnodup⟩

/-- The cells of a column are those of the rows one after the other. -/
theorem forall₂_column (h : s.Full) (hcolumn : column ∈ s.sheet.columns) :
    List.Forall₂ (fun row cell => ∃ r ∈ s.rows, r.row = row ∧ (column, cell) ∈ r.cells) s.sheet.rows
      (s.column column) := by
  have hrows : ∀ rows ⊆ s.rows, List.Forall₂ (fun row cell => ∃ r ∈ s.rows, r.row = row ∧ (column, cell) ∈ r.cells)
      (rows.map ComputedRow.row) (rows.filterMap (·.cell? column)) := by
    intro rows hsub
    induction rows with
    | nil => exact .nil
    | cons r rest ih =>
      obtain ⟨hr, hrest⟩ := List.cons_subset.1 hsub
      have hmem := hcolumn
      rw [← h.columns r hr] at hmem
      obtain ⟨⟨c, cell⟩, hcell, rfl⟩ := List.mem_map.1 hmem
      have hfound : r.cell? c = some cell := (h.cell?_eq_some_iff hr).2 hcell
      simp only [List.map_cons, List.filterMap_cons, hfound]
      exact .cons ⟨r, hr, rfl, hcell⟩ (ih hrest)
  rw [← h.rows]
  exact hrows s.rows (List.Subset.refl _)

/-- The texts of a column are those of its cells. -/
theorem columnTexts (h : s.Full) (hcolumn : column ∈ s.sheet.columns) :
    s.columnTexts column = (s.column column).map ComputedCell.text := by
  have hcells := h.forall₂_column hcolumn
  have hequal : List.Forall₂ (· = ·) (s.columnTexts column) ((s.column column).map ComputedCell.text) := by
    rw [ComputedSheet.columnTexts, List.forall₂_map_left_iff, List.forall₂_map_right_iff]
    refine hcells.imp fun row cell hcell => ?_
    obtain ⟨r, hr, rfl, hcell⟩ := hcell
    exact h.cellText hr hcell
  rwa [List.forall₂_eq_eq_eq] at hequal

/-- A column holds words exactly if one of its cells is no number for the table. -/
theorem holdsWords_iff (h : s.Full) (hcolumn : column ∈ s.sheet.columns) :
    s.HoldsWords column ↔ ∃ cell ∈ s.column column, number? cell = none := by
  constructor
  · rintro ⟨row, hrow, hwords⟩
    obtain ⟨r, hr, rfl, cell, hcell⟩ := h.exists_cell hrow hcolumn
    refine ⟨cell, List.mem_filterMap.2 ⟨r, hr, (h.cell?_eq_some_iff hr).2 hcell⟩, number?_eq_none.2 ?_⟩
    have hvalue := h.valueAt? hr hcell
    rcases hwords with ⟨body, f, -, hnone, -⟩ | ⟨t, ht⟩
    · exact .inl (hvalue.symm.trans hnone)
    · exact .inr ⟨t, hvalue.symm.trans ht⟩
  · rintro ⟨cell, hmem, hnumber⟩
    obtain ⟨r, hr, hcell⟩ := List.mem_filterMap.1 hmem
    have hrow : r.row ∈ s.sheet.rows := by
      rw [← h.rows]
      exact List.mem_map_of_mem hr
    have hvalue := h.valueAt? hr ((h.cell?_eq_some_iff hr).1 hcell)
    refine ⟨r.row, hrow, ?_⟩
    rcases number?_eq_none.1 hnumber with hnone | ⟨t, ht⟩
    · exact .inl (h.shows_failed hrow hcolumn (hvalue.trans hnone))
    · exact .inr ⟨t, hvalue.trans ht⟩

/-- **A field of the table shows the column that it is made of.** -/
theorem showsField (h : s.Full) (hcolumn : column ∈ s.sheet.columns) :
    s.ShowsField column ⟨column.name, series (s.column column)⟩ := by
  have hwords := h.holdsWords_iff hcolumn
  rw [← mapM_eq_none_iff] at hwords
  have htexts := h.columnTexts hcolumn
  unfold series
  cases hnumbers : (s.column column).mapM number? with
  | none =>
    have hholds := hwords.2 hnumbers
    refine ⟨rfl, iff_of_true ?_ hholds, fun hnot => absurd hholds hnot⟩
    rw [htexts, List.map_map]
    rfl
  | some xs =>
    have hnot : ¬s.HoldsWords column := fun hholds => by
      rw [hwords.1 hholds] at hnumbers
      cases hnumbers
    refine ⟨rfl, iff_of_false (fun heq => nomatch heq) hnot, fun _ => ⟨xs, rfl, ?_⟩⟩
    rw [htexts, List.forall₂_map_left_iff]
    exact (mapM_eq_some_iff.1 hnumbers).imp fun cell x hx => isTextOf_of_number? hx

end ComputedSheet.Full

/-- **The views of a computed sheet agree.** Every cell is either a literal, with a value and no outcome, or a formula
with an outcome: with its value, or with an error and without a value. The grid shows the texts that are found under the
keys of the cells. The table has a field for each column, in their order, with the texts of the grid exactly if a cell
of the column has failed or holds a text, and otherwise with the numbers that they are the texts of, none exactly for
the empty texts. -/
theorem computeSheet_views {engine : Engine} {w : Workbook} {sheet : Sheet} {useMemo : Bool} {computed : ComputedSheet}
    (h : (engine.computeSheet w sheet useMemo).1 = .ok computed) :
    (∀ row ∈ sheet.rows, ∀ column ∈ sheet.columns, ∃! status, computed.Shows row column status) ∧
      (computed.displayRows =
        sheet.rows.map fun row => sheet.columns.map fun column => computed.cellText row.id column.name) ∧
      List.Forall₂ computed.ShowsField sheet.columns computed.table.fields := by
  have hcompletes := Engine.completes_of_ok h
  have hfull := hcompletes.full
  obtain rfl := hcompletes.sheet_eq
  refine ⟨fun row hrow column hcolumn => hfull.existsUnique_shows hrow hcolumn, hfull.displayRows, ?_⟩
  rw [ComputedSheet.table, List.forall₂_map_right_iff, List.forall₂_same]
  exact fun column hcolumn => hfull.showsField hcolumn

/-! ## A ledger with a failure -/

/-- The grid of a ledger with a note that is a formula without a value. -/
theorem exists_computed_ledger : ∃ computed,
    (Engine.computeSheet {} (ledger "=Missing") (ledgerSheet "=Missing") false).1 = .ok computed ∧
      computed.displayRows = [["one", "five", "#ERR: unknown column: Missing", "five", "five"]] := by
  have hrows : (Engine.computeSheet {} (ledger "=Missing") (ledgerSheet "=Missing") false).1.map
      ComputedSheet.displayRows = .ok [["one", "five", "#ERR: unknown column: Missing", "five", "five"]] := by
    decide +kernel
  exact map_eq_ok_iff.1 hrows

theorem computeSheet_views_ledger : ∃ computed,
    (Engine.computeSheet {} (ledger "=Missing") (ledgerSheet "=Missing") false).1 = .ok computed ∧
      computed.displayRows = [["one", "five", "#ERR: unknown column: Missing", "five", "five"]] ∧
      (∀ row ∈ (ledgerSheet "=Missing").rows, ∀ column ∈ ledgerColumns, ∃! status, computed.Shows row column status) ∧
      List.Forall₂ computed.ShowsField ledgerColumns computed.table.fields := by
  obtain ⟨computed, hcomputed, hrows⟩ := exists_computed_ledger
  obtain ⟨hstatus, -, hfields⟩ := computeSheet_views hcomputed
  exact ⟨computed, hcomputed, hrows, hstatus, hfields⟩

end GameSheet
