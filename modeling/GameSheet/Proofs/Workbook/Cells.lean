import Mathlib
import GameSheet.Engine
import GameSheet.Proofs.Basics

/-!
# The cells of a workbook

* A cell of a workbook is known by its key (`Workbook.eq_of_key_eq`).
* A reference leads from a workbook into the same workbook (`Scope.contains_of_target`).
* An identifier leads back to what it is the identifier of (`Sheet.rowIndex?_id`, `Context.site_of_mem`).
-/

namespace GameSheet

open Formula

namespace Sheet

variable {s : Sheet}

/-- Two places with rows of one identifier are one. -/
theorem index_eq_of_id_eq {i j : s.Index} (h : (s.rows.get i).id = (s.rows.get j).id) : i = j := by
  have hi : i.val < (s.rows.map Row.id).length := by simp
  have hj : j.val < (s.rows.map Row.id).length := by simp
  have hrows : (s.rows.map Row.id)[i.val] = (s.rows.map Row.id)[j.val] := by simpa using h
  exact Fin.ext ((List.Nodup.getElem_inj_iff s.rowIds_nodup).1 hrows)

theorem rowIndex?_id (i : s.Index) : s.rowIndex? (s.rows.get i).id = some i := by
  refine List.findFinIdx?_eq_some_iff.2 ⟨by simp, fun j hji hj => ?_⟩
  have : j = i := index_eq_of_id_eq (by simpa using hj)
  exact absurd hji (by simp [this])

theorem columnById?_id {c : Column} (h : c ∈ s.columns) : s.columnById? c.id = some c :=
  find?_key s.columnIds_nodup h

theorem mem_of_columnByName? {name : String} {c : Column} (h : s.columnByName? name = some c) : c ∈ s.columns :=
  List.mem_of_find?_eq_some h

end Sheet

theorem Workbook.mem_of_sheetByName? {w : Workbook} {name : String} {s : Sheet} (h : w.sheetByName? name = some s) :
    s ∈ w.sheets :=
  List.mem_of_find?_eq_some h

theorem Workbook.sheet?_id {w : Workbook} {s : Sheet} (h : s ∈ w.sheets) : w.sheet? s.id = some s := by
  simp [Workbook.sheet?, Workbook.sheetById?, find?_key w.ids_nodup h]

/-! ## Cells of a workbook -/

namespace Workbook

variable {w : Workbook}

/-- The cell is one of the workbook. -/
def Contains (w : Workbook) (c : CellSite) : Prop :=
  c.site.sheet ∈ w.sheets ∧ c.column ∈ c.site.sheet.columns

/-- A cell is known by its key. -/
theorem eq_of_key_eq {c d : CellSite} (hc : w.Contains c) (hd : w.Contains d) (h : c.key = d.key) : c = d := by
  obtain ⟨⟨s, i⟩, a⟩ := c
  obtain ⟨⟨t, j⟩, b⟩ := d
  obtain ⟨hsheet, hrow, hcolumn⟩ := CellKey.mk.inj h
  obtain rfl : s = t := List.inj_on_of_nodup_map w.ids_nodup hc.1 hd.1 hsheet
  obtain rfl : i = j := Sheet.index_eq_of_id_eq hrow
  obtain rfl : a = b := List.inj_on_of_nodup_map s.columnIds_nodup hc.2 hd.2 hcolumn
  rfl

/-- The bodies of the formula cells carry no white space at their ends and no marker. -/
def PlainBodies (w : Workbook) : Prop :=
  ∀ c, w.Contains c → ∀ body, c.source = .formula body →
    Text.trim body.toList = body.toList ∧ body.toList.head? ≠ some '='

/-- A plain body is read as it stands. -/
theorem PlainBodies.stripMarker_eq (h : w.PlainBodies) {c : CellSite} (hc : w.Contains c) {body : String}
    (hb : c.source = .formula body) : stripMarker body = body := by
  obtain ⟨htrim, hhead⟩ := h c hc body hb
  unfold stripMarker
  rw [htrim]
  split
  · next rest heq => exact absurd (by rw [heq]; rfl) hhead
  · exact String.ofList_toList

end Workbook

theorem Column.eq_null_of_source {c : Column} {raw : RawCell} (h : c.source = .literal raw) : raw = .null := by
  unfold Column.source at h
  split at h
  · split at h
    · exact (Source.literal.inj h).symm
    · cases h
  · exact (Source.literal.inj h).symm

/-- The data that a cell is computed from is its own, unless it has none. -/
theorem Row.cell_of_source {r : Row} {c : Column} {raw : RawCell} (h : r.source c = .literal raw) :
    raw = .null ∨ r.cell c.id = raw := by
  unfold Row.source at h
  cases hcell : r.cell c.id with
  | text s =>
    simp only [hcell] at h
    split at h
    · exact .inl (Column.eq_null_of_source h)
    · cases h
    · exact .inr (Source.literal.inj h)
  | null => exact .inl (Column.eq_null_of_source (by simpa only [hcell] using h))
  | _ => exact .inr (Source.literal.inj (by simpa only [hcell] using h))

theorem Column.formula_of_source {c : Column} {body : String} (h : c.source = .formula body) :
    c.kind = .formula ∧ ∃ f, c.formula = some f ∧ f ≠ "" ∧ body = stripMarker f := by
  unfold Column.source at h
  split at h
  · next f hkind hformula =>
    split at h
    · cases h
    · next hempty => exact ⟨hkind, f, hformula, fun hf => hempty (by rw [hf]; rfl), (Source.formula.inj h).symm⟩
  · cases h

/-- The formula that a cell is computed from stands in the cell behind a marker, or it is that of its column. -/
theorem Row.formula_of_source {r : Row} {c : Column} {body : String} (h : r.source c = .formula body) :
    (∃ text cs, r.cell c.id = .text text ∧ text.toList = '=' :: cs ∧ body = String.ofList cs) ∨
      c.kind = .formula ∧ ∃ f, c.formula = some f ∧ f ≠ "" ∧ body = stripMarker f := by
  unfold Row.source at h
  cases hcell : r.cell c.id with
  | text s =>
    simp only [hcell] at h
    split at h
    · exact .inr (Column.formula_of_source h)
    · next cs hs => exact .inl ⟨s, cs, rfl, hs, (Source.formula.inj h).symm⟩
    · cases h
  | null => exact .inr (Column.formula_of_source (by simpa only [hcell] using h))
  | _ => simp only [hcell] at h; cases h

/-- The integer that the cell may hold is a number. -/
def Row.IntegerFits (r : Row) (c : Column) : Prop :=
  ∀ n, r.cell c.id = .int n → ∃ x, floatOfInt n = .ok x

theorem Row.source_of_int {r : Row} {c : Column} {n : Int} (h : r.cell c.id = .int n) :
    r.source c = .literal (.int n) := by
  simp only [Row.source, h]

/-- The data of a cell is a value exactly if an integer that it may be is a number. -/
theorem Row.value_of_source {r : Row} {c : Column} {raw : RawCell} (hs : r.source c = .literal raw) :
    (∃ v, raw.value = .ok v) ↔ r.IntegerFits c := by
  constructor
  · rintro ⟨v, hv⟩ n hn
    obtain rfl : raw = .int n := Source.literal.inj (hs.symm.trans (source_of_int hn))
    obtain ⟨x, hx, -⟩ := map_eq_ok_iff.1 hv
    exact ⟨x, hx⟩
  · intro h
    cases raw with
    | int n =>
      obtain ⟨x, hx⟩ := h n ((cell_of_source hs).resolve_left (by simp))
      exact ⟨.number x, by simp only [RawCell.value, hx]; rfl⟩
    | _ => exact ⟨_, rfl⟩

/-! ## References -/

theorem orMissing_ok {α : Type} {m : Missing} {o : Option α} {a : α} (h : orMissing m o = .ok a) : o = some a := by
  cases o with
  | none => cases h
  | some b => cases h; rfl

theorem ok_of_mapError {ε ε' α : Type} {g : ε → ε'} {x : Except ε α} {a : α} (h : x.mapError g = .ok a) :
    x = .ok a := by
  cases x with
  | error e => cases h
  | ok b => cases h; rfl

theorem Sheet.mem_of_settingsColumn {s : Sheet} {name : Option String} {place : Nat} {c : Column}
    (h : s.settingsColumn name place = .ok c) : c ∈ s.columns := by
  cases name with
  | some label => exact mem_of_columnByName? (orMissing_ok h)
  | none => exact List.mem_of_getElem? (orMissing_ok h)

theorem Sheet.mem_of_valueColumn {s : Sheet} {name : Option String} {c : Column} (h : s.valueColumn name = .ok c) :
    c ∈ s.columns := by
  unfold valueColumn at h
  split at h
  · next hf => cases h; exact List.mem_of_find?_eq_some hf
  · exact mem_of_settingsColumn h

namespace Scope

variable {scope : Scope} {site : RowSite} {cell : CellSite}

theorem cellOfRow_ok {name : String} (h : cellOfRow site name = .ok cell) :
    cell.site = site ∧ site.sheet.columnByName? name = some cell.column := by
  obtain ⟨c, hc, h⟩ := bind_eq_ok_iff.1 h
  cases h
  exact ⟨rfl, orMissing_ok hc⟩

theorem cellOfSetting_ok {key : String} (h : scope.cellOfSetting key = .ok cell) :
    scope.workbook.sheetByName? scope.options.settingsSheet = some cell.site.sheet ∧
      cell.site.sheet.valueColumn scope.options.settingsValueColumn = .ok cell.column := by
  obtain ⟨sheet, hs, h⟩ := bind_eq_ok_iff.1 h
  obtain ⟨keyColumn, -, h⟩ := bind_eq_ok_iff.1 h
  obtain ⟨c, hc, h⟩ := bind_eq_ok_iff.1 h
  obtain ⟨index, -, h⟩ := bind_eq_ok_iff.1 h
  cases h
  exact ⟨orMissing_ok hs, hc⟩

theorem cellOfSheet_ok {sheet column : String} {selector : RowSelector}
    (h : scope.cellOfSheet sheet selector column = .ok cell) :
    scope.workbook.sheetByName? sheet = some cell.site.sheet ∧
      cell.site.sheet.columnByName? column = some cell.column := by
  obtain ⟨s, hs, h⟩ := bind_eq_ok_iff.1 h
  obtain ⟨index, -, h⟩ := bind_eq_ok_iff.1 h
  obtain ⟨c, hc, h⟩ := bind_eq_ok_iff.1 h
  cases h
  exact ⟨orMissing_ok hs, orMissing_ok hc⟩

theorem sheet_above {above : RowSite} (h : site.above? = some above) : above.sheet = site.sheet := by
  unfold RowSite.above? at h
  split at h
  · cases h
  · cases h
    rfl

/-- A reference leads to a cell of the workbook. -/
theorem contains_of_target {from? : Option RowSite} (hsite : ∀ s, from? = some s → s.sheet ∈ scope.workbook.sheets)
    {r : Reference} (h : scope.target from? r = .ok cell) : scope.workbook.Contains cell := by
  cases r with
  | column name _ =>
    obtain ⟨s, hs, h⟩ := bind_eq_ok_iff.1 h
    obtain ⟨rfl, hc⟩ := cellOfRow_ok h
    exact ⟨hsite _ (orMissing_ok hs), Sheet.mem_of_columnByName? hc⟩
  | previous name _ =>
    obtain ⟨above, hs, h⟩ := bind_eq_ok_iff.1 h
    obtain ⟨rfl, hc⟩ := cellOfRow_ok h
    obtain ⟨s, rfl, habove⟩ := Option.bind_eq_some_iff.1 (orMissing_ok hs)
    exact ⟨sheet_above habove ▸ hsite s rfl, Sheet.mem_of_columnByName? hc⟩
  | setting key _ =>
    obtain ⟨hs, hc⟩ := cellOfSetting_ok h
    exact ⟨Workbook.mem_of_sheetByName? hs, Sheet.mem_of_valueColumn hc⟩
  | cross sheet row column _ =>
    obtain ⟨hs, hc⟩ := cellOfSheet_ok h
    exact ⟨Workbook.mem_of_sheetByName? hs, Sheet.mem_of_columnByName? hc⟩

end Scope

/-! ## Failed searches -/

/-- The search fails only because something is missing, or because a cell of the workbook holds an integer that is no
number. -/
def Searches (w : Workbook) {α : Type} (x : Except Failure α) : Prop :=
  ∀ f, x = .error f → (∃ m, f = .reference m) ∨
    ∃ e cell, f = .overflow e ∧ w.Contains cell ∧ (cell.site.row.cell cell.column.id).settingName = .error e

section Searches

variable {w : Workbook} {α β : Type}

theorem searches_ok (a : α) : Searches w (.ok a) := fun _ h => by cases h

theorem searches_missing (m : Missing) : Searches w (.error (.reference m) : Except Failure α) :=
  fun _ h => .inl ⟨m, (Except.error.inj h).symm⟩

theorem searches_orMissing (m : Missing) (o : Option α) : Searches w (orMissing m o) := by
  cases o with
  | some a => exact searches_ok a
  | none => exact searches_missing m

theorem Searches.bind {x : Except Failure α} {next : α → Except Failure β} (hx : Searches w x)
    (hnext : ∀ a, x = .ok a → Searches w (next a)) : Searches w (x >>= next) := by
  cases x with
  | ok a => exact hnext a rfl
  | error e =>
    intro f h
    cases h
    exact hx _ rfl

theorem searches_settingsColumn (s : Sheet) (name : Option String) (place : Nat) :
    Searches w (s.settingsColumn name place) := by
  cases name <;> exact searches_orMissing _ _

theorem searches_valueColumn (s : Sheet) (name : Option String) : Searches w (s.valueColumn name) := by
  unfold Sheet.valueColumn
  split
  · exact searches_ok _
  · exact searches_settingsColumn _ _ _

theorem searches_settingRow {s : Sheet} (hs : s ∈ w.sheets) {c : Column} (hc : c ∈ s.columns) (key : String) :
    ∀ is, Searches w (s.settingRow c key is)
  | [] => searches_missing _
  | i :: is => by
    unfold Sheet.settingRow
    split
    · next e he => exact fun f h => .inr ⟨e, ⟨⟨s, i⟩, c⟩, (Except.error.inj h).symm, ⟨hs, hc⟩, he⟩
    · split
      · exact searches_ok i
      · exact searches_settingRow hs hc key is

/-- A reference that leads nowhere misses something, or has met an integer that is no number. -/
theorem Scope.searches_target {scope : Scope} {site : Option RowSite} {r : Reference} :
    Searches scope.workbook (scope.target site r) := by
  have hrow : ∀ (s : RowSite) name, Searches scope.workbook (cellOfRow s name) := fun s name =>
    (searches_orMissing _ _).bind fun _ _ => searches_ok _
  cases r with
  | column name _ => exact (searches_orMissing _ _).bind fun s _ => hrow s name
  | previous name _ => exact (searches_orMissing _ _).bind fun s _ => hrow s name
  | setting key _ =>
    refine (searches_orMissing _ _).bind fun s hs => (searches_settingsColumn _ _ _).bind fun c hc =>
      (searches_valueColumn _ _).bind fun _ _ => Searches.bind ?_ fun _ _ => searches_ok _
    exact searches_settingRow (Workbook.mem_of_sheetByName? (orMissing_ok hs)) (Sheet.mem_of_settingsColumn hc) key _
  | cross sheet row column _ =>
    exact (searches_orMissing _ _).bind fun s _ => (searches_orMissing _ _).bind fun _ _ =>
      (searches_orMissing _ _).bind fun _ _ => searches_ok _

end Searches

/-! ## Contexts and formulas -/

/-- The context of a row of a workbook leads to the row. -/
theorem Context.site_of_mem {w : Workbook} {s : Sheet} (hs : s ∈ w.sheets) (i : s.Index) (column : Option String) :
    Context.site ⟨w, s.id, (s.rows.get i).id, column⟩ = .ok ⟨s, i⟩ := by
  simp only [Context.site, Workbook.sheet?_id hs, orMissing, bind, Except.bind, Sheet.rowIndex?_id]

theorem Engine.ownCell_of_mem {site : RowSite} {c : Column} (hc : c ∈ site.sheet.columns) :
    Engine.ownCell site c.id = .ok ⟨site, c⟩ := by
  simp only [Engine.ownCell, Sheet.columnById?_id hc, orMissing, bind, Except.bind]

/-- A context that leads nowhere misses something. -/
theorem searches_site (c : Context) : Searches c.workbook c.site :=
  (searches_orMissing _ _).bind fun _ _ => (searches_orMissing _ _).bind fun _ _ => searches_ok _

theorem searches_ownCell (w : Workbook) {site : RowSite} {id : String} : Searches w (Engine.ownCell site id) :=
  (searches_orMissing _ _).bind fun _ _ => searches_ok _

theorem Engine.parse_of_read {engine : Engine} {formula : String} {e : Expr} (h : engine.read formula = .ok e) :
    parse engine.registry (stripMarker formula) = .ok e := by
  obtain ⟨e', he', h⟩ := bind_eq_ok_iff.1 h
  split at h
  · cases h
  · cases h
    exact ok_of_mapError he'

/-! ## A ledger -/

section Ledger

/-- The column of net amounts. -/
def netColumn : Column := ⟨"net", "Net", .general, none⟩

/-- The column of gross amounts, which are the net amounts. -/
def grossColumn : Column := ⟨"gross", "Gross", .formula, some "Net"⟩

/-- The column of totals, which are the gross amounts. -/
def totalColumn : Column := ⟨"total", "Total", .formula, some "Gross"⟩

/-- The columns of the ledger. -/
def ledgerColumns : List Column :=
  [⟨"id", "ID", .general, none⟩, netColumn, ⟨"note", "Note", .general, none⟩, grossColumn, totalColumn]

/-- A ledger of one row with a note. -/
def ledgerSheet (note : String) : Sheet where
  id := "books"
  name := "Books"
  columns := ledgerColumns
  rows := [⟨"first", [("id", .text "one"), ("net", .text "five"), ("note", .text note)]⟩]
  columnNames_nodup := by decide
  columnIds_nodup := by decide
  rowIds_nodup := by simp

/-- The workbook of the ledger. -/
def ledger (note : String) : Workbook := ⟨[ledgerSheet note], by simp, by simp⟩

/-- The cell of a column of the ledger. -/
def ledgerCell (note : String) (c : Column) : CellSite :=
  ⟨⟨ledgerSheet note, ⟨0, Nat.one_pos⟩⟩, c⟩

/-- A row of the ledger, without a column or with one that the formula belongs to. -/
def ledgerContext (column : Option String) : Context :=
  ⟨ledger "paid", "books", "first", column⟩

theorem eq_ledgerCell {note : String} {c : CellSite} (h : (ledger note).Contains c) :
    c = ledgerCell note c.column ∧ c.column ∈ ledgerColumns := by
  obtain ⟨⟨sheet, index⟩, column⟩ := c
  obtain ⟨hsheet, hcolumn⟩ := h
  obtain rfl : sheet = ledgerSheet note := List.mem_singleton.1 hsheet
  have hindex : index = ⟨0, Nat.one_pos⟩ := Fin.ext (Nat.lt_one_iff.1 index.isLt)
  exact ⟨by rw [hindex]; rfl, hcolumn⟩

theorem source_gross (note : String) : (ledgerCell note grossColumn).source = .formula "Net" := by rfl

theorem source_net (note : String) : (ledgerCell note netColumn).source = .literal (.text "five") := by rfl

theorem parse_net : parse Registry.standard "Net" = .ok (.ref (.column "Net" 0)) := by cbv

theorem parse_gross : parse Registry.standard "Gross" = .ok (.ref (.column "Gross" 0)) := by cbv

theorem ledger_sources : (ledgerColumns.map fun c => (ledgerCell "paid" c).source) =
    [.literal (.text "one"), .literal (.text "five"), .literal (.text "paid"), .formula "Net",
      .formula "Gross"] := by rfl

/-- The formulas of a ledger that is paid. -/
theorem ledger_bodies {c : CellSite} (hc : (ledger "paid").Contains c) {body : String} (hb : c.source = .formula body) :
    c = ledgerCell "paid" grossColumn ∧ body = "Net" ∨ c = ledgerCell "paid" totalColumn ∧ body = "Gross" := by
  obtain ⟨hcell, hcolumn⟩ := eq_ledgerCell hc
  rw [hcell] at hb ⊢
  simp only [ledgerColumns, List.mem_cons, List.not_mem_nil, or_false] at hcolumn
  have hsources := ledger_sources
  simp only [ledgerColumns, List.map_cons, List.map_nil, List.cons.injEq, and_true] at hsources
  rcases hcolumn with hcol | hcol | hcol | hcol | hcol
  · rw [hcol, hsources.1] at hb; cases hb
  · rw [hcol, hsources.2.1] at hb; cases hb
  · rw [hcol, hsources.2.2.1] at hb; cases hb
  · rw [hcol, hsources.2.2.2.1] at hb; cases hb; exact .inl ⟨by rw [hcol], rfl⟩
  · rw [hcol, hsources.2.2.2.2] at hb; cases hb; exact .inr ⟨by rw [hcol], rfl⟩

theorem ledger_plainBodies : (ledger "paid").PlainBodies := by
  intro c hc body hb
  rcases ledger_bodies hc hb with ⟨-, rfl⟩ | ⟨-, rfl⟩
  · decide
  · decide

end Ledger

end GameSheet
