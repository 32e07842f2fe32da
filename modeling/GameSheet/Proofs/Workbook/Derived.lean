import GameSheet.Proofs.Workbook.Described

/-!
# Derived identifiers

A sheet, a column or a row that has no identifier in a document gets one: a sheet its name, a column or a row one from
its place. What is derived does not depend on what is given elsewhere (`Naming`), so the identifiers of a scope are
distinct exactly if none that is given is derived for another part (`Naming.nodup_ids_iff`).

A document without sources is described part by part: `Data.DescribesColumn`, `Data.DescribesRow`,
`Data.DescribesSheet`. If names and given identifiers are distinct in it, and its cells are in columns, nothing else
can go wrong: **`Workbook.loads_iff_of_described`** says that it is loaded exactly if nothing clashes among its sheets,
the columns of a sheet and the rows of a sheet.
-/

namespace GameSheet

/-! ## Given and derived identifiers -/

/-- How a part of a document comes by its identifier: one that is given, or else a derived one. -/
structure Naming where
  given : Option String
  derived : String
  deriving DecidableEq

namespace Naming

/-- The identifier of the part. -/
def id (n : Naming) : String :=
  n.given.getD n.derived

/-- An identifier that is given is the one that is derived for a part without. -/
def Clash (scope : List Naming) : Prop :=
  ∃ m ∈ scope, ∃ n ∈ scope, n.given = none ∧ m.given = some n.derived

instance (scope : List Naming) : Decidable (Clash scope) :=
  inferInstanceAs (Decidable (∃ m ∈ scope, ∃ n ∈ scope, _ ∧ _))

/-- **Identifiers are distinct exactly if nothing clashes**, where the given ones are distinct and the derived ones
are. -/
theorem nodup_ids_iff {scope : List Naming} (hgiven : (scope.filterMap Naming.given).Nodup)
    (hderived : (scope.map Naming.derived).Nodup) : (scope.map Naming.id).Nodup ↔ ¬Clash scope := by
  constructor
  · rintro hids ⟨m, hm, n, hn, hnone, hsome⟩
    have hid : m.id = n.id := by simp [id, hnone, hsome]
    rw [List.inj_on_of_nodup_map hids hm hn hid, hnone] at hsome
    cases hsome
  · intro hclash
    rw [List.Nodup, List.pairwise_filterMap] at hgiven
    rw [List.Nodup, List.pairwise_map] at hderived ⊢
    -- two given identifiers differ and so do two derived ones; one of each would be a clash
    refine (hgiven.and hderived).imp_of_mem ?_
    rintro ⟨given, derived⟩ ⟨given', derived'⟩ hm hn ⟨hgiven, hderived⟩
    cases given with
    | none =>
      cases given' with
      | none => exact hderived
      | some x' => exact fun heq => hclash ⟨_, hn, _, hm, rfl, congrArg some heq.symm⟩
    | some x =>
      cases given' with
      | none => exact fun heq => hclash ⟨_, hm, _, hn, rfl, congrArg some heq⟩
      | some x' => exact hgiven x rfl x' rfl

/-- Parts in order, with identifiers derived from their places. -/
def ofParts (given : Data → Option String) (derive : Nat → String) (parts : List Data) : List Naming :=
  (parts.zipIdx 1).map fun p => ⟨given p.1, derive p.2⟩

theorem nodup_derived_ofParts {given : Data → Option String} {derive : Nat → String} {parts : List Data}
    (h : Function.Injective derive) : ((ofParts given derive parts).map Naming.derived).Nodup := by
  have hderived : (ofParts given derive parts).map Naming.derived =
      (List.range' 1 parts.length).map derive := by
    rw [ofParts, List.map_map, ← List.zipIdx_map_snd 1 parts, List.map_map]
    rfl
  rw [hderived]
  exact (List.nodup_range' ..).map h

end Naming

/-! ## Columns -/

/-- The name that a column is described by: the data itself, or what it has for one. -/
def Data.columnName : Data → String
  | .text s => s
  | raw => ((raw.get? "name").bind Data.text?).getD ""

/-- The identifier that is given for a column. -/
def Data.columnId? (raw : Data) : Option String :=
  (raw.get? "id").bind Data.text?

/-- The data describes a column: it is a name, or a mapping with a name whose other entries suit a column. -/
inductive Data.DescribesColumn : Data → Prop
  | name (s : String) : DescribesColumn (.text s)
  | mapping {entries : List (String × Data)} : (∃ s, entries.lookup "name" = some (.text s)) →
      (∀ e, entries.lookup "id" = some e → ∃ s, e = .text s) →
      (∀ e, entries.lookup "kind" = some e → ∃ kind, ColumnKind.ofData? e = some kind) →
      (∀ e, entries.lookup "formula" = some e → ∃ formula, e.optionalText? = some formula) →
      DescribesColumn (.mapping entries)

section Columns

variable {place : Nat} {raw : Data} {entries : List (String × Data)} {key other : String} {value : Data}

theorem lookup_defaultEntry_self :
    (defaultEntry key value entries).lookup key = some ((entries.lookup key).getD value) := by
  rw [defaultEntry]
  cases hfound : entries.lookup key with
  | some v => simp [hfound]
  | none => simp [List.lookup_append, hfound]

theorem lookup_defaultEntry_of_ne (h : other ≠ key) :
    (defaultEntry key value entries).lookup other = entries.lookup other := by
  rw [defaultEntry]
  split
  · rfl
  · simp [List.lookup_append, List.lookup_cons, beq_eq_false_iff_ne.2 h]

/-- Entries that suit a column make one of their name and identifier. -/
theorem Column.exists_ofEntries {id name : String} (hid : entries.lookup "id" = some (.text id))
    (hname : entries.lookup "name" = some (.text name))
    (hkind : ∀ e, entries.lookup "kind" = some e → ∃ kind, ColumnKind.ofData? e = some kind)
    (hformula : ∀ e, entries.lookup "formula" = some e → ∃ formula, e.optionalText? = some formula) :
    ∃ c, Column.ofEntries entries = .ok c ∧ c.name = name ∧ c.id = id := by
  obtain ⟨kind, hkind⟩ : ∃ kind, (entries.lookup "kind").elim (some .general) ColumnKind.ofData? = some kind := by
    cases he : entries.lookup "kind" with
    | none => exact ⟨_, rfl⟩
    | some e => exact hkind e he
  obtain ⟨formula, hformula⟩ :
      ∃ formula, (entries.lookup "formula").elim (some none) Data.optionalText? = some formula := by
    cases he : entries.lookup "formula" with
    | none => exact ⟨_, rfl⟩
    | some e => exact hformula e he
  refine ⟨⟨id, name, kind, formula⟩, ?_, rfl, rfl⟩
  rw [Column.ofEntries, hid, hname, hkind, hformula]
  rfl

theorem lookup_columnEntries_of_ne (hid : key ≠ "id") (hkind : key ≠ "kind") :
    (columnEntries place entries).lookup key = entries.lookup key := by
  rw [columnEntries]
  split
  · rw [lookup_defaultEntry_of_ne hkind, lookup_defaultEntry_of_ne hid]
  · rw [lookup_defaultEntry_of_ne hid]

theorem lookup_columnEntries_id :
    (columnEntries place entries).lookup "id" = some ((entries.lookup "id").getD (.text (columnIdAt place))) := by
  rw [columnEntries]
  split
  · rw [lookup_defaultEntry_of_ne (by decide), lookup_defaultEntry_self]
  · rw [lookup_defaultEntry_self]

/-- A column has the kind that is given for it, or that of a formula. -/
theorem lookup_columnEntries_kind {e : Data} (h : (columnEntries place entries).lookup "kind" = some e) :
    entries.lookup "kind" = some e ∨ e = .text ColumnKind.formulaWord := by
  rw [columnEntries] at h
  split at h
  · rw [lookup_defaultEntry_self, lookup_defaultEntry_of_ne (by decide), Option.some.injEq] at h
    cases hkind : entries.lookup "kind" with
    | none =>
      rw [hkind] at h
      exact .inr h.symm
    | some e' =>
      rw [hkind] at h
      exact .inl (congrArg some h)
  · rw [lookup_defaultEntry_of_ne (by decide)] at h
    exact .inl h

/-- A column that is described has its name, and its identifier or the one of its place. -/
theorem exists_columnOfData (h : raw.DescribesColumn) : ∃ c, columnOfData place raw = .ok c ∧
    c.name = raw.columnName ∧ c.id = raw.columnId?.getD (columnIdAt place) := by
  cases h with
  | name s => exact ⟨_, rfl, rfl, rfl⟩
  | @mapping entries hname hid hkind hformula =>
    obtain ⟨name, hname⟩ := hname
    have hid' : (columnEntries place entries).lookup "id" =
        some (.text ((Data.mapping entries).columnId?.getD (columnIdAt place))) := by
      rw [lookup_columnEntries_id, Data.columnId?, Data.get?]
      cases he : entries.lookup "id" with
      | none => rfl
      | some e =>
        obtain ⟨s, rfl⟩ := hid e he
        rfl
    have hname' := (@lookup_columnEntries_of_ne place entries "name" (by decide) (by decide)).trans hname
    obtain ⟨c, hc, hcname, hcid⟩ := Column.exists_ofEntries hid' hname'
      (fun e he => (lookup_columnEntries_kind he).elim (hkind e) fun hword => ⟨.formula, hword ▸ rfl⟩)
      (fun e he => hformula e (by rwa [lookup_columnEntries_of_ne (by decide) (by decide)] at he))
    refine ⟨c, ?_, ?_, hcid⟩
    · simp only [columnOfData, hname, Option.isSome_some, if_true, hc]
      rfl
    · rw [hcname, Data.columnName, Data.get?, hname]
      · rfl
      · intro s heq
        cases heq

end Columns

/-! ## Sheets -/

namespace Data

/-- How the columns of a sheet come by their identifiers. -/
def columnNamings (raw : Data) : List Naming :=
  Naming.ofParts columnId? columnIdAt (partsOf raw "columns")

/-- How the rows of a sheet come by their identifiers. -/
def rowNamings (raw : Data) : List Naming :=
  Naming.ofParts rowId? rowIdAt (partsOf raw "rows")

/-- How a sheet comes by its identifier. -/
def sheetNaming (raw : Data) : Naming :=
  ⟨(raw.get? "id").map shown, raw.sheetName⟩

/-- The data describes a sheet without a source: columns one after the other with distinct names, rows one after the
other with data for these columns, and given identifiers that are distinct. -/
structure DescribesSheet (raw : Data) : Prop where
  named : ∃ label, raw.get? "name" = some label
  sourceless : raw.given? "source" = none
  listsColumns : raw.Lists "columns"
  listsRows : raw.Lists "rows"
  columns : ∀ column ∈ partsOf raw "columns", column.DescribesColumn
  columnNames : ((partsOf raw "columns").map columnName).Nodup
  columnIds : (raw.columnNamings.filterMap Naming.given).Nodup
  rows : ∀ row ∈ partsOf raw "rows",
    row.DescribesRow ((partsOf raw "columns").map columnName ++ raw.columnNamings.map Naming.id)
  rowIds : (raw.rowNamings.filterMap Naming.given).Nodup

/-- The data describes sheets with distinct names and distinct given identifiers. -/
structure DescribesSheets (items : List Data) : Prop where
  sheets : ∀ raw ∈ items, raw.DescribesSheet
  names : (items.map sheetName).Nodup
  ids : ((items.map sheetNaming).filterMap Naming.given).Nodup

end Data

/-- The sheet, its columns and its rows have the names and the identifiers that the data describes: those that are
given, and the derived ones where none is. -/
structure Sheet.IdentifiedBy (s : Sheet) (raw : Data) : Prop where
  name : s.name = raw.sheetName
  id : s.id = raw.sheetNaming.id
  columnNames : s.columns.map Column.name = (partsOf raw "columns").map Data.columnName
  columnIds : s.columns.map Column.id = raw.columnNamings.map Naming.id
  rowIds : s.rows.map Row.id = raw.rowNamings.map Naming.id

section Sheets

variable {frame : String → Except DocumentFault Table} {raw : Data} {s : Sheet} {columns : List Column}
  {rows : List Row}

theorem exists_columns (hlists : raw.Lists "columns")
    (h : ∀ column ∈ partsOf raw "columns", column.DescribesColumn) : ∃ columns,
    eachPart columnOfData raw "columns" = .ok columns ∧
      columns.map Column.name = (partsOf raw "columns").map Data.columnName ∧
      columns.map Column.id = raw.columnNamings.map Naming.id := by
  obtain ⟨columns, hall⟩ := exists_forall₂_iff.2 fun p hp =>
    @exists_columnOfData p.2 p.1 (h p.1 (List.fst_mem_of_mem_zipIdx hp))
  have hcolumns := eachFrom_eq_ok_iff.2 (hall.imp fun _ _ hc => hc.1)
  refine ⟨columns, eachPart_eq_ok_iff.2 ⟨hlists, hcolumns⟩, ?_, ?_⟩
  · rw [← List.zipIdx_map_fst 1 (partsOf raw "columns"), List.map_map]
    exact (map_eq_map_of_forall₂ hall fun _ _ hc => hc.2.1.symm).symm
  · rw [Data.columnNamings, Naming.ofParts, List.map_map]
    exact (map_eq_map_of_forall₂ hall fun _ _ hc => hc.2.2.symm).symm

theorem rows_ids {name : String} (h : eachPart (rowOfData name columns) raw "rows" = .ok rows) :
    rows.map Row.id = raw.rowNamings.map Naming.id := by
  rw [rowsOfData_ids (eachPart_eq_ok_iff.1 h).2, Data.rowNamings, Naming.ofParts, List.map_map]
  rfl

/-- A sheet without a source has its declared columns and its rows. -/
theorem sheetOfFrames_eq_ok_iff_make {label : Data} (hname : raw.get? "name" = some label)
    (hsource : raw.given? "source" = none)
    (hcolumns : eachPart columnOfData raw "columns" = .ok columns) :
    sheetOfFrames frame raw = .ok s ↔
      ∃ rows, eachPart (rowOfData raw.sheetName columns) raw "rows" = .ok rows ∧
        Sheet.make raw.sheetId raw.sheetName columns rows = .ok s := by
  have hread : sheetOfFrames frame raw =
      eachPart (rowOfData raw.sheetName columns) raw "rows" >>= fun rows =>
        (Sheet.make raw.sheetId raw.sheetName columns rows).mapError .sheet := by
    simp only [sheetOfFrames, Data.sheetId, Data.sheetName, hname, hsource, hcolumns]
    rfl
  rw [hread, bind_eq_ok_iff]
  refine exists_congr fun rows => and_congr_right fun _ => ⟨ok_of_mapError, fun hs => ?_⟩
  rw [hs]
  rfl

/-- A sheet that is described has the names and identifiers that it is described by. -/
theorem sheetOfFrames_identified (h : raw.DescribesSheet) (hs : sheetOfFrames frame raw = .ok s) :
    s.IdentifiedBy raw := by
  obtain ⟨label, hname⟩ := h.named
  obtain ⟨columns, hcolumns, hnames, hids⟩ := exists_columns h.listsColumns h.columns
  obtain ⟨rows, hrows, hmake⟩ := (sheetOfFrames_eq_ok_iff_make hname h.sourceless hcolumns).1 hs
  obtain ⟨hid, hlabel, rfl, rfl⟩ := Sheet.make_eq_ok_iff.1 hmake
  exact ⟨hlabel, hid, hnames, hids, rows_ids hrows⟩

/-- **A sheet that is described is read exactly if nothing clashes** among its columns and among its rows. -/
theorem exists_sheetOfFrames_iff (h : raw.DescribesSheet) : (∃ s, sheetOfFrames frame raw = .ok s) ↔
    ¬Naming.Clash raw.columnNamings ∧ ¬Naming.Clash raw.rowNamings := by
  obtain ⟨label, hname⟩ := h.named
  obtain ⟨columns, hcolumns, hnames, hids⟩ := exists_columns h.listsColumns h.columns
  have hnodup : (columns.map Column.name).Nodup := hnames ▸ h.columnNames
  have hcolumnIds := Naming.nodup_ids_iff h.columnIds (Naming.nodup_derived_ofParts columnIdAt_injective)
  have hrowIds := Naming.nodup_ids_iff h.rowIds (Naming.nodup_derived_ofParts rowIdAt_injective)
  rw [← hcolumnIds, ← hrowIds, ← hids]
  constructor
  · rintro ⟨s, hs⟩
    have hidentified := sheetOfFrames_identified h hs
    rw [hids, ← hidentified.columnIds, ← hidentified.rowIds]
    exact ⟨s.columnIds_nodup, s.rowIds_nodup⟩
  · rintro ⟨hcolumnIds, hrowIds⟩
    obtain ⟨rows, hrows⟩ := @exists_rowsOfData columns raw.sheetName 1 hnodup hcolumnIds (partsOf raw "rows") (by
      rw [hnames, hids]
      exact h.rows)
    have hrows := eachPart_eq_ok_iff.2 ⟨h.listsRows, hrows⟩
    obtain ⟨s, hs⟩ := Sheet.exists_make_iff.2 ⟨hnodup, hcolumnIds, rows_ids hrows ▸ hrowIds⟩
    exact ⟨s, (sheetOfFrames_eq_ok_iff_make hname h.sourceless hcolumns).2 ⟨rows, hrows, hs⟩⟩

theorem Workbook.exists_ofFrames_iff {d : Data} {items : List Data} (hitems : d.get? "sheets" = some (.list items))
    (h : Data.DescribesSheets items) : (∃ w, Workbook.ofFrames frame d = .ok w) ↔
      ¬Naming.Clash (items.map Data.sheetNaming) ∧
        ∀ raw ∈ items, ¬Naming.Clash raw.columnNamings ∧ ¬Naming.Clash raw.rowNamings := by
  have hread : (∀ raw ∈ items, ¬Naming.Clash raw.columnNamings ∧ ¬Naming.Clash raw.rowNamings) ↔
      ∃ sheets, List.Forall₂ (fun raw s => sheetOfFrames frame raw = .ok s) items sheets := by
    rw [exists_forall₂_iff]
    exact forall₂_congr fun raw hraw => (exists_sheetOfFrames_iff (h.sheets raw hraw)).symm
  have hderived : ((items.map Data.sheetNaming).map Naming.derived).Nodup := by
    rw [List.map_map]
    exact h.names
  have hids : (items.map Data.sheetNaming).map Naming.id = items.map Data.sheetId := List.map_map
  rw [← Naming.nodup_ids_iff h.ids hderived, hread, hids]
  constructor
  · rintro ⟨w, hw⟩
    have hsheets := Workbook.sheets_of_ofFrames hitems hw
    exact ⟨sheets_ids hsheets ▸ w.ids_nodup, w.sheets, hsheets⟩
  · rintro ⟨hids, sheets, hsheets⟩
    obtain ⟨w, hw, -⟩ := Workbook.exists_ofFrames hsheets hitems h.names hids
    exact ⟨w, hw⟩

end Sheets

/-- **A document that is described is loaded exactly if nothing clashes**: no identifier that is given for a sheet, for
a column of a sheet or for a row of a sheet is the one that is derived for another of them without. What is loaded has
the names and the identifiers that the document describes. -/
theorem Workbook.loads_iff_of_described {d : Data} {items : List Data} (hitems : d.get? "sheets" = some (.list items))
    (h : Data.DescribesSheets items) (files : Files) (directory : String) :
    ((∃ w, Workbook.ofDocument files directory d = .ok w) ↔
      ¬Naming.Clash (items.map Data.sheetNaming) ∧
        ∀ raw ∈ items, ¬Naming.Clash raw.columnNamings ∧ ¬Naming.Clash raw.rowNamings) ∧
      ∀ w, Workbook.ofDocument files directory d = .ok w →
        List.Forall₂ (fun raw s => s.IdentifiedBy raw) items w.sheets := by
  rw [Workbook.ofDocument_eq_ofFrames]
  refine ⟨Workbook.exists_ofFrames_iff hitems h, fun w hw => ?_⟩
  have hsheets := Workbook.sheets_of_ofFrames hitems hw
  exact ((List.forall₂_and_left _ _).2 ⟨h.sheets, hsheets⟩).imp fun _ _ hs => sheetOfFrames_identified hs.1 hs.2

/-- A sheet of two columns, the first one with an identifier, and of one row. -/
def columnsSheet (id : String) : Data :=
  .mapping [
    ("name", .text "S"),
    ("columns", .list [.mapping [("name", .text "A"), ("id", .text id)], .text "B"]),
    ("rows", .list [.mapping [("cells", .mapping [("A", .int 1)])]])]

/-- The document of the sheet. -/
def columnsDocument (id : String) : Data :=
  .mapping [("sheets", .list [columnsSheet id])]

theorem describes_columnsSheet (id : String) : Data.DescribesSheets [columnsSheet id] := by
  have hfirst : (Data.mapping [("name", .text "A"), ("id", .text id)]).DescribesColumn :=
    .mapping ⟨"A", rfl⟩ (fun e he => ⟨id, (Option.some.inj he).symm⟩) (fun e he => nomatch he) (fun e he => nomatch he)
  have hcolumns : partsOf (columnsSheet id) "columns" =
    [.mapping [("name", .text "A"), ("id", .text id)], .text "B"] := rfl
  have hrows : partsOf (columnsSheet id) "rows" = [.mapping [("cells", .mapping [("A", .int 1)])]] := rfl
  refine ⟨List.forall_mem_singleton.2 ⟨⟨_, rfl⟩, rfl, ?_, ?_, ?_, ?_, List.nodup_singleton _, ?_, List.nodup_nil⟩,
    List.nodup_singleton _, List.nodup_nil⟩
  · rintro d hd
    cases hd
    exact ⟨_, rfl⟩
  · rintro d hd
    cases hd
    exact ⟨_, rfl⟩
  · rw [hcolumns]
    exact List.forall_mem_cons.2 ⟨hfirst, List.forall_mem_singleton.2 (.name "B")⟩
  · have hnames : ["A", "B"].Nodup := by decide
    exact hnames
  · rw [hrows, hcolumns, List.forall_mem_singleton]
    refine ⟨⟨_, rfl⟩, fun d hd => ⟨_, (Option.some.inj hd).symm⟩, List.forall_mem_singleton.2 List.mem_cons_self,
      List.forall_mem_singleton.2 ⟨_, rfl⟩⟩

/-- The identifier that is given is derived for no column. -/
theorem loads_iff_of_described_apart : Data.DescribesSheets [columnsSheet "first"] ∧
    ∃ w, Workbook.ofDocument {} "." (columnsDocument "first") = .ok w ∧
      List.Forall₂ (fun raw s => s.IdentifiedBy raw) [columnsSheet "first"] w.sheets := by
  have hdescribed := describes_columnsSheet "first"
  obtain ⟨hloads, hidentified⟩ :=
    @Workbook.loads_iff_of_described (columnsDocument "first") _ rfl hdescribed {} "."
  obtain ⟨w, hw⟩ := hloads.2 ⟨by decide, by decide⟩
  exact ⟨hdescribed, w, hw, hidentified w hw⟩

/-- The identifier that is given for the first column is the one that is derived for the second. -/
theorem loads_of_described_clash : Data.DescribesSheets [columnsSheet "col2"] ∧
    Workbook.ofDocument {} "." (columnsDocument "col2") = .error (.sheet (.columnIds "S")) :=
  ⟨describes_columnsSheet "col2", rfl⟩

end GameSheet
